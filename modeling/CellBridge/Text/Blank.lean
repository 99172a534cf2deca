import CellBridge.Text.Ranges

/-!
# Blanks around a text

`trim` drops the characters with the Unicode property White_Space at both ends of a text, and
`lowerAscii` brings the letters `A` to `Z` to lower case, leaving every other character.
-/

namespace CellBridge
namespace Text

/-- Ranges of the characters with the property White_Space. -/
def blankRanges : List (Nat × Nat) :=
  [(0x9, 0xd), (0x20, 0x20), (0x85, 0x85), (0xa0, 0xa0), (0x1680, 0x1680), (0x2000, 0x200a),
    (0x2028, 0x2029), (0x202f, 0x202f), (0x205f, 0x205f), (0x3000, 0x3000)]

def isBlank
    (c : Char) : Bool :=
  inRanges blankRanges c.toNat

/-- The characters without blanks at either end. -/
def trim
    (cs : List Char) : List Char :=
  ((cs.dropWhile isBlank).reverse.dropWhile isBlank).reverse

/-- The characters with the letters `A` to `Z` in lower case. -/
def lowerAscii
    (cs : List Char) : List Char :=
  cs.map Char.toLower

end Text
end CellBridge
