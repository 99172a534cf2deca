import CellBridge.Text.Extending
import CellBridge.Text.Unprintable

/-!
# Quoted text

`quoted` writes a text between double quotes so that every character shows.  Quotes and
backslashes get a backslash, four control characters have letters of their own, and every other
character that shows nothing or joins its neighbour is written by its code point.  A single quote
needs no escape.
-/

namespace CellBridge
namespace Text

/-- Ranges of the fillers of Hangul syllables, which are letters but show nothing. -/
def fillerRanges : List (Nat × Nat) :=
  [(0x115f, 0x1160), (0x3164, 0x3164), (0xffa0, 0xffa0)]

/-- Ranges of the halfwidth sound marks, which extend the letter before them but take up a place
of their own. -/
def soundMarkRanges : List (Nat × Nat) :=
  [(0xff9e, 0xff9f)]

/-- Does the character show nothing? -/
def isInvisible
    (c : Char) : Bool :=
  inRanges unprintableRanges c.toNat || inRanges fillerRanges c.toNat

/-- Is the character drawn into the place of the one before it? -/
def joinsNeighbour
    (c : Char) : Bool :=
  inRanges extendingRanges c.toNat && !inRanges soundMarkRanges c.toNat

/-- Can the character not stand in quoted text as it is?  The printable ASCII characters all
can. -/
def needsCodePoint
    (c : Char) : Bool :=
  if 0x20 ≤ c.toNat ∧ c.toNat ≤ 0x7e then
    false
  else
    isInvisible c || joinsNeighbour c

/-- A character by its code point in hexadecimal digits. -/
def codePointEscape
    (c : Char) : List Char :=
  ['\\', 'u', '\x7b'] ++ Nat.toDigits 16 c.toNat ++ ['\x7d']

/-- A character as it stands inside quotes. -/
def quotedChar
    (c : Char) : List Char :=
  if c = '\x00' then
    ['\\', '0']
  else if c = '\t' then
    ['\\', 't']
  else if c = '\r' then
    ['\\', 'r']
  else if c = '\n' then
    ['\\', 'n']
  else if c = '"' ∨ c = '\\' then
    ['\\', c]
  else if needsCodePoint c then
    codePointEscape c
  else
    [c]

def quoted
    (s : String) : String :=
  String.ofList ('"' :: s.toList.flatMap quotedChar ++ ['"'])

end Text
end CellBridge
