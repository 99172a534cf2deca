import CellBridge.Number.Layout

/-!
# JSON documents

The documents through which cell values are exchanged.  A document keeps its numbers as numerals
and its members in order, repeated names included.  A string is kept as none when an escape in
it names half of a surrogate pair, because no text has such a character.

`Json.render` writes a document without any blanks.
-/

namespace CellBridge

/-- A JSON document. -/
inductive Json where
  | null
  | bool (b : Bool)
  | number (n : Numeral)
  | string (s : Option String)
  | array (items : List Json)
  | object (members : List (Option String × Json))

namespace Json

section Render

/-- A character inside a JSON string. -/
def escapedChar
    (c : Char) : List Char :=
  if c = '"' ∨ c = '\\' then
    ['\\', c]
  else if c = '\x08' then
    ['\\', 'b']
  else if c = '\x0c' then
    ['\\', 'f']
  else if c = '\n' then
    ['\\', 'n']
  else if c = '\r' then
    ['\\', 'r']
  else if c = '\t' then
    ['\\', 't']
  else if c.toNat < 0x20 then
    ['\\', 'u', '0', '0', (c.toNat / 16).digitChar, (c.toNat % 16).digitChar]
  else
    [c]

/-- A JSON string with its quotes. -/
def stringChars
    (s : Option String) : List Char :=
  '"' :: ((s.getD "").toList.flatMap escapedChar ++ ['"'])

mutual

def chars : Json → List Char
  | .null => ['n', 'u', 'l', 'l']
  | .bool true => ['t', 'r', 'u', 'e']
  | .bool false => ['f', 'a', 'l', 's', 'e']
  | .number n => n.chars true
  | .string s => stringChars s
  | .array [] => ['[', ']']
  | .array (j :: js) => '[' :: (j.chars ++ itemChars js)
  | .object [] => ['\x7b', '\x7d']
  | .object ((k, j) :: ms) => '\x7b' :: (stringChars k ++ ':' :: (j.chars ++ memberChars ms))

/-- The items after the first, and the closing bracket. -/
def itemChars : List Json → List Char
  | [] => [']']
  | j :: js => ',' :: (j.chars ++ itemChars js)

/-- The members after the first, and the closing brace. -/
def memberChars : List (Option String × Json) → List Char
  | [] => ['\x7d']
  | (k, j) :: ms => ',' :: (stringChars k ++ ':' :: (j.chars ++ memberChars ms))

end

def render
    (j : Json) : String :=
  String.ofList j.chars

end Render

end Json
end CellBridge
