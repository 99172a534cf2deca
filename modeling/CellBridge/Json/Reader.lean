import CellBridge.Json.Basic
import CellBridge.Text.Integer

/-!
# Reading JSON documents

`Json.read?` reads a text that holds one document and nothing else but blanks around it.  The
grammar is the standard one: no leading zeros, no trailing commas, no control characters inside
strings, only the standard escapes.

Each function takes the characters that are left and gives back those that it did not use.
-/

namespace CellBridge
namespace Json

section Tokens

/-- The four characters that may stand between tokens. -/
def isSpace
    (c : Char) : Bool :=
  c == ' ' || c == '\n' || c == '\t' || c == '\r'

/-- Drops the blanks in front. -/
def skip
    (cs : List Char) : List Char :=
  cs.dropWhile isSpace

def isDigit
    (c : Char) : Bool :=
  (Text.digit? c).isSome

/-- The digits in front, and what follows them. -/
def takeDigits
    (cs : List Char) : List Char × List Char :=
  (cs.takeWhile isDigit, cs.dropWhile isDigit)

/-- Removes the characters `ws` from the front. -/
def literal?
    (ws : List Char)
    (cs : List Char) : Option (List Char) :=
  if ws.isPrefixOf cs then some (cs.drop ws.length) else none

/-- The value of decimal digits. -/
def natOfDigits
    (ds : List Char) : Nat :=
  ds.foldl (fun n c => 10 * n + (Text.digit? c).getD 0) 0

/-- The digits of a whole part: a single zero, or digits that do not start with zero. -/
def whole?
    (cs : List Char) : Option (List Char × List Char) :=
  match takeDigits cs with
  | ([], _) => none
  | (['0'], r) => some (['0'], r)
  | ('0' :: _ :: _, _) => none
  | (d :: ds, r) => some (d :: ds, r)

/-- The digits behind a point, at least one; none at all without a point. -/
def fraction?
    (cs : List Char) : Option (List Char × List Char) :=
  match cs with
  | '.' :: r =>
      match takeDigits r with
      | ([], _) => none
      | (d :: ds, rest) => some (d :: ds, rest)
  | _ => some ([], cs)

/-- The digits of an exponent, at least one, with the sign that stood before them. -/
def exponentDigits?
    (negative : Bool)
    (cs : List Char) : Option (Option Int × List Char) :=
  match takeDigits cs with
  | ([], _) => none
  | (ds, r) =>
      let e : Int := natOfDigits ds
      some (some (if negative then -e else e), r)

/-- An exponent, if one follows. -/
def exponent?
    (cs : List Char) : Option (Option Int × List Char) :=
  let body (r : List Char) :=
    match r with
    | '+' :: s => exponentDigits? false s
    | '-' :: s => exponentDigits? true s
    | s => exponentDigits? false s
  match cs with
  | 'e' :: r => body r
  | 'E' :: r => body r
  | _ => some (none, cs)

/-- A numeral without its sign. -/
def unsigned?
    (negative : Bool)
    (cs : List Char) : Option (Numeral × List Char) := do
  let (w, cs) ← whole? cs
  let (f, cs) ← fraction? cs
  let (e, cs) ← exponent? cs
  return ({ isNegative := negative, whole := w, fraction := f, exponent := e }, cs)

def numeral?
    (cs : List Char) : Option (Numeral × List Char) :=
  match cs with
  | '-' :: r => unsigned? true r
  | _ => unsigned? false cs

end Tokens

section Strings

def hexDigit?
    (c : Char) : Option Nat :=
  let n := c.toNat
  if 0x30 ≤ n ∧ n ≤ 0x39 then
    some (n - 0x30)
  else if 0x41 ≤ n ∧ n ≤ 0x46 then
    some (n - 0x37)
  else if 0x61 ≤ n ∧ n ≤ 0x66 then
    some (n - 0x57)
  else
    none

def hex4?
    (a b c d : Char) : Option Nat := do
  let a ← hexDigit? a
  let b ← hexDigit? b
  let c ← hexDigit? c
  let d ← hexDigit? d
  return ((a * 16 + b) * 16 + c) * 16 + d

/-- The character that a one-letter escape stands for. -/
def escape?
    (c : Char) : Option Char :=
  match c with
  | '"' => some '"'
  | '\\' => some '\\'
  | '/' => some '/'
  | 'b' => some '\x08'
  | 'f' => some '\x0c'
  | 'n' => some '\n'
  | 'r' => some '\r'
  | 't' => some '\t'
  | _ => none

/-- The 16-bit units of a string up to its closing quote; other characters stand for themselves. -/
inductive Piece where
  | char (c : Char)
  | unit (n : Nat)

/-- The pieces of a string, read up to and with the closing quote. -/
def pieces? : List Char → Option (List Piece × List Char)
  | [] => none
  | '"' :: r => some ([], r)
  | '\\' :: 'u' :: a :: b :: c :: d :: r => do
      let n ← hex4? a b c d
      let (ps, rest) ← pieces? r
      return (.unit n :: ps, rest)
  | '\\' :: e :: r => do
      let c ← escape? e
      let (ps, rest) ← pieces? r
      return (.char c :: ps, rest)
  | c :: r =>
      if c.toNat < 0x20 ∨ c = '\\' then
        none
      else do
        let (ps, rest) ← pieces? r
        return (.char c :: ps, rest)

/-- The text of a string: units above the surrogates and below them are characters, a high and a
low surrogate together are one, and a surrogate on its own is none. -/
def joinPieces? : List Piece → Option (List Char)
  | [] => some []
  | .char c :: ps => do return c :: (← joinPieces? ps)
  | .unit h :: .unit l :: ps =>
      if 0xd800 ≤ h ∧ h < 0xdc00 ∧ 0xdc00 ≤ l ∧ l < 0xe000 then do
        return Char.ofNat (0x10000 + (h - 0xd800) * 0x400 + (l - 0xdc00)) :: (← joinPieces? ps)
      else if 0xd800 ≤ h ∧ h < 0xe000 then
        none
      else do
        return Char.ofNat h :: (← joinPieces? (.unit l :: ps))
  | .unit h :: ps =>
      if 0xd800 ≤ h ∧ h < 0xe000 then
        none
      else do
        return Char.ofNat h :: (← joinPieces? ps)

/-- A string behind its opening quote. -/
def stringBody?
    (cs : List Char) : Option (Option String × List Char) := do
  let (ps, r) ← pieces? cs
  return ((joinPieces? ps).map String.ofList, r)

end Strings

section Documents

mutual

/-- A document, blanks before it allowed. -/
def value? : Nat → List Char → Option (Json × List Char)
  | 0, _ => none
  | fuel + 1, cs =>
      match skip cs with
      | '"' :: r => do
          let (s, rest) ← stringBody? r
          return (.string s, rest)
      | '[' :: r =>
          match skip r with
          | ']' :: rest => some (.array [], rest)
          | _ => do
              let (js, rest) ← items? fuel r
              return (.array js, rest)
      | '\x7b' :: r =>
          match skip r with
          | '\x7d' :: rest => some (.object [], rest)
          | _ => do
              let (ms, rest) ← members? fuel r
              return (.object ms, rest)
      | 'n' :: r => (literal? ['u', 'l', 'l'] r).map fun rest => (.null, rest)
      | 't' :: r => (literal? ['r', 'u', 'e'] r).map fun rest => (.bool true, rest)
      | 'f' :: r => (literal? ['a', 'l', 's', 'e'] r).map fun rest => (.bool false, rest)
      | r => (numeral? r).map fun (n, rest) => (.number n, rest)

/-- One or more items and the closing bracket. -/
def items? : Nat → List Char → Option (List Json × List Char)
  | 0, _ => none
  | fuel + 1, cs => do
      let (j, r) ← value? fuel cs
      match skip r with
      | ',' :: r => do
          let (js, rest) ← items? fuel r
          return (j :: js, rest)
      | ']' :: rest => return ([j], rest)
      | _ => none

/-- One or more members and the closing brace. -/
def members? : Nat → List Char → Option (List (Option String × Json) × List Char)
  | 0, _ => none
  | fuel + 1, cs =>
      match skip cs with
      | '"' :: r => do
          let (k, r) ← stringBody? r
          match skip r with
          | ':' :: r => do
              let (j, r) ← value? fuel r
              match skip r with
              | ',' :: r => do
                  let (ms, rest) ← members? fuel r
                  return ((k, j) :: ms, rest)
              | '\x7d' :: rest => return ([(k, j)], rest)
              | _ => none
          | _ => none
      | _ => none

end

/-- The document that a text holds.  Every two nested calls use a character, which bounds their
depth. -/
def read?
    (s : String) : Option Json :=
  match value? (2 * s.length + 2) s.toList with
  | some (j, rest) => if (skip rest).isEmpty then some j else none
  | none => none

end Documents

end Json
end CellBridge
