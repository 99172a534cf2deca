import CellBridge.Cell.Value
import CellBridge.Json.Reader

/-!
# Cell values as documents

`Value.toJson` writes a value as a JSON document and `Value.ofJson?` reads one.  A value is a
member named for its kind, `{"Text": "a"}`, or the bare name for blanks; a grid is the list of
its rows.

Reading is wider than writing: an integer is a number, a bare kind may be written as a member with
the content null, an error may be a list or may leave out its explanation, and rows may be ragged,
for grids are built anew from their rows.  A document nested deeper than `Value.maxNesting`
is refused.
-/

namespace CellBridge
namespace Number

section Decimals

/-- The largest significand that is kept while digits are read. -/
def significandLimit : Nat :=
  Nat.pow 2 64 - 1

/-- Adds the digits of a whole part to a significand.  From the first digit that does not fit on,
digits only raise the exponent. -/
def takeWhole
    (significand : Nat) : List Char → Nat × Int
  | [] => (significand, 0)
  | c :: cs =>
      let next := 10 * significand + (Text.digit? c).getD 0
      if next ≤ significandLimit then
        takeWhole next cs
      else
        (significand, (cs.length : Int) + 1)

/-- Adds the digits behind a point to a significand, each lowering the exponent.  The first digit
that does not fit and those after it are dropped. -/
def takeFraction
    (significand : Nat)
    (exponent : Int) : List Char → Nat × Int
  | [] => (significand, exponent)
  | c :: cs =>
      let next := 10 * significand + (Text.digit? c).getD 0
      if next ≤ significandLimit then
        takeFraction next (exponent - 1) cs
      else
        (significand, exponent)

/-- The largest power of ten that is a finite number has this exponent. -/
def maxTenExponent : Nat :=
  308

/-- The number nearest to a power of ten. -/
def powerOfTen
    (e : Nat) : Number :=
  ofRatio false (Nat.pow 10 e) 1

/-- Divides by a power of ten, in steps that are numbers, until nothing is left. -/
def divideByTen
    (x : Number)
    (e : Nat) : Number :=
  if e ≤ maxTenExponent then
    x.divMagnitude (powerOfTen e)
  else if x.isZero then
    x
  else
    divideByTen (x.divMagnitude (powerOfTen maxTenExponent)) (e - maxTenExponent)
termination_by e
decreasing_by simp [maxTenExponent] at *; omega

/-- A non-negative number times a power of ten, rounded at every step; none beyond the range. -/
def scaleByTen?
    (x : Number) : Int → Option Number
  | .ofNat e =>
      if e ≤ maxTenExponent then
        let y := x.mulMagnitude (powerOfTen e)
        if y.isFinite then some y else none
      else if x.isZero then
        some x
      else
        none
  | .negSucc e => some (x.divideByTen (e + 1))

/-- The number that a numeral is read as; none beyond the range. -/
def ofNumeral?
    (n : Numeral) : Option Number :=
  let (w, excess) := takeWhole 0 n.whole
  let (s, e) := takeFraction w excess n.fraction
  (scaleByTen? (ofRatio false s 1) (e + n.exponent.getD 0)).map (withSign n.isNegative)

end Decimals

end Number

namespace Handle

/-- The handle that a numeral is: a plain natural number below `2 ^ 64`. -/
def ofNumeral?
    (n : Numeral) : Option Handle :=
  let value := Json.natOfDigits n.whole
  if !n.isNegative && n.fraction.isEmpty && n.exponent.isNone && decide (value < Nat.pow 2 64) then
    some ⟨UInt64.ofNat value⟩
  else
    none

def toNumeral
    (h : Handle) : Numeral :=
  { isNegative := false
    whole := Nat.toDigits 10 h.value.toNat
    fraction := []
    exponent := none }

end Handle

namespace CellError

/-- The explanation of an error in a document. -/
def message? : Json → Option (Option String)
  | .null => some none
  | .string (some s) => some (some s)
  | _ => none

/-- An error code in a document that nests at most `nesting` containers. -/
def code? : Nat → Json → Option ErrorCode
  | _, .string (some s) => ErrorCode.ofLabel? s
  | _ + 1, .object [(some s, .null)] => ErrorCode.ofLabel? s
  | _, _ => none

/-- The members of an error one after the other.  Unknown members are passed over, a repeated one
is refused. -/
def ofMembers?
    (nesting : Nat)
    (code : Option ErrorCode)
    (message : Option (Option String)) :
    List (Option String × Json) → Option CellError
  | [] => code.map fun c => { code := c, message := message.getD none }
  | (none, _) :: _ => none
  | (some k, j) :: ms =>
      if k = "kind" then
        match code, code? nesting j with
        | none, some c => ofMembers? nesting (some c) message ms
        | _, _ => none
      else if k = "message" then
        match message, message? j with
        | none, some m => ofMembers? nesting code (some m) ms
        | _, _ => none
      else
        ofMembers? nesting code message ms

/-- An error in a document: its members, or the list of its code and its explanation. -/
def ofJson? : Nat → Json → Option CellError
  | nesting + 1, .object ms => ofMembers? nesting none none ms
  | nesting + 1, .array [c, m] => do
      let code ← code? nesting c
      let message ← message? m
      return { code := code, message := message }
  | _, _ => none

def toJson
    (e : CellError) : Json :=
  .object
    [(some "kind", .string (some e.code.label)),
      (some "message",
        match e.message with
        | none => .null
        | some m => .string (some m))]

end CellError

namespace Value

/-- How deep arrays and objects may be nested in a document. -/
def maxNesting : Nat :=
  127

section Writing

/-- A number as a document; infinities and not-a-numbers have none but null. -/
def numberJson
    (n : Number) : Json :=
  if n.isFinite then .number (n.toNumeral .exchange) else .null

def member
    (name : String)
    (j : Json) : Json :=
  .object [(some name, j)]

mutual

def toJson : Value → Json
  | .number n => member "Number" (numberJson n)
  | .text s => member "Text" (.string (some s))
  | .boolean b => member "Boolean" (.bool b)
  | .array g => member "Array" (gridJson g)
  | .handle h => member "HandleRef" (.number h.toNumeral)
  | .error e => member "Error" e.toJson
  | .empty => .string (some "Empty")
  | .missing => .string (some "Missing")

/-- The document of a grid: the list of its rows. -/
def gridJson : Grid Value → Json
  | ⟨rows, _, _⟩ => .array (rowJsons rows)

def rowJsons : List (List Value) → List Json
  | [] => []
  | r :: rs => .array (cellJsons r) :: rowJsons rs

def cellJsons : List Value → List Json
  | [] => []
  | v :: vs => v.toJson :: cellJsons vs

end

/-- A value written as a document. -/
def write
    (v : Value) : String :=
  v.toJson.render

end Writing

section Reading

/-- The bare kinds. -/
def ofName? : String → Option Value
  | "Empty" => some .empty
  | "Missing" => some .missing
  | _ => none

/-- A member that holds no grid. -/
def ofMember?
    (nesting : Nat)
    (name : String)
    (j : Json) : Option Value :=
  match name, j with
  | "Number", .number n => (Number.ofNumeral? n).map .number
  | "Text", .string (some s) => some (.text s)
  | "Boolean", .bool b => some (.boolean b)
  | "HandleRef", .number n => (Handle.ofNumeral? n).map .handle
  | "Error", j => (CellError.ofJson? nesting j).map .error
  | "Empty", .null => some .empty
  | "Missing", .null => some .missing
  | _, _ => none

mutual

/-- The value of a document that nests at most `nesting` containers. -/
def ofJson? : Nat → Json → Option Value
  | _, .string (some s) => ofName? s
  | nesting + 1, .object [(some name, .array rows)] =>
      if name = "Array" then
        match nesting with
        | 0 => none
        | inner + 1 => (rowsOfJson? inner rows).map fun rs => .array (gridOfRows rs)
      else
        ofMember? nesting name (.array rows)
  | nesting + 1, .object [(some name, j)] => ofMember? nesting name j
  | _, _ => none

def rowsOfJson? : Nat → List Json → Option (List (List Value))
  | _, [] => some []
  | nesting + 1, .array cells :: js => do
      let r ← cellsOfJson? nesting cells
      let rs ← rowsOfJson? (nesting + 1) js
      return r :: rs
  | _, _ => none

def cellsOfJson? : Nat → List Json → Option (List Value)
  | _, [] => some []
  | nesting, j :: js => do
      let v ← ofJson? nesting j
      let vs ← cellsOfJson? nesting js
      return v :: vs

end

/-- The value written in a text. -/
def read?
    (s : String) : Option Value :=
  (Json.read? s).bind (ofJson? maxNesting)

end Reading

end Value
end CellBridge
