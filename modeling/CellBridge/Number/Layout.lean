import CellBridge.Number.Shortest

/-!
# Numerals

A `Numeral` is a decimal number as it is written: a sign, digits before and after the point, and
an exponent.  A `Layout` decides how the shortest digits of a number become a numeral, and there
are three of them:

* `plain` never writes an exponent and no point after an integral value;
* `detailed` writes a point in every positional numeral, and an exponent outside `1e-4 .. 1e16`;
* `exchange` is the same with the range `1e-5 .. 1e16`, a sign on every exponent, and the even
  one of two equally short and near decimals.
-/

namespace CellBridge

/-- A decimal number as written. -/
structure Numeral where
  isNegative : Bool
  whole : List Char
  fraction : List Char
  exponent : Option Int
deriving DecidableEq

namespace Numeral

/-- The exponent with its sign; `plus` shows the sign of those that are not negative. -/
def exponentText
    (plus : Bool)
    (e : Int) : List Char :=
  (if e < 0 then ['-'] else if plus then ['+'] else []) ++ Nat.toDigits 10 e.natAbs

def chars
    (plus : Bool)
    (n : Numeral) : List Char :=
  (if n.isNegative then ['-'] else []) ++ n.whole ++
    (if n.fraction.isEmpty then [] else '.' :: n.fraction) ++
    (match n.exponent with
    | none => []
    | some e => 'e' :: exponentText plus e)

end Numeral

namespace Number

/-- How the digits of a number are written. -/
structure Layout where
  /-- Exponents of the first digit that are written out; none means all. -/
  positional : Option (Int × Int)
  /-- Is a zero written behind the point of an integral value? -/
  pointZero : Bool
  /-- Is the sign of a positive exponent written? -/
  plusExponent : Bool
  tie : Tie

namespace Layout

/-- The form in which cells show numbers. -/
def plain : Layout :=
  { positional := none, pointZero := false, plusExponent := false, tie := .up }

/-- The form in which detailed dumps show numbers. -/
def detailed : Layout :=
  { positional := some (-4, 15), pointZero := true, plusExponent := false, tie := .up }

/-- The form in which numbers are exchanged. -/
def exchange : Layout :=
  { positional := some (-5, 15), pointZero := true, plusExponent := true, tie := .even }

/-- Is a number whose first digit has exponent `e` written without an exponent? -/
def writesOut
    (l : Layout)
    (e : Int) : Bool :=
  match l.positional with
  | none => true
  | some (low, high) => decide (low ≤ e ∧ e ≤ high)

/-- The numeral for the given sign and digits. -/
def numeral
    (l : Layout)
    (negative : Bool)
    (d : Digits) : Numeral :=
  if l.writesOut d.exponent then
    match d.exponent with
    | .ofNat e =>
        let fraction := d.digits.drop (e + 1)
        { isNegative := negative
          whole := d.digits.take (e + 1) ++ List.replicate (e + 1 - d.digits.length) '0'
          fraction := if fraction.isEmpty && l.pointZero then ['0'] else fraction
          exponent := none }
    | .negSucc e =>
        { isNegative := negative
          whole := ['0']
          fraction := List.replicate e '0' ++ d.digits
          exponent := none }
  else
    { isNegative := negative
      whole := d.digits.take 1
      fraction := d.digits.drop 1
      exponent := some d.exponent }

end Layout

def toNumeral
    (l : Layout)
    (x : Number) : Numeral :=
  l.numeral x.isNegative (shortest l.tie x)

/-- A number in text; the sign of a not-a-number is not shown. -/
def format
    (l : Layout)
    (x : Number) : String :=
  if x.isNaN then
    "NaN"
  else if x.isFinite then
    String.ofList ((x.toNumeral l).chars l.plusExponent)
  else if x.isNegative then
    "-inf"
  else
    "inf"

def display
    (x : Number) : String :=
  x.format .plain

def dump
    (x : Number) : String :=
  x.format .detailed

end Number
end CellBridge
