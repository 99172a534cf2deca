import CellBridge.Number.Rounding

/-!
# Shortest digits

`shortest` selects the decimal that stands for a number in text: among all decimals that round
to the number, one with the fewest significant digits, and of two such the nearer.  The search
tries one digit, then two, and so on.  On each decimal grid only the two grid points around the
value can read back with so few digits, so only those are tested.
-/

namespace CellBridge
namespace Number

/-- Which of two equally near decimals is taken. -/
inductive Tie where
  | up
  | even
deriving DecidableEq

/-- Significant digits, without trailing zeros, and the exponent of the first of them. -/
structure Digits where
  digits : List Char
  exponent : Int
deriving DecidableEq

section Search

def digitsOf
    (n : Nat) : List Char :=
  Nat.toDigits 10 n

/-- `c * 10 ^ g` as a numerator and a denominator. -/
def decimalRatio
    (c : Nat)
    (g : Int) : Nat × Nat :=
  (c * Nat.pow 10 g.toNat, Nat.pow 10 (-g).toNat)

/-- Does `c * 10 ^ g` round to the magnitude of `x`? -/
def readsBack
    (x : Number)
    (c : Nat)
    (g : Int) : Bool :=
  nearestMagnitude (decimalRatio c g).1 (decimalRatio c g).2 == x.magnitudeBits

/-- The least `k` with `num / den < 10 ^ k`, for a positive quotient. -/
def decimalExponent
    (num den : Nat) : Int :=
  if den ≤ num then
    (digitsOf (num / den)).length
  else
    1 - ((digitsOf ((den - 1) / num)).length : Int)

/-- The point of the grid `10 ^ g` next to `num / den` that reads back, if there is one. -/
def gridPoint?
    (tie : Tie)
    (x : Number)
    (g : Int) : Option Nat :=
  let num := x.ratio.1 * Nat.pow 10 (-g).toNat
  let den := x.ratio.2 * Nat.pow 10 g.toNat
  let low := num / den
  match readsBack x low g, readsBack x (low + 1) g with
  | false, false => none
  | true, false => some low
  | false, true => some (low + 1)
  | true, true =>
      match compare (2 * (num % den)) den, tie with
      | .lt, _ => some low
      | .gt, _ => some (low + 1)
      | .eq, .up => some (low + 1)
      | .eq, .even => some (if low % 2 = 0 then low else low + 1)

/-- The digits of `c * 10 ^ g`. -/
def Digits.ofScaled
    (c : Nat)
    (g : Int) : Digits :=
  let ds := digitsOf c
  { digits := (ds.reverse.dropWhile (· == '0')).reverse
    exponent := g + ds.length - 1 }

/-- The exact value of a finite number in decimal. -/
def exactDigits
    (x : Number) : Digits :=
  match x.scale with
  | .ofNat k => Digits.ofScaled (x.mantissa * Nat.pow 2 k) 0
  | .negSucc k => Digits.ofScaled (x.mantissa * Nat.pow 5 (k + 1)) (.negSucc k)

/-- The first grid with a point that reads back, among those of `n` digits and the next ones. -/
def search
    (tie : Tie)
    (x : Number)
    (k : Int)
    (n : Nat) : Nat → Digits
  | 0 => exactDigits x
  | left + 1 =>
      match gridPoint? tie x (k - n) with
      | some c => Digits.ofScaled c (k - n)
      | none => search tie x k (n + 1) left

/-- The shortest digits of a finite number; a zero has the one digit zero. -/
def shortest
    (tie : Tie)
    (x : Number) : Digits :=
  if x.isZero then
    { digits := ['0'], exponent := 0 }
  else
    search tie x (decimalExponent x.ratio.1 x.ratio.2) 1 17

end Search

end Number
end CellBridge
