import CellBridge.Number.Basic

/-!
# Rounding to a number

`ofRatio` is the number nearest to a quotient of natural numbers, a tie going to the even
neighbour and a quotient beyond the range to infinity.  Integers, products and quotients of
numbers are rounded by it.

The grid of numbers near a positive value `v` has the step `2 ^ e`, where `e` is the least
exponent with `v < 2 ^ (e + 53)` that a number can have.  On that grid the value is rounded to
a natural number of steps, and the magnitude bits are the steps counted from zero: a carry into
the next exponent is the ordinary carry of the sum.
-/

namespace CellBridge
namespace Number

section Grid

/-- The quotient rounded to the nearest natural number, a half to the even neighbour. -/
def roundDiv
    (num den : Nat) : Nat :=
  if 2 * (num % den) < den ∨
      (2 * (num % den) = den ∧ num / den % 2 = 0) then
    num / den
  else
    num / den + 1

/-- `num / (den * 2 ^ e)`, as a numerator and a denominator. -/
def shiftedRatio
    (num den : Nat)
    (e : Int) : Nat × Nat :=
  (num * Nat.pow 2 (-e).toNat, den * Nat.pow 2 e.toNat)

/-- The exponent of the grid on which `num / den` is rounded. -/
def gridExponent
    (num den : Nat) : Int :=
  let low : Int := (Nat.log2 num : Int) - Nat.log2 den - 53
  let (n, d) := shiftedRatio num den low
  max (-1074) (if n < d * Nat.pow 2 53 then low else low + 1)

/-- The magnitude bits of the number nearest to `num / den`. -/
def nearestMagnitude
    (num den : Nat) : Nat :=
  if num = 0 then
    0
  else
    let e := gridExponent num den
    let (n, d) := shiftedRatio num den e
    min infinityBits ((e + 1074).toNat * Nat.pow 2 52 + roundDiv n d)

end Grid

section Operations

/-- The number nearest to `num / den`, with the given sign. -/
def ofRatio
    (negative : Bool)
    (num den : Nat) : Number :=
  ofMagnitude negative (nearestMagnitude num den)

/-- The number nearest to an integer. -/
def ofInt
    (n : Int) : Number :=
  ofRatio (decide (n < 0)) n.natAbs 1

/-- The magnitude of a finite number as a numerator and a denominator. -/
def ratio
    (x : Number) : Nat × Nat :=
  (x.mantissa * Nat.pow 2 x.scale.toNat, Nat.pow 2 (-x.scale).toNat)

/-- The rounded product of the magnitudes of two finite numbers. -/
def mulMagnitude
    (x y : Number) : Number :=
  ofRatio false (x.ratio.1 * y.ratio.1) (x.ratio.2 * y.ratio.2)

/-- The rounded quotient of the magnitudes of two finite numbers, the second not zero. -/
def divMagnitude
    (x y : Number) : Number :=
  ofRatio false (x.ratio.1 * y.ratio.2) (x.ratio.2 * y.ratio.1)

/-- The same magnitude with the given sign. -/
def withSign
    (negative : Bool)
    (x : Number) : Number :=
  ofMagnitude negative x.magnitudeBits

end Operations

end Number
end CellBridge
