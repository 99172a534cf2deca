/-!
# Host numbers

The host stores every number as a 64-bit binary floating point pattern.  This module keeps the
pattern itself and reads it exactly:

* `mantissa` and `scale` give the magnitude of a finite number as `mantissa * 2 ^ scale`;
* `toInt?` is the integer that a number is, if it is one;
* `ieeeEq` is the comparison of the host, under which the two zeros are equal and a
  not-a-number differs from everything, itself included.

Equality of patterns is ordinary equality of `Number`.
-/

namespace CellBridge

/-- A 64-bit binary floating point number, given by its pattern. -/
structure Number where
  bits : UInt64
deriving DecidableEq, Inhabited

namespace Number

section Fields

/-- The sign bit, also of zeros and of patterns that are not numbers. -/
def isNegative
    (x : Number) : Bool :=
  decide (Nat.pow 2 63 ≤ x.bits.toNat)

/-- The pattern without its sign bit. -/
def magnitudeBits
    (x : Number) : Nat :=
  x.bits.toNat % Nat.pow 2 63

/-- The eleven exponent bits. -/
def exponentField
    (x : Number) : Nat :=
  x.magnitudeBits / Nat.pow 2 52

/-- The fifty-two fraction bits. -/
def fractionField
    (x : Number) : Nat :=
  x.magnitudeBits % Nat.pow 2 52

/-- The magnitude bits of infinity; every finite magnitude lies below. -/
def infinityBits : Nat :=
  2047 * Nat.pow 2 52

/-- The number with the given sign and magnitude bits. -/
def ofMagnitude
    (negative : Bool)
    (magnitude : Nat) : Number :=
  ⟨UInt64.ofNat ((if negative then Nat.pow 2 63 else 0) + magnitude)⟩

/-- Neither infinite nor a not-a-number. -/
def isFinite
    (x : Number) : Bool :=
  decide (x.magnitudeBits < infinityBits)

/-- A pattern that stands for no number. -/
def isNaN
    (x : Number) : Bool :=
  decide (infinityBits < x.magnitudeBits)

/-- One of the two zeros. -/
def isZero
    (x : Number) : Bool :=
  decide (x.magnitudeBits = 0)

def zero : Number :=
  ⟨0⟩

end Fields

section Values

/-- The integral factor of a finite magnitude; patterns with exponent zero have no hidden bit. -/
def mantissa
    (x : Number) : Nat :=
  if x.exponentField = 0 then
    x.fractionField
  else
    Nat.pow 2 52 + x.fractionField

/-- The power of two that scales the mantissa. -/
def scale
    (x : Number) : Int :=
  (max x.exponentField 1 : Nat) - 1075

/-- A natural number with the sign of `x`. -/
def withSignOf
    (x : Number)
    (n : Nat) : Int :=
  if x.isNegative then -(n : Int) else n

/-- The integer that `x` is exactly; none for fractions, infinities and not-a-numbers. -/
def toInt?
    (x : Number) : Option Int :=
  if x.isFinite then
    match x.scale with
    | .ofNat k =>
        some (x.withSignOf (x.mantissa * Nat.pow 2 k))
    | .negSucc k =>
        if x.mantissa % Nat.pow 2 (k + 1) = 0 then
          some (x.withSignOf (x.mantissa / Nat.pow 2 (k + 1)))
        else
          none
  else
    none

/-- Equality as the host compares numbers. -/
def ieeeEq
    (x y : Number) : Bool :=
  !x.isNaN && !y.isNaN && (x == y || (x.isZero && y.isZero))

end Values

end Number

end CellBridge
