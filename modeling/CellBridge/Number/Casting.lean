import CellBridge.Number.Rounding

/-!
# Comparing numbers and casting them to integers

* `le` and `lt` are the order of the host: a not-a-number is not comparable, and the two zeros have
  the same place;
* `isWhole` holds of the numbers whose fractional part is zero;
* `saturated` is the cast to an integer type: the fraction is cut off, what lies outside the type
  becomes the nearer limit, and a not-a-number becomes zero.
-/

namespace CellBridge
namespace Number

section Order

/-- The place of a number among all numbers. -/
def rank
    (x : Number) : Int :=
  x.withSignOf x.magnitudeBits

/-- The host's `x <= y`. -/
def le
    (x y : Number) : Bool :=
  !x.isNaN && !y.isNaN && decide (x.rank ≤ y.rank)

/-- The host's `x < y`. -/
def lt
    (x y : Number) : Bool :=
  !x.isNaN && !y.isNaN && decide (x.rank < y.rank)

end Order

section Casts

/-- Is the fractional part zero?  Infinities and not-a-numbers have none. -/
def isWhole
    (x : Number) : Bool :=
  x.isFinite && x.ratio.1 % x.ratio.2 == 0

/-- The cast to the integers between the limits. -/
def saturated
    (low high : Int)
    (x : Number) : Int :=
  if x.isNaN then
    0
  else if x.isFinite then
    max low (min high (x.withSignOf (x.ratio.1 / x.ratio.2)))
  else if x.isNegative then
    low
  else
    high

end Casts

end Number
end CellBridge
