import CellBridge.Conversion.Scalar
import CellBridge.Proofs.Number.Integers

/-!
# Which numbers the integer types take

A reader of an integer type compares the number with the limits as numbers and casts what passes.
What comes out is the integer that the number is, if that lies between the limits:
`integerWithin?`.  For the shorter types the limits are numbers themselves
(`readInteger_number`).  The upper limit of sixty-four bits is not; it is rounded up, and the strict
comparison makes up for that (`readLong_number`).
-/

namespace CellBridge
namespace Scalar

section Defs

/-- The integer that a numeric value is, if it lies between the limits. -/
def integerWithin?
    (low high : Int)
    (n : Number) : Option Int :=
  n.toInt?.filter fun i => decide (low ≤ i ∧ i ≤ high)

end Defs

section Limits

variable {low high i : Int} {n : Number}

theorem integerWithin?_eq_some_iff :
    integerWithin? low high n = some i ↔
      n.isFinite = true ∧ n.value = i ∧ low ≤ i ∧ i ≤ high := by
  rw [integerWithin?, Option.filter_eq_some_iff, Number.toInt?_eq_some_iff, decide_eq_true_iff,
    and_assoc]

theorem saturated_of_integerWithin?
    (h : integerWithin? low high n = some i) :
    n.saturated low high = i := by
  rw [integerWithin?, Option.filter_eq_some_iff, decide_eq_true_iff] at h
  exact Number.saturated_eq h.1 h.2.1 h.2.2

/-- A whole number that keeps to the limits is an integer between them. -/
theorem isSome_integerWithin?
    {inRange : Bool}
    (h : ∀ i : Int, n.isFinite = true → n.value = i → (inRange = true ↔ low ≤ i ∧ i ≤ high)) :
    (n.isWhole && inRange) = (integerWithin? low high n).isSome := by
  rw [Bool.eq_iff_iff, Bool.and_eq_true_iff, Number.isWhole_iff, Option.isSome_iff_exists]
  constructor
  · rintro ⟨⟨hfinite, i, hi⟩, hrange⟩
    exact ⟨i, integerWithin?_eq_some_iff.2 ⟨hfinite, hi, (h i hfinite hi).1 hrange⟩⟩
  · rintro ⟨i, hwithin⟩
    obtain ⟨hfinite, hi, hrange⟩ := integerWithin?_eq_some_iff.1 hwithin
    exact ⟨⟨hfinite, i, hi⟩, (h i hfinite hi).2 hrange⟩

/-- What passes the test is cast to the integer that it is. -/
theorem ite_saturated
    {passes : Bool}
    (h : passes = (integerWithin? low high n).isSome)
    {α : Type}
    (make : Int → α)
    (stop : α) :
    (if passes then make (n.saturated low high) else stop) =
      match integerWithin? low high n with
      | some i => make i
      | none => stop := by
  rw [h]
  cases hwithin : integerWithin? low high n with
  | none =>
      rfl
  | some i =>
      rw [saturated_of_integerWithin? hwithin]
      rfl

end Limits

section Readers

variable {low high : Int}

theorem isFinite_ofInt
    {i : Int}
    (h : i.natAbs ≤ 2 ^ 53) :
    (Number.ofInt i).isFinite = true := by
  exact (Number.toInt?_eq_some_iff.1 (Number.toInt?_ofInt h)).1

theorem value_ofInt
    {i : Int}
    (h : i.natAbs ≤ 2 ^ 53) :
    (Number.ofInt i).value = i := by
  exact (Number.toInt?_eq_some_iff.1 (Number.toInt?_ofInt h)).2

/-- A reader whose limits are numbers takes the integers between them. -/
theorem readInteger_number
    (target : String)
    (make : Int → Action Object)
    (hlow : low.natAbs ≤ 2 ^ 53)
    (hhigh : high.natAbs ≤ 2 ^ 53)
    (n : Number) :
    readInteger target low high make (.number n) =
      match integerWithin? low high n with
      | some i => make i
      | none => Action.fail (notInteger target n) := by
  refine ite_saturated ?_ make _
  rw [Bool.and_assoc]
  refine isSome_integerWithin? fun i hfinite hi => ?_
  rw [Bool.and_eq_true_iff, Number.le_iff (isFinite_ofInt hlow) hfinite,
    Number.le_iff hfinite (isFinite_ofInt hhigh), value_ofInt hlow, value_ofInt hhigh, hi,
    Int.cast_le, Int.cast_le]

theorem readByte_number
    (n : Number) :
    readByte (.number n) =
      match integerWithin? (-128) 127 n with
      | some i => Action.create .byte (.byte (Int8.ofInt i))
      | none => Action.fail (notInteger "byte" n) := by
  exact readInteger_number "byte" _ (by decide) (by decide) n

theorem readShort_number
    (n : Number) :
    readShort (.number n) =
      match integerWithin? (-32768) 32767 n with
      | some i => Action.create .short (.short (Int16.ofInt i))
      | none => Action.fail (notInteger "short" n) := by
  exact readInteger_number "short" _ (by decide) (by decide) n

theorem readInt_number
    (n : Number) :
    readInt (.number n) =
      match integerWithin? (-2147483648) 2147483647 n with
      | some i => Action.create .int (.int (Int32.ofInt i))
      | none => Action.fail (notInteger "int" n) := by
  exact readInteger_number "int" _ (by decide) (by decide) n

/-- The lower limit of sixty-four bits is a number. -/
theorem lowest_long :
    (Number.ofInt (-9223372036854775808)).toInt? = some (-9223372036854775808) := by
  decide +kernel

/-- The upper limit of sixty-four bits is rounded up. -/
theorem highest_long :
    (Number.ofInt 9223372036854775807).toInt? = some 9223372036854775808 := by
  decide +kernel

/-- The reader of sixty-four bits takes the integers of this length. -/
theorem readLong_number
    (n : Number) :
    readLong (.number n) =
      match integerWithin? (-9223372036854775808) 9223372036854775807 n with
      | some i => Action.create .long (.long (Int64.ofInt i))
      | none => Action.fail (notInteger "long" n) := by
  refine ite_saturated ?_ (fun i => Action.create .long (.long (Int64.ofInt i))) _
  obtain ⟨hlow, hlowest⟩ := Number.toInt?_eq_some_iff.1 lowest_long
  obtain ⟨hhigh, hhighest⟩ := Number.toInt?_eq_some_iff.1 highest_long
  rw [Bool.and_assoc]
  refine isSome_integerWithin? fun i hfinite hi => ?_
  rw [Bool.and_eq_true_iff, Number.le_iff hlow hfinite, Number.lt_iff hfinite hhigh, hlowest,
    hhighest, hi, Int.cast_le, Int.cast_lt]
  omega

end Readers

end Scalar
end CellBridge
