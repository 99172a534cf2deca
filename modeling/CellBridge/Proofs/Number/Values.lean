import CellBridge.Number.Casting
import CellBridge.Proofs.Number.Patterns
import Mathlib.Algebra.Order.Field.Power
import Mathlib.Algebra.Order.Field.Rat
import Mathlib.Data.Rat.Cast.Order
import Mathlib.Order.Monotone.Basic

/-!
# The value of a number

A finite pattern stands for the rational number `value`, its mantissa times a power of two.  In
units of the least positive number a magnitude is the natural number `steps`, which grows with the
magnitude bits.  So the host's order, which compares patterns, is the order of the values
(`le_iff`, `lt_iff`), and its equality is equality of values (`ieeeEq_iff_value_eq`).  The integer
that a number is exactly is its value (`toInt?_eq_some_iff`).
-/

namespace CellBridge
namespace Number

section Defs

/-- The rational number that a finite pattern stands for. -/
def value
    (x : Number) : ℚ :=
  x.withSignOf x.mantissa * 2 ^ x.scale

def least : ℚ :=
  2 ^ (-1074 : Int)

/-- The magnitude with the given bits, in units of the least positive number. -/
def steps
    (m : Nat) : Nat :=
  if m / 2 ^ 52 = 0 then
    m % 2 ^ 52
  else
    (2 ^ 52 + m % 2 ^ 52) * 2 ^ (m / 2 ^ 52 - 1)

end Defs

section Steps

theorem least_pos :
    0 < least := by
  exact zpow_pos two_pos _

theorem two_zpow_sub
    (k : Nat) :
    (2 : ℚ) ^ ((k : Int) - 1074) = 2 ^ k * least := by
  rw [Int.sub_eq_add_neg, zpow_add₀ two_ne_zero, zpow_natCast, least]

theorem steps_zero :
    steps 0 = 0 := by
  rfl

/-- The next pattern is one step of the grid away, also where the exponent changes. -/
theorem steps_succ
    (m : Nat) :
    steps (m + 1) = steps m + 2 ^ (m / 2 ^ 52 - 1) := by
  have hbound : m % 2 ^ 52 < 2 ^ 52 := Nat.mod_lt _ (Nat.pow_pos Nat.two_pos)
  have hsplit : 2 ^ 52 * (m / 2 ^ 52) + m % 2 ^ 52 = m := Nat.div_add_mod m (2 ^ 52)
  unfold steps
  generalize m / 2 ^ 52 = e at hsplit ⊢
  generalize m % 2 ^ 52 = f at hbound hsplit ⊢
  subst hsplit
  by_cases hcarry : f + 1 < 2 ^ 52
  · -- the exponent stays
    rw [Nat.add_assoc, Nat.mul_add_div (Nat.pow_pos Nat.two_pos), Nat.mul_add_mod,
      Nat.div_eq_of_lt hcarry, Nat.mod_eq_of_lt hcarry, Nat.add_zero]
    split
    · rename_i he
      rw [he, Nat.zero_sub, Nat.pow_zero]
    · rw [← Nat.add_assoc, Nat.succ_mul]
  · -- the fraction is full and carries into the exponent
    have hfull : f + 1 = 2 ^ 52 := by omega
    rw [Nat.add_assoc, hfull, ← Nat.mul_succ, Nat.mul_div_cancel_left _ (Nat.pow_pos Nat.two_pos),
      Nat.mul_mod_right, if_neg (Nat.succ_ne_zero e), Nat.add_zero, Nat.succ_sub_one]
    cases e with
    | zero =>
        rw [if_pos rfl, Nat.zero_sub, Nat.pow_zero, Nat.mul_one, hfull]
    | succ e =>
        rw [if_neg (Nat.succ_ne_zero e), Nat.add_sub_cancel]
        calc 2 ^ 52 * 2 ^ (e + 1)
            = (2 ^ 52 + (f + 1)) * 2 ^ e := by
              rw [hfull, Nat.pow_succ]
              omega
          _ = (2 ^ 52 + f) * 2 ^ e + 2 ^ e := Nat.succ_mul _ _

theorem strictMono_steps :
    StrictMono steps := by
  refine strictMono_nat_of_lt_succ fun m => ?_
  rw [steps_succ]
  exact Nat.lt_add_of_pos_right (Nat.pow_pos Nat.two_pos)

end Steps

section Values

variable {x y : Number} {i : Int}

theorem withSignOf_mul
    (x : Number)
    (a b : Nat) :
    x.withSignOf (a * b) = x.withSignOf a * b := by
  rw [withSignOf, withSignOf]
  split
  · rw [Int.natCast_mul, Int.neg_mul]
  · rw [Int.natCast_mul]

theorem natAbs_withSignOf
    (x : Number)
    (a : Nat) :
    (x.withSignOf a).natAbs = a := by
  rw [withSignOf]
  split <;> omega

theorem steps_magnitudeBits
    (x : Number) :
    steps x.magnitudeBits = x.mantissa * 2 ^ (max x.exponentField 1 - 1) := by
  rw [steps, mantissa]
  show (if x.exponentField = 0 then x.fractionField else _) = _
  split
  · rename_i he
    rw [he]
    exact (Nat.mul_one _).symm
  · rename_i he
    rw [Nat.max_eq_left (Nat.one_le_iff_ne_zero.2 he)]
    rfl

/-- A value is a number of steps. -/
theorem value_eq_steps
    (x : Number) :
    x.value = x.withSignOf (steps x.magnitudeBits) * least := by
  have hscale : x.scale = ((max x.exponentField 1 - 1 : Nat) : Int) - 1074 := by
    rw [scale]
    omega
  rw [value, hscale, two_zpow_sub, ← mul_assoc, steps_magnitudeBits, withSignOf_mul, Int.cast_mul,
    Int.cast_natCast, Nat.cast_pow, Nat.cast_ofNat]

/-- A value is a quotient. -/
theorem value_eq_ratio
    (x : Number) :
    x.value = (x.withSignOf x.ratio.1 : ℚ) / x.ratio.2 := by
  have hscale : x.scale = (x.scale.toNat : Int) - ((-x.scale).toNat : Nat) := by omega
  rw [value, ratio]
  dsimp only
  rw [withSignOf_mul]
  conv_lhs => rw [hscale]
  rw [zpow_sub₀ two_ne_zero, zpow_natCast, zpow_natCast, ← mul_div_assoc, Nat.pow_eq, Nat.pow_eq]
  push_cast
  rfl

end Values

section Order

variable {x y : Number} {m n : Nat}

/-- A growing function of the magnitude keeps the order of signed magnitudes. -/
theorem withSignOf_le_iff
    {g : Nat → Nat}
    (hg : StrictMono g)
    (hzero : g 0 = 0) :
    x.withSignOf (g m) ≤ y.withSignOf (g n) ↔ x.withSignOf m ≤ y.withSignOf n := by
  have hmn : g m ≤ g n ↔ m ≤ n := hg.le_iff_le
  have hnm : g n ≤ g m ↔ n ≤ m := hg.le_iff_le
  have hm : g m ≤ g 0 ↔ m ≤ 0 := hg.le_iff_le
  have hn : g n ≤ g 0 ↔ n ≤ 0 := hg.le_iff_le
  rw [withSignOf, withSignOf, withSignOf, withSignOf]
  split <;> split <;> omega

theorem value_le_iff :
    x.value ≤ y.value ↔ x.rank ≤ y.rank := by
  rw [value_eq_steps, value_eq_steps, mul_le_mul_iff_left₀ least_pos, Int.cast_le, rank, rank]
  exact withSignOf_le_iff strictMono_steps steps_zero

theorem value_lt_iff :
    x.value < y.value ↔ x.rank < y.rank := by
  rw [← not_le, ← Int.not_le, value_le_iff]

theorem value_eq_iff :
    x.value = y.value ↔ x.rank = y.rank := by
  rw [le_antisymm_iff, value_le_iff, value_le_iff, ← le_antisymm_iff]

theorem not_isNaN_of_isFinite
    (h : x.isFinite = true) :
    x.isNaN = false := by
  have hlt := of_decide_eq_true h
  exact decide_eq_false (Nat.not_lt.2 (Nat.le_of_lt hlt))

/-- On finite numbers the host's `<=` compares the values. -/
theorem le_iff
    (hx : x.isFinite = true)
    (hy : y.isFinite = true) :
    x.le y = true ↔ x.value ≤ y.value := by
  rw [le, not_isNaN_of_isFinite hx, not_isNaN_of_isFinite hy, value_le_iff]
  exact decide_eq_true_iff

/-- On finite numbers the host's `<` compares the values. -/
theorem lt_iff
    (hx : x.isFinite = true)
    (hy : y.isFinite = true) :
    x.lt y = true ↔ x.value < y.value := by
  rw [lt, not_isNaN_of_isFinite hx, not_isNaN_of_isFinite hy, value_lt_iff]
  exact decide_eq_true_iff

/-- Numbers of the same rank are the same, apart from the two zeros. -/
theorem rank_eq_iff :
    x.rank = y.rank ↔ x = y ∨ x.isZero = true ∧ y.isZero = true := by
  rw [eq_iff, isZero, isZero, decide_eq_true_iff, decide_eq_true_iff, rank, rank, withSignOf,
    withSignOf]
  cases x.isNegative <;> cases y.isNegative <;> simp <;> omega

/-- On finite numbers the host's `==` is equality of the values. -/
theorem ieeeEq_iff_value_eq
    (hx : x.isFinite = true)
    (hy : y.isFinite = true) :
    x.ieeeEq y = true ↔ x.value = y.value := by
  rw [ieeeEq, not_isNaN_of_isFinite hx, not_isNaN_of_isFinite hy, value_eq_iff, rank_eq_iff]
  simp

end Order

section Integers

variable {x : Number} {i : Int}

theorem value_eq_int_iff :
    x.value = i ↔ x.withSignOf x.ratio.1 = i * x.ratio.2 := by
  have hpos : (x.ratio.2 : ℚ) ≠ 0 := Nat.cast_ne_zero.2 (Nat.ne_of_gt (Nat.pow_pos Nat.two_pos))
  rw [value_eq_ratio, div_eq_iff hpos]
  exact_mod_cast Iff.rfl

theorem toInt?_eq
    (x : Number) :
    x.toInt? =
      if x.isWhole then
        some (x.withSignOf (x.ratio.1 / x.ratio.2))
      else
        none := by
  rw [toInt?, isWhole, ratio]
  cases x.isFinite with
  | false =>
      rfl
  | true =>
      cases x.scale with
      | ofNat k =>
          simp [Nat.mod_one]
      | negSucc k =>
          simp [Int.neg_negSucc]

/-- A whole number is the quotient that its ratio is. -/
theorem value_of_isWhole
    (h : x.isWhole = true) :
    x.value = (x.withSignOf (x.ratio.1 / x.ratio.2) : Int) := by
  have hdvd : x.ratio.2 ∣ x.ratio.1 :=
    Nat.dvd_of_mod_eq_zero (beq_iff_eq.1 (Bool.and_eq_true_iff.1 h).2)
  rw [value_eq_int_iff, ← withSignOf_mul, Nat.div_mul_cancel hdvd]

/-- The numbers without a fractional part are those with an integer as value. -/
theorem isWhole_iff :
    x.isWhole = true ↔ x.isFinite = true ∧ ∃ i : Int, x.value = i := by
  constructor
  · intro h
    exact ⟨(Bool.and_eq_true_iff.1 h).1, _, value_of_isWhole h⟩
  · rintro ⟨hfinite, i, hi⟩
    have hdvd : x.ratio.2 ∣ x.ratio.1 := by
      have habs := congrArg Int.natAbs (value_eq_int_iff.1 hi)
      rw [natAbs_withSignOf, Int.natAbs_mul, Int.natAbs_natCast] at habs
      exact Dvd.intro_left _ habs.symm
    rw [isWhole, hfinite, Bool.true_and, beq_iff_eq]
    exact Nat.mod_eq_zero_of_dvd hdvd

/-- The integer that a number is exactly is its value. -/
theorem toInt?_eq_some_iff :
    x.toInt? = some i ↔ x.isFinite = true ∧ x.value = i := by
  rw [toInt?_eq]
  constructor
  · intro h
    split at h
    · rename_i hwhole
      cases h
      exact ⟨(isWhole_iff.1 hwhole).1, value_of_isWhole hwhole⟩
    · cases h
  · rintro ⟨hfinite, hi⟩
    have hwhole : x.isWhole = true := isWhole_iff.2 ⟨hfinite, i, hi⟩
    rw [if_pos hwhole, Option.some_inj]
    exact_mod_cast (value_of_isWhole hwhole).symm.trans hi

/-- A whole number between the limits is cast to the integer that it is. -/
theorem saturated_eq
    {low high : Int}
    (h : x.toInt? = some i)
    (hlow : low ≤ i)
    (hhigh : i ≤ high) :
    x.saturated low high = i := by
  have hfinite := (toInt?_eq_some_iff.1 h).1
  rw [toInt?_eq] at h
  split at h
  · cases h
    rw [saturated, not_isNaN_of_isFinite hfinite, hfinite, if_neg Bool.false_ne_true, if_pos rfl,
      min_eq_right hhigh, max_eq_right hlow]
  · cases h

end Integers

end Number
end CellBridge
