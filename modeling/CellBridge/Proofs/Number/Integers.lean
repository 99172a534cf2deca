import CellBridge.Proofs.Number.Range
import CellBridge.Proofs.Number.Values
import Mathlib.Tactic.Linarith
import Mathlib.Tactic.Ring

/-!
# Integers as numbers

Rounding keeps what is a number already.  The grid of a quotient is the only one on which the steps
below it take fifty-three bits, or fewer on the finest grid (`gridExponent_eq`).  The grid of a
number is of that kind, so that a count of its steps is rounded to itself
(`nearestMagnitude_count`).

So an integer comes back from the number nearest to it if it is some number exactly
(`toInt?_ofInt_of_value`).  These integers are the multiples of a power of two with a factor of
fifty-three bits (`exists_value_eq_iff`), the integers of at most that length among them
(`toInt?_ofInt`).
-/

namespace CellBridge
namespace Number

section Grid

variable {num den m : Nat} {e : Int}

theorem shiftedRatio_snd_pos
    (hden : 0 < den) :
    0 < (shiftedRatio num den e).2 := by
  exact Nat.mul_pos hden (Nat.pow_pos Nat.two_pos)

/-- The shifted quotient counts the steps of the grid. -/
theorem shiftedRatio_div
    (num den : Nat)
    (e : Int) :
    ((shiftedRatio num den e).1 : ℚ) / (shiftedRatio num den e).2 = num / den / 2 ^ e := by
  have he : e = (e.toNat : Int) - ((-e).toNat : Nat) := by omega
  conv_rhs => rw [he]
  rw [zpow_sub₀ two_ne_zero, zpow_natCast, zpow_natCast]
  simp only [shiftedRatio, Nat.pow_eq]
  push_cast
  rw [div_div_eq_mul_div, div_mul_eq_mul_div, div_div]

/-- The steps below a quotient take fifty-three bits at most. -/
theorem ratio_lt_gridExponent
    (num : Nat)
    (hden : 0 < den) :
    (num : ℚ) / den < 2 ^ 53 * 2 ^ gridExponent num den := by
  have hsteps := shiftedRatio_gridExponent num hden
  have hpos : (0 : ℚ) < (shiftedRatio num den (gridExponent num den)).2 :=
    Nat.cast_pos.2 (shiftedRatio_snd_pos hden)
  rw [← div_lt_iff₀ (zpow_pos two_pos _), ← shiftedRatio_div, div_lt_iff₀ hpos, mul_comm]
  exact_mod_cast hsteps

/-- A quotient is at least the power of two that the lengths of its parts tell. -/
theorem two_zpow_le_ratio
    (hnum : num ≠ 0)
    (hden : 0 < den) :
    (2 : ℚ) ^ ((num.log2 : Int) - den.log2 - 1) ≤ num / den := by
  have hlow : (2 : ℚ) ^ num.log2 ≤ num := by
    exact_mod_cast Nat.log2_self_le hnum
  have hhigh : (den : ℚ) ≤ 2 ^ (den.log2 + 1) := by
    exact_mod_cast Nat.le_of_lt Nat.lt_log2_self
  rw [Int.sub_sub, zpow_sub₀ two_ne_zero, zpow_natCast]
  exact div_le_div₀ (Nat.cast_nonneg _) hlow (Nat.cast_pos.2 hden) (by exact_mod_cast hhigh)

/-- They take fifty-three bits at least, unless the grid is the finest one. -/
theorem gridExponent_le_ratio
    (hnum : num ≠ 0)
    (hden : 0 < den) :
    gridExponent num den = -1074 ∨ (2 : ℚ) ^ 52 * 2 ^ gridExponent num den ≤ num / den := by
  have hratio := two_zpow_le_ratio hnum hden
  rw [gridExponent]
  dsimp only
  generalize hlow : (num.log2 : Int) - den.log2 - 53 = low
  split
  · rcases le_total low (-1074) with hfinest | hcoarse
    · exact Or.inl (max_eq_left hfinest)
    · refine Or.inr ?_
      rw [max_eq_right hcoarse, ← zpow_natCast, ← zpow_add₀ two_ne_zero]
      convert hratio using 2
      omega
  · rename_i hsteps
    rcases le_total (low + 1) (-1074) with hfinest | hcoarse
    · exact Or.inl (max_eq_left hfinest)
    · refine Or.inr ?_
      have hpos : (0 : ℚ) < (shiftedRatio num den low).2 :=
        Nat.cast_pos.2 (shiftedRatio_snd_pos hden)
      have hle : (2 : ℚ) ^ 53 ≤ num / den / 2 ^ low := by
        rw [← shiftedRatio_div, le_div_iff₀ hpos, mul_comm]
        exact_mod_cast Nat.not_lt.1 hsteps
      rw [le_div_iff₀ (zpow_pos two_pos _)] at hle
      rw [max_eq_right hcoarse]
      refine le_trans (le_of_eq ?_) hle
      rw [zpow_add_one₀ two_ne_zero]
      ring

theorem exponent_le_of_bounds
    {q : ℚ}
    {e e' : Int}
    (hhigh : q < 2 ^ 53 * 2 ^ e)
    (hlow : 2 ^ 52 * 2 ^ e' ≤ q) :
    e' ≤ e := by
  by_contra hlt
  have hpow : (2 : ℚ) ^ (e + 1) ≤ 2 ^ e' := zpow_le_zpow_right₀ one_le_two (Int.not_le.1 hlt)
  rw [zpow_add_one₀ two_ne_zero] at hpow
  linarith

/-- No other grid has these bounds. -/
theorem gridExponent_eq
    (hnum : num ≠ 0)
    (hden : 0 < den)
    (hfinest : -1074 ≤ e)
    (hhigh : (num : ℚ) / den < 2 ^ 53 * 2 ^ e)
    (hlow : e = -1074 ∨ (2 : ℚ) ^ 52 * 2 ^ e ≤ num / den) :
    gridExponent num den = e := by
  have hhigh' := ratio_lt_gridExponent num hden
  have hfinest' : -1074 ≤ gridExponent num den := le_max_left _ _
  apply le_antisymm
  · rcases gridExponent_le_ratio hnum hden with heq | hlow'
    · omega
    · exact exponent_le_of_bounds hhigh hlow'
  · rcases hlow with rfl | hlow
    · exact hfinest'
    · exact exponent_le_of_bounds hhigh' hlow

end Grid

section Patterns

variable {num den m c k : Nat}

theorem roundDiv_mul
    (m : Nat)
    (hden : 0 < den) :
    roundDiv (m * den) den = m := by
  simp [roundDiv, hden]

/-- A pattern is a count of at most fifty-three bits, added to the exponent of its grid. -/
theorem exists_count
    (m : Nat) :
    ∃ c k : Nat, c < 2 ^ 53 ∧ (k = 0 ∨ 2 ^ 52 ≤ c) ∧ m = k * 2 ^ 52 + c := by
  by_cases hm : m < 2 ^ 52
  · exact ⟨m, 0, by omega, Or.inl rfl, by omega⟩
  · exact ⟨2 ^ 52 + m % 2 ^ 52, m / 2 ^ 52 - 1, by omega, Or.inr (by omega), by omega⟩

/-- It stands for the count, in steps of its grid. -/
theorem steps_count
    (hc : c < 2 ^ 53)
    (hk : k = 0 ∨ 2 ^ 52 ≤ c) :
    steps (k * 2 ^ 52 + c) = c * 2 ^ k := by
  rw [steps]
  split
  · rename_i hsmall
    obtain rfl : k = 0 := by omega
    rw [Nat.zero_mul, Nat.zero_add] at hsmall ⊢
    rw [Nat.pow_zero, Nat.mul_one]
    omega
  · by_cases hlarge : 2 ^ 52 ≤ c
    · rw [show (k * 2 ^ 52 + c) / 2 ^ 52 - 1 = k by omega]
      congr 1
      omega
    · omega

/-- A count of steps is rounded to itself. -/
theorem nearestMagnitude_count
    (hc : c < 2 ^ 53)
    (hk : k = 0 ∨ 2 ^ 52 ≤ c)
    (hfinite : k * 2 ^ 52 + c < infinityBits)
    (hden : 0 < den)
    (h : (num : ℚ) / den = c * (2 ^ k * least)) :
    nearestMagnitude num den = k * 2 ^ 52 + c := by
  have hunit : (0 : ℚ) < 2 ^ ((k : Int) - 1074) := zpow_pos two_pos _
  rw [← two_zpow_sub] at h
  by_cases hnum : num = 0
  · have hzero : c = 0 := by
      simpa [hnum, hunit.ne'] using h.symm
    have hk : k = 0 := by omega
    simp [nearestMagnitude, hnum, hzero, hk]
  · have hgrid : gridExponent num den = (k : Int) - 1074 := by
      refine gridExponent_eq hnum hden (by omega) ?_ ?_
      · rw [h]
        exact mul_lt_mul_of_pos_right (by exact_mod_cast hc) hunit
      · rcases hk with rfl | hk
        · exact Or.inl rfl
        · rw [h]
          exact Or.inr (mul_le_mul_of_nonneg_right (by exact_mod_cast hk) hunit.le)
    have hsteps : (shiftedRatio num den (k - 1074)).1 =
        c * (shiftedRatio num den (k - 1074)).2 := by
      have hpos : ((shiftedRatio num den (k - 1074)).2 : ℚ) ≠ 0 :=
        Nat.cast_ne_zero.2 (Nat.ne_of_gt (shiftedRatio_snd_pos hden))
      have hcount := shiftedRatio_div num den (k - 1074)
      rw [h, mul_div_cancel_right₀ _ hunit.ne', div_eq_iff hpos] at hcount
      exact_mod_cast hcount
    rw [nearestMagnitude, if_neg hnum, hgrid]
    dsimp only
    rw [hsteps, roundDiv_mul c (shiftedRatio_snd_pos hden), Int.sub_add_cancel, Int.toNat_natCast,
      Nat.pow_eq, Nat.min_eq_right (Nat.le_of_lt hfinite)]

end Patterns

section Integers

variable {x : Number} {i : Int} {m c k b : Nat}

/-- The integer with the given sign and magnitude. -/
def signed
    (negative : Bool)
    (a : Nat) : Int :=
  if negative then -(a : Int) else a

theorem signed_natAbs
    (i : Int) :
    signed (decide (i < 0)) i.natAbs = i := by
  rw [signed]
  split
  · rename_i h
    have hneg := of_decide_eq_true h
    omega
  · rename_i h
    have hneg : ¬i < 0 := fun hlt => h (decide_eq_true hlt)
    omega

theorem abs_value
    (x : Number) :
    |x.value| = steps x.magnitudeBits * least := by
  rw [value_eq_steps, abs_mul, abs_of_pos least_pos, ← Int.cast_abs, Int.abs_eq_natAbs,
    natAbs_withSignOf, Int.cast_natCast]

theorem abs_value_eq
    (h : x.value = i) :
    (i.natAbs : ℚ) = steps x.magnitudeBits * least := by
  rw [← abs_value, h, Nat.cast_natAbs, Int.cast_abs]

theorem value_ofMagnitude
    (negative : Bool)
    (hm : m < infinityBits) :
    (ofMagnitude negative m).value = signed negative (steps m) * least := by
  rw [value_eq_steps, magnitudeBits_ofMagnitude negative hm, withSignOf,
    isNegative_ofMagnitude negative hm, signed]

/-- An integer that is a count of steps comes back from its number. -/
theorem toInt?_ofInt_count
    (hc : c < 2 ^ 53)
    (hk : k = 0 ∨ 2 ^ 52 ≤ c)
    (hfinite : k * 2 ^ 52 + c < infinityBits)
    (h : (i.natAbs : ℚ) = c * (2 ^ k * least)) :
    (ofInt i).toInt? = some i := by
  have hnearest : nearestMagnitude i.natAbs 1 = k * 2 ^ 52 + c :=
    nearestMagnitude_count hc hk hfinite Nat.one_pos (by rw [← h, Nat.cast_one, div_one])
  have hsteps : (steps (k * 2 ^ 52 + c) : ℚ) * least = i.natAbs := by
    rw [steps_count hc hk, h, Nat.cast_mul, Nat.cast_pow, Nat.cast_ofNat, mul_assoc]
  rw [toInt?_eq_some_iff, ofInt, ofRatio, hnearest]
  constructor
  · rw [isFinite, magnitudeBits_ofMagnitude _ hfinite]
    exact decide_eq_true hfinite
  · rw [value_ofMagnitude _ hfinite]
    conv_rhs => rw [← signed_natAbs i]
    generalize k * 2 ^ 52 + c = m at hsteps
    cases decide (i < 0) with
    | true =>
        rw [signed, signed, if_pos rfl, if_pos rfl, Int.cast_neg, Int.cast_neg, neg_mul,
          Int.cast_natCast, Int.cast_natCast, hsteps]
    | false =>
        rw [signed, signed, if_neg Bool.false_ne_true, if_neg Bool.false_ne_true,
          Int.cast_natCast, Int.cast_natCast, hsteps]

/-- An integer that some number is exactly comes back from the number nearest to it. -/
theorem toInt?_ofInt_of_value
    (hfinite : x.isFinite = true)
    (h : x.value = i) :
    (ofInt i).toInt? = some i := by
  obtain ⟨c, k, hc, hk, hm⟩ := exists_count x.magnitudeBits
  refine toInt?_ofInt_count hc hk (hm ▸ of_decide_eq_true hfinite) ?_
  rw [abs_value_eq h, hm, steps_count hc hk, Nat.cast_mul, Nat.cast_pow, Nat.cast_ofNat, mul_assoc]

/-- A factor of at most fifty-three bits is stretched to a count on the grid of normal numbers. -/
theorem exists_stretch
    (hpos : 0 < c)
    (hc : c < 2 ^ 53) :
    ∃ j : Nat, c.log2 + j = 52 ∧ 2 ^ 52 ≤ c * 2 ^ j ∧ c * 2 ^ j < 2 ^ 53 := by
  have hne := Nat.ne_of_gt hpos
  obtain ⟨j, hj⟩ := Nat.exists_eq_add_of_le (Nat.le_of_lt_succ ((Nat.log2_lt hne).2 hc))
  refine ⟨j, hj.symm, ?_, ?_⟩
  · calc 2 ^ 52 = 2 ^ c.log2 * 2 ^ j := by rw [← Nat.pow_add, ← hj]
      _ ≤ c * 2 ^ j := Nat.mul_le_mul_right _ (Nat.log2_self_le hne)
  · calc c * 2 ^ j < 2 ^ (c.log2 + 1) * 2 ^ j :=
          Nat.mul_lt_mul_of_pos_right Nat.lt_log2_self (Nat.pow_pos Nat.two_pos)
      _ = 2 ^ 53 := by rw [← Nat.pow_add, Nat.add_right_comm, ← hj]

/-- A multiple of a power of two with a factor of at most fifty-three bits comes back from its
number. -/
theorem toInt?_ofInt_of_factor
    (hb : b ≤ 1024)
    (hi : i.natAbs < 2 ^ b)
    (hc : c < 2 ^ 53)
    (hn : i.natAbs = c * 2 ^ k) :
    (ofInt i).toInt? = some i := by
  rcases Nat.eq_zero_or_pos c with rfl | hpos
  · rw [Nat.zero_mul, Int.natAbs_eq_zero] at hn
    rw [hn]
    decide +kernel
  · obtain ⟨j, hj, hlow, hhigh⟩ := exists_stretch hpos hc
    have hpow : 2 ^ (c.log2 + k) < 2 ^ b := by
      calc 2 ^ (c.log2 + k) = 2 ^ c.log2 * 2 ^ k := Nat.pow_add _ _ _
        _ ≤ c * 2 ^ k := Nat.mul_le_mul_right _ (Nat.log2_self_le (Nat.ne_of_gt hpos))
        _ = i.natAbs := hn.symm
        _ < 2 ^ b := hi
    have hlog : c.log2 + k < b := (Nat.pow_lt_pow_iff_right Nat.one_lt_two).1 hpow
    refine toInt?_ofInt_count (k := k + 1074 - j) hhigh (Or.inr hlow) ?_ ?_
    · rw [infinityBits, Nat.pow_eq]
      omega
    · have hshift : ((k + 1074 - j : Nat) : Int) - 1074 = (k : Int) - j := by omega
      rw [← two_zpow_sub, hshift, zpow_sub₀ two_ne_zero, zpow_natCast, zpow_natCast, hn]
      push_cast
      rw [mul_assoc, mul_div_cancel₀ _ (pow_ne_zero j two_ne_zero)]

/-- An integer of magnitude at most `2 ^ 53` comes back from its number. -/
theorem toInt?_ofInt
    (hi : i.natAbs ≤ Nat.pow 2 53) :
    (ofInt i).toInt? = some i := by
  have hsmall : i.natAbs < 2 ^ 54 := Nat.lt_of_le_of_lt hi (by decide)
  rcases Nat.lt_or_eq_of_le hi with hlt | heq
  · exact toInt?_ofInt_of_factor (k := 0) (by decide) hsmall hlt (Nat.mul_one _).symm
  · -- the largest magnitude needs one bit more, and is a power of two
    exact toInt?_ofInt_of_factor (c := 1) (k := 53) (by decide) hsmall (by decide)
      (by rw [heq]; rfl)

/-- The integers that are numbers. -/
theorem exists_value_eq_iff
    (hb : b ≤ 1024)
    (hi : i.natAbs < 2 ^ b) :
    (∃ x : Number, x.isFinite = true ∧ x.value = i) ↔
      ∃ c k : Nat, c < 2 ^ 53 ∧ i.natAbs = c * 2 ^ k := by
  constructor
  · rintro ⟨x, hfinite, hx⟩
    have habs := congrArg Int.natAbs (value_eq_int_iff.1 hx)
    rw [natAbs_withSignOf, Int.natAbs_mul, Int.natAbs_natCast, ratio, Nat.pow_eq,
      Nat.pow_eq] at habs
    dsimp only at habs
    have hmantissa := x.mantissa_lt
    rcases le_total 0 x.scale with hscale | hscale
    · refine ⟨x.mantissa, x.scale.toNat, hmantissa, ?_⟩
      rw [habs, show (-x.scale).toNat = 0 by omega, Nat.pow_zero, Nat.mul_one]
    · rw [show x.scale.toNat = 0 by omega, Nat.pow_zero, Nat.mul_one] at habs
      refine ⟨i.natAbs, 0, Nat.lt_of_le_of_lt ?_ hmantissa, (Nat.mul_one _).symm⟩
      rw [habs]
      exact Nat.le_mul_of_pos_right _ (Nat.pow_pos Nat.two_pos)
  · rintro ⟨c, k, hc, hn⟩
    exact ⟨ofInt i, toInt?_eq_some_iff.1 (toInt?_ofInt_of_factor hb hi hc hn)⟩

end Integers

end Number
end CellBridge
