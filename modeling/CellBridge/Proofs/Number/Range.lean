import CellBridge.Cell.Exchange
import CellBridge.Proofs.Number.Patterns
import Mathlib.Algebra.Group.Nat.Defs

/-!
# Numerals are read as finite numbers

Rounding moves a quotient by a step of its grid at most, so that a bound on it which is a power of
two is a bound on the magnitude bits (`magnitudeBits_ofRatio`), and back (`ratio_le`), with two
powers of two lost on the way.

The significand of a numeral has sixty-four bits.  Dividing by the largest power of ten takes away
far more than rounding adds, so that no number of such divisions leaves the range:
`isFinite_divideByTen`.  Products are read only if they are finite.
-/

namespace CellBridge
namespace Number

section Grid

variable {num den m k : Nat} {e e' : Int}

theorem roundDiv_le
    (h : num < den * m) :
    roundDiv num den ≤ m := by
  have hquotient : num / den < m := Nat.div_lt_of_lt_mul h
  rw [roundDiv]
  split
  · exact Nat.le_of_lt hquotient
  · exact hquotient

/-- On a coarser grid there are fewer steps below a value. -/
theorem shiftedRatio_lt
    (h : (shiftedRatio num den e).1 < (shiftedRatio num den e).2 * m)
    (hle : e ≤ e') :
    (shiftedRatio num den e').1 < (shiftedRatio num den e').2 * m := by
  simp only [shiftedRatio, Nat.pow_eq] at h ⊢
  have hpow : 2 ^ e.toNat * 2 ^ (-e').toNat ≤ 2 ^ e'.toNat * 2 ^ (-e).toNat := by
    rw [← Nat.pow_add, ← Nat.pow_add]
    exact Nat.pow_le_pow_right Nat.two_pos (by omega)
  refine Nat.lt_of_mul_lt_mul_right (a := 2 ^ (-e).toNat) ?_
  calc num * 2 ^ (-e').toNat * 2 ^ (-e).toNat
      = num * 2 ^ (-e).toNat * 2 ^ (-e').toNat := Nat.mul_right_comm _ _ _
    _ < den * 2 ^ e.toNat * m * 2 ^ (-e').toNat :=
        Nat.mul_lt_mul_of_pos_right h (Nat.pow_pos Nat.two_pos)
    _ = den * m * (2 ^ e.toNat * 2 ^ (-e').toNat) := by ac_rfl
    _ ≤ den * m * (2 ^ e'.toNat * 2 ^ (-e).toNat) := Nat.mul_le_mul_left _ hpow
    _ = den * 2 ^ e'.toNat * m * 2 ^ (-e).toNat := by ac_rfl

/-- The lengths of the numerator and the denominator tell the step up to one power of two. -/
theorem shiftedRatio_lt_of_log2
    (hden : 0 < den)
    (he : e = (num.log2 : Int) - den.log2 - 52) :
    (shiftedRatio num den e).1 < (shiftedRatio num den e).2 * Nat.pow 2 53 := by
  have hlow := Nat.log2_self_le (Nat.ne_of_gt hden)
  simp only [shiftedRatio, Nat.pow_eq]
  calc num * 2 ^ (-e).toNat
      < 2 ^ (num.log2 + 1) * 2 ^ (-e).toNat :=
        Nat.mul_lt_mul_of_pos_right Nat.lt_log2_self (Nat.pow_pos Nat.two_pos)
    _ = 2 ^ den.log2 * 2 ^ e.toNat * 2 ^ 53 := by
        rw [← Nat.pow_add, ← Nat.pow_add, ← Nat.pow_add]
        congr 1
        omega
    _ ≤ den * 2 ^ e.toNat * 2 ^ 53 := Nat.mul_le_mul_right _ (Nat.mul_le_mul_right _ hlow)

/-- On the grid of a quotient, fifty-three bits count the steps below it. -/
theorem shiftedRatio_gridExponent
    (num : Nat)
    (hden : 0 < den) :
    (shiftedRatio num den (gridExponent num den)).1 <
      (shiftedRatio num den (gridExponent num den)).2 * Nat.pow 2 53 := by
  rw [gridExponent]
  dsimp only
  split
  · rename_i hfine
    exact shiftedRatio_lt hfine (Int.le_max_right _ _)
  · exact shiftedRatio_lt (shiftedRatio_lt_of_log2 hden rfl) (by omega)

/-- A bound on a quotient is one on its grid. -/
theorem gridExponent_le
    (hnum : num ≠ 0)
    (h : num ≤ den * 2 ^ k) :
    gridExponent num den ≤ (k : Int) - 52 := by
  have hlog : num.log2 < den.log2 + 1 + k := by
    refine (Nat.log2_lt hnum).2 (Nat.lt_of_le_of_lt h ?_)
    rw [Nat.pow_add]
    exact Nat.mul_lt_mul_of_pos_right Nat.lt_log2_self (Nat.pow_pos Nat.two_pos)
  rw [gridExponent]
  dsimp only
  split <;> omega

/-- A bound on a quotient is one on the number nearest to it. -/
theorem nearestMagnitude_le
    (hden : 0 < den)
    (h : num ≤ den * 2 ^ k) :
    nearestMagnitude num den ≤ (k + 1024) * Nat.pow 2 52 := by
  rw [nearestMagnitude]
  split
  · exact Nat.zero_le _
  · rename_i hnum
    have hexponent := gridExponent_le hnum h
    have hsteps := roundDiv_le (shiftedRatio_gridExponent num hden)
    dsimp only
    generalize gridExponent num den = e at hexponent hsteps ⊢
    refine Nat.le_trans (Nat.min_le_right _ _) ?_
    have hgrid : (e + 1074).toNat + 2 ≤ k + 1024 := by omega
    calc (e + 1074).toNat * Nat.pow 2 52 +
          roundDiv (shiftedRatio num den e).1 (shiftedRatio num den e).2
        ≤ (e + 1074).toNat * Nat.pow 2 52 + Nat.pow 2 53 := Nat.add_le_add_left hsteps _
      _ = ((e + 1074).toNat + 2) * Nat.pow 2 52 := (Nat.add_mul _ 2 _).symm
      _ ≤ (k + 1024) * Nat.pow 2 52 := Nat.mul_le_mul_right _ hgrid

end Grid

section Bounds

variable {x y : Number} {num den k l : Nat}

theorem isFinite_of_le
    (h : x.magnitudeBits ≤ (k + 1024) * Nat.pow 2 52)
    (hk : k < 1023) :
    x.isFinite = true := by
  refine decide_eq_true (Nat.lt_of_le_of_lt h ?_)
  rw [infinityBits]
  exact Nat.mul_lt_mul_of_pos_right (by omega) (Nat.pow_pos Nat.two_pos)

theorem magnitudeBits_ofRatio
    (negative : Bool)
    (hden : 0 < den)
    (h : num ≤ den * 2 ^ k)
    (hk : k < 1023) :
    (ofRatio negative num den).magnitudeBits ≤ (k + 1024) * Nat.pow 2 52 := by
  have hle := nearestMagnitude_le hden h
  have hlt : nearestMagnitude num den < infinityBits := by
    refine Nat.lt_of_le_of_lt hle ?_
    rw [infinityBits]
    exact Nat.mul_lt_mul_of_pos_right (by omega) (Nat.pow_pos Nat.two_pos)
  rw [ofRatio, magnitudeBits_ofMagnitude negative hlt]
  exact hle

theorem mantissa_lt
    (x : Number) :
    x.mantissa < 2 ^ 53 := by
  have hfraction : x.fractionField < 2 ^ 52 := Nat.mod_lt _ (Nat.pow_pos Nat.two_pos)
  rw [mantissa]
  simp only [Nat.pow_eq]
  split <;> omega

theorem ratio_snd_pos
    (x : Number) :
    0 < x.ratio.2 :=
  Nat.pow_pos Nat.two_pos

/-- A bound on the magnitude bits is one on the number. -/
theorem ratio_le
    (h : x.magnitudeBits ≤ (k + 1024) * Nat.pow 2 52) :
    x.ratio.1 ≤ x.ratio.2 * 2 ^ (k + 2) := by
  have hfield : x.exponentField ≤ k + 1024 :=
    Nat.div_le_of_le_mul (Nat.mul_comm _ _ ▸ h)
  have hscale : 53 + x.scale.toNat ≤ (-x.scale).toNat + (k + 2) := by
    rw [scale]
    omega
  rw [ratio]
  simp only [Nat.pow_eq]
  calc x.mantissa * 2 ^ x.scale.toNat
      ≤ 2 ^ 53 * 2 ^ x.scale.toNat := Nat.mul_le_mul_right _ (Nat.le_of_lt x.mantissa_lt)
    _ = 2 ^ (53 + x.scale.toNat) := (Nat.pow_add _ _ _).symm
    _ ≤ 2 ^ ((-x.scale).toNat + (k + 2)) := Nat.pow_le_pow_right Nat.two_pos hscale
    _ = 2 ^ (-x.scale).toNat * 2 ^ (k + 2) := Nat.pow_add _ _ _

/-- Dividing by a number that is at least `2 ^ l` takes a bound down by as much, apart from the
rounding. -/
theorem magnitudeBits_divMagnitude
    (hx : x.magnitudeBits ≤ (k + 1024) * Nat.pow 2 52)
    (hk : k + 2 < 1023)
    (hy : y.ratio.2 * 2 ^ l ≤ y.ratio.1) :
    (x.divMagnitude y).magnitudeBits ≤ (k + 2 - l + 1024) * Nat.pow 2 52 := by
  have hpos : 0 < y.ratio.1 :=
    Nat.lt_of_lt_of_le (Nat.mul_pos y.ratio_snd_pos (Nat.pow_pos Nat.two_pos)) hy
  refine magnitudeBits_ofRatio false (Nat.mul_pos x.ratio_snd_pos hpos) ?_ (by omega)
  calc x.ratio.1 * y.ratio.2
      ≤ x.ratio.2 * 2 ^ (k + 2) * y.ratio.2 := Nat.mul_le_mul_right _ (ratio_le hx)
    _ ≤ x.ratio.2 * (2 ^ (k + 2 - l) * 2 ^ l) * y.ratio.2 := by
        refine Nat.mul_le_mul_right _ (Nat.mul_le_mul_left _ ?_)
        rw [← Nat.pow_add]
        exact Nat.pow_le_pow_right Nat.two_pos (by omega)
    _ = x.ratio.2 * (y.ratio.2 * 2 ^ l) * 2 ^ (k + 2 - l) := by ac_rfl
    _ ≤ x.ratio.2 * y.ratio.1 * 2 ^ (k + 2 - l) :=
        Nat.mul_le_mul_right _ (Nat.mul_le_mul_left _ hy)

end Bounds

section Powers

theorem one_le_powerOfTen :
    ∀ e ≤ maxTenExponent, (powerOfTen e).ratio.2 * 2 ^ 0 ≤ (powerOfTen e).ratio.1 := by
  decide +kernel

theorem large_powerOfTen :
    (powerOfTen maxTenExponent).ratio.2 * 2 ^ 1000 ≤ (powerOfTen maxTenExponent).ratio.1 := by
  decide +kernel

/-- No number of divisions leads out of the range. -/
theorem isFinite_divideByTen
    {x : Number}
    (hx : x.magnitudeBits ≤ (64 + 1024) * Nat.pow 2 52)
    (e : Nat) :
    (x.divideByTen e).isFinite = true := by
  induction x, e using divideByTen.induct with
  | case1 x e he =>
      rw [divideByTen, if_pos he]
      exact isFinite_of_le (magnitudeBits_divMagnitude hx (by decide) (one_le_powerOfTen e he))
        (by decide)
  | case2 x e he hzero =>
      rw [divideByTen, if_neg he, if_pos hzero]
      exact isFinite_of_le hx (by decide)
  | case3 x e he hzero ih =>
      -- a division takes away a thousand powers of two, so that the bound holds again
      rw [divideByTen, if_neg he, if_neg hzero]
      have hstep := magnitudeBits_divMagnitude hx (by decide) large_powerOfTen
      exact ih (Nat.le_trans hstep (Nat.mul_le_mul_right _ (by decide)))

theorem isFinite_scaleByTen?
    {x y : Number}
    (hx : x.magnitudeBits ≤ (64 + 1024) * Nat.pow 2 52)
    {e : Int}
    (h : scaleByTen? x e = some y) :
    y.isFinite = true := by
  cases e with
  | ofNat e =>
      rw [scaleByTen?] at h
      split at h
      · dsimp only at h
        split at h
        · rename_i hfinite
          cases h
          exact hfinite
        · cases h
      · split at h
        · cases h
          exact isFinite_of_le hx (by decide)
        · cases h
  | negSucc e =>
      cases h
      exact isFinite_divideByTen hx (e + 1)

end Powers

section Reading

theorem takeWhole_le
    (cs : List Char)
    {s : Nat}
    (hs : s ≤ significandLimit) :
    (takeWhole s cs).1 ≤ significandLimit := by
  induction cs generalizing s with
  | nil =>
      exact hs
  | cons c cs ih =>
      rw [takeWhole]
      split
      · exact ih ‹_›
      · exact hs

theorem takeFraction_le
    (cs : List Char)
    {s : Nat}
    (hs : s ≤ significandLimit)
    (e : Int) :
    (takeFraction s e cs).1 ≤ significandLimit := by
  induction cs generalizing s e with
  | nil =>
      exact hs
  | cons c cs ih =>
      rw [takeFraction]
      split
      · exact ih ‹_› (e - 1)
      · exact hs

theorem isFinite_withSign
    {x : Number}
    (negative : Bool)
    (hx : x.isFinite = true) :
    (x.withSign negative).isFinite = true := by
  have hlt : x.magnitudeBits < infinityBits := of_decide_eq_true hx
  rw [isFinite, withSign, magnitudeBits_ofMagnitude negative hlt]
  exact hx

/-- The number that a numeral is read as is finite. -/
theorem isFinite_ofNumeral?
    {n : Numeral}
    {x : Number}
    (h : ofNumeral? n = some x) :
    x.isFinite = true := by
  rw [ofNumeral?] at h
  obtain ⟨y, hscaled, rfl⟩ := Option.map_eq_some_iff.1 h
  have hsignificand : (takeFraction (takeWhole 0 n.whole).1 (takeWhole 0 n.whole).2
      n.fraction).1 ≤ 1 * 2 ^ 64 :=
    Nat.le_trans (takeFraction_le _ (takeWhole_le _ (Nat.zero_le _)) _) (by decide)
  exact isFinite_withSign _
    (isFinite_scaleByTen? (magnitudeBits_ofRatio false Nat.one_pos hsignificand (by decide))
      hscaled)

end Reading

end Number
end CellBridge
