import CellBridge.Number.Basic

/-!
# Patterns

A number is its sign bit and its magnitude bits (`eq_iff`), and `ofMagnitude` puts the two together.
-/

namespace CellBridge
namespace Number

section Parts

variable {x y : Number} {m : Nat}

theorem toNat_bits
    (x : Number) :
    x.bits.toNat = (if x.isNegative then Nat.pow 2 63 else 0) + x.magnitudeBits := by
  have hlt : x.bits.toNat < Nat.pow 2 64 := x.bits.toNat_lt
  rw [magnitudeBits, isNegative]
  simp only [Nat.pow_eq, decide_eq_true_eq] at hlt ⊢
  split <;> omega

theorem eq_iff :
    x = y ↔ x.isNegative = y.isNegative ∧ x.magnitudeBits = y.magnitudeBits := by
  constructor
  · rintro rfl
    exact ⟨rfl, rfl⟩
  · rintro ⟨hsign, hbits⟩
    have heq : x.bits = y.bits := by
      rw [← UInt64.toNat_inj, toNat_bits, toNat_bits, hsign, hbits]
    cases x
    cases y
    exact congrArg Number.mk heq

theorem toNat_ofMagnitude
    (negative : Bool)
    (hm : m < infinityBits) :
    (ofMagnitude negative m).bits.toNat = (if negative then Nat.pow 2 63 else 0) + m := by
  rw [ofMagnitude, UInt64.toNat_ofNat']
  simp only [infinityBits, Nat.pow_eq] at hm ⊢
  apply Nat.mod_eq_of_lt
  split <;> omega

theorem isNegative_ofMagnitude
    (negative : Bool)
    (hm : m < infinityBits) :
    (ofMagnitude negative m).isNegative = negative := by
  rw [isNegative, toNat_ofMagnitude negative hm]
  simp only [infinityBits, Nat.pow_eq] at hm ⊢
  cases negative <;> simp
  omega

theorem magnitudeBits_ofMagnitude
    (negative : Bool)
    (hm : m < infinityBits) :
    (ofMagnitude negative m).magnitudeBits = m := by
  rw [magnitudeBits, toNat_ofMagnitude negative hm]
  simp only [infinityBits, Nat.pow_eq] at hm ⊢
  cases negative <;> simp <;> omega

end Parts

end Number
end CellBridge
