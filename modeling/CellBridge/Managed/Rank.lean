/-!
# Ranks

Ranks are numbers of thirty-two bits without a sign.  They are added with a check: where the sum
does not fit there is none.
-/

namespace CellBridge

/-- The sum of two ranks, if it fits. -/
def addRank?
    (a b : UInt32) : Option UInt32 :=
  if a.toNat + b.toNat < UInt32.size then some (a + b) else none

/-- A sum that fits is the true sum. -/
theorem addRank?_eq_some_iff
    {a b n : UInt32} :
    addRank? a b = some n ↔ n.toNat = a.toNat + b.toNat := by
  have hlt := n.toNat_lt
  rw [addRank?]
  split
  · rename_i hfits
    rw [Option.some_inj, ← UInt32.toNat_inj, UInt32.toNat_add, Nat.mod_eq_of_lt hfits, eq_comm]
  · rename_i hover
    refine iff_of_false (fun h => by cases h) ?_
    intro heq
    exact hover (heq ▸ hlt)

end CellBridge
