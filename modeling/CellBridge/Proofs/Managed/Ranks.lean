import CellBridge.Managed.Ty
import Mathlib.Algebra.Ring.Nat

/-!
# Ranks as numbers

The rank of a type is a number that grows with the nesting of the type and with the depth of its
class.  `Ty.specificity?` counts it in thirty-two bits: an option `Counts` a number if it holds the
number where that fits, and nothing where it does not.  Checked additions count the sum of what
their operands count (`Counts.add`), so depths and ranks are counted: `depth?_counts` and
`specificity?_counts`.
-/

namespace CellBridge

section Defs

/-- The rank of a type, of whatever size. -/
def Ty.rank : Ty → Nat
  | .any => 0
  | .tagged => 1
  | .void => 3
  | .bool => 3
  | .text => 3
  | .double => 3
  | .long => 4
  | .int => 5
  | .short => 6
  | .byte => 7
  | .array e => 1 + e.rank
  | .list e => 1 + e.rank
  | .set e => 1 + e.rank
  | .object c => 1 + c.chain.length

/-- The option holds the number if thirty-two bits do, and nothing otherwise. -/
def Counts
    (x : Option UInt32)
    (n : Nat) : Prop :=
  ∀ k, x = some k ↔ k.toNat = n

end Defs

namespace Counts

variable {x : Option UInt32} {n : Nat}

theorem some
    (k : UInt32) :
    Counts (some k) k.toNat := by
  intro j
  rw [Option.some_inj, ← UInt32.toNat_inj, eq_comm]

/-- A step that adds something to what it is given counts the sum. -/
theorem bind
    (h : Counts x n)
    {f : UInt32 → Option UInt32}
    {m : Nat}
    (hf : ∀ k, Counts (f k) (m + k.toNat)) :
    Counts (x.bind f) (m + n) := by
  intro j
  rw [Option.bind_eq_some_iff]
  constructor
  · rintro ⟨k, hk, hj⟩
    rw [← (h k).1 hk]
    exact (hf k j).1 hj
  · intro hj
    have hlt : n < UInt32.size := Nat.lt_of_le_of_lt (hj ▸ Nat.le_add_left n m) j.toNat_lt
    have hn : (UInt32.ofNat n).toNat = n := UInt32.toNat_ofNat_of_lt' hlt
    exact ⟨UInt32.ofNat n, (h _).2 hn, (hf _ j).2 (by rw [hj, hn])⟩

/-- A checked addition counts the sum. -/
theorem add
    (h : Counts x n)
    (k : UInt32) :
    Counts (x.bind (addRank? k)) (k.toNat + n) := by
  exact h.bind fun _ _ => addRank?_eq_some_iff

theorem isSome_iff
    (h : Counts x n) :
    x.isSome = true ↔ n < 2 ^ 32 := by
  rw [Option.isSome_iff_exists]
  constructor
  · rintro ⟨k, hk⟩
    rw [← (h k).1 hk]
    exact k.toNat_lt
  · intro hlt
    exact ⟨UInt32.ofNat n, (h _).2 (UInt32.toNat_ofNat_of_lt' hlt)⟩

end Counts

/-- The depth of a class is the length of its chain. -/
theorem ManagedClass.depth?_counts
    (c : ManagedClass) :
    Counts c.depth? c.chain.length := by
  obtain ⟨name, ancestors, constants⟩ := c
  induction ancestors with
  | nil =>
      exact .some 1
  | cons parent above ih =>
      have hsum := ih.add 1
      rwa [UInt32.toNat_one, Nat.add_comm] at hsum

/-- The specificity of a type is its rank. -/
theorem Ty.specificity?_counts
    (t : Ty) :
    Counts t.specificity? t.rank := by
  induction t with
  | array e ih =>
      exact ih.add 1
  | list e ih =>
      exact ih.add 1
  | set e ih =>
      exact ih.add 1
  | object c =>
      exact c.depth?_counts.add 1
  | _ =>
      exact .some _

end CellBridge
