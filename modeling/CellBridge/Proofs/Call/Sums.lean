import CellBridge.Call.Candidate
import CellBridge.Proofs.Managed.Ranks
import Mathlib.Algebra.Ring.Int.Defs
import Mathlib.Algebra.Ring.Nat

/-!
# Sums of ranks and of priorities

The ranks of the targets of a candidate are summed without a sign, the priorities of its rules with
one.  Both sums are checked at every step.  Ranks only add up, so it is enough that their sum fits
(`totalSpecificity?_counts`).  Priorities can be negative, and a partial sum may leave the range
where the whole sum would not: `totalPriority?_eq_some_iff` asks for all of them.  They all fit
where the number of rules times the largest priority does, `inRange_take`.
-/

namespace CellBridge

section Defs

/-- The true sum of the priorities of rules. -/
def prioritySum
    (rs : List Rule) : Int :=
  (rs.map fun r : Rule => r.priority.toInt).sum

/-- Is the number a sum that thirty-two bits can hold? -/
def InRange
    (n : Int) : Prop :=
  -2 ^ 31 ≤ n ∧ n < 2 ^ 31

instance
    (n : Int) :
    Decidable (InRange n) :=
  inferInstanceAs (Decidable (-2 ^ 31 ≤ n ∧ n < 2 ^ 31))

end Defs

section Ranks

/-- The sum of specificities is the sum of ranks. -/
theorem totalSpecificity?_counts
    (ts : List Ty) :
    Counts (Candidate.totalSpecificity? ts) (ts.map Ty.rank).sum := by
  have hfold : ∀ (ts : List Ty) (n : UInt32),
      Counts (ts.foldlM (fun n t => t.specificity?.bind (addRank? n)) n)
        ((ts.map Ty.rank).sum + n.toNat) := by
    intro ts
    induction ts with
    | nil =>
        intro n
        rw [List.map_nil, List.sum_nil, Nat.zero_add]
        exact .some n
    | cons t ts ih =>
        intro n
        rw [List.foldlM_cons, List.map_cons, List.sum_cons, Nat.add_right_comm,
          Nat.add_comm _ n.toNat, Nat.add_comm]
        exact (t.specificity?_counts.add n).bind ih
  exact hfold ts 0

end Ranks

section Priorities

theorem prioritySum_cons
    (r : Rule)
    (rs : List Rule) :
    prioritySum (r :: rs) = r.priority.toInt + prioritySum rs := by
  exact List.sum_cons

theorem inRange_toInt
    (n : Int32) :
    InRange n.toInt := by
  exact ⟨n.le_toInt, n.toInt_lt⟩

/-- A sum of two priorities that fits is the true sum. -/
theorem addPriority?_eq_some_iff
    {a b n : Int32} :
    Candidate.addPriority? a b = some n ↔ n.toInt = a.toInt + b.toInt := by
  have hlow := n.le_toInt
  have hhigh := n.toInt_lt
  rw [Candidate.addPriority?]
  split
  · rename_i hfits
    have hsum : (a + b).toInt = a.toInt + b.toInt := by
      rw [Int32.toInt_add, Int.bmod_def]
      omega
    rw [Option.some_inj, ← Int32.toInt_inj, hsum, eq_comm]
  · rename_i hover
    refine iff_of_false (fun h => by cases h) ?_
    intro heq
    omega

/-- Two priorities can be added if their sum is in range. -/
theorem addPriority?_of_inRange
    {a b : Int32}
    (hrange : InRange (a.toInt + b.toInt)) :
    Candidate.addPriority? a b = some (a + b) := by
  obtain ⟨hlow, hhigh⟩ := hrange
  exact if_pos ⟨by omega, by omega⟩

/-- The partial sums from the left, one rule at a time. -/
theorem forall_prefixes_cons
    {P : Int → Prop}
    {a : Int}
    {r : Rule}
    {rs : List Rule} :
    (∀ k, P (a + prioritySum ((r :: rs).take k))) ↔
      P a ∧ ∀ k, P (a + r.priority.toInt + prioritySum (rs.take k)) := by
  have hsucc : ∀ k, a + prioritySum ((r :: rs).take (k + 1)) =
      a + r.priority.toInt + prioritySum (rs.take k) := by
    intro k
    rw [List.take_succ_cons, prioritySum_cons, Int.add_assoc]
  constructor
  · intro h
    exact ⟨Int.add_zero a ▸ h 0, fun k => hsucc k ▸ h (k + 1)⟩
  · rintro ⟨hzero, hrest⟩ k
    cases k with
    | zero =>
        exact (Int.add_zero a).symm ▸ hzero
    | succ k =>
        exact (hsucc k).symm ▸ hrest k

/-- The priorities of rules can be summed exactly if every partial sum fits. -/
theorem totalPriority?_eq_some_iff
    {rs : List Rule}
    {n : Int32} :
    Candidate.totalPriority? rs = some n ↔
      n.toInt = prioritySum rs ∧ ∀ k, InRange (prioritySum (rs.take k)) := by
  have hfold : ∀ (rs : List Rule) (a : Int32),
      rs.foldlM (fun n r => Candidate.addPriority? n r.priority) a = some n ↔
        n.toInt = a.toInt + prioritySum rs ∧
          ∀ k, InRange (a.toInt + prioritySum (rs.take k)) := by
    intro rs
    induction rs with
    | nil =>
        intro a
        have hnil : ∀ k, a.toInt + prioritySum (List.take k []) = a.toInt := by
          intro k
          rw [List.take_nil]
          exact Int.add_zero _
        simp only [hnil]
        show some a = some n ↔ n.toInt = a.toInt + 0 ∧ _
        rw [Option.some_inj, ← Int32.toInt_inj, Int.add_zero, eq_comm]
        exact (and_iff_left fun _ => inRange_toInt a).symm
    | cons r rs ih =>
        intro a
        rw [List.foldlM_cons, forall_prefixes_cons, and_iff_right (inRange_toInt a)]
        show (Candidate.addPriority? a r.priority).bind _ = some n ↔ _
        rw [Option.bind_eq_some_iff, prioritySum_cons, ← Int.add_assoc]
        constructor
        · rintro ⟨b, hb, hn⟩
          rw [← addPriority?_eq_some_iff.1 hb]
          exact (ih b).1 hn
        · rintro ⟨hn, hrange⟩
          have hfits : InRange (a.toInt + r.priority.toInt + 0) := hrange 0
          rw [Int.add_zero] at hfits
          have hb := addPriority?_of_inRange hfits
          rw [← addPriority?_eq_some_iff.1 hb] at hn hrange
          exact ⟨_, hb, (ih _).2 ⟨hn, hrange⟩⟩
  have h := hfold rs 0
  rw [Candidate.totalPriority?]
  simpa only [Int32.toInt_zero, Int.zero_add] using h

theorem exists_totalPriority?
    {rs : List Rule}
    (hrange : ∀ k, InRange (prioritySum (rs.take k))) :
    ∃ n, Candidate.totalPriority? rs = some n := by
  have hsum := hrange rs.length
  rw [List.take_length] at hsum
  refine ⟨Int32.ofInt (prioritySum rs), totalPriority?_eq_some_iff.2 ⟨?_, hrange⟩⟩
  exact Int32.toInt_ofInt_of_le hsum.1 hsum.2

/-- A sum of bounded priorities is bounded by their number times the bound. -/
theorem natAbs_prioritySum_le
    {rs : List Rule}
    {bound : Nat}
    (hbound : ∀ r ∈ rs, r.priority.toInt.natAbs ≤ bound) :
    (prioritySum rs).natAbs ≤ rs.length * bound := by
  induction rs with
  | nil =>
      exact Nat.zero_le _
  | cons r rs ih =>
      obtain ⟨hr, hrest⟩ := List.forall_mem_cons.1 hbound
      calc (prioritySum (r :: rs)).natAbs
          ≤ r.priority.toInt.natAbs + (prioritySum rs).natAbs := by
            rw [prioritySum_cons]
            exact Int.natAbs_add_le _ _
        _ ≤ bound + rs.length * bound := Nat.add_le_add hr (ih hrest)
        _ = (r :: rs).length * bound := by
            rw [List.length_cons, Nat.succ_mul, Nat.add_comm]

/-- No partial sum of small priorities leaves the range. -/
theorem inRange_take
    {rs : List Rule}
    {bound : Nat}
    (hbound : ∀ r ∈ rs, r.priority.toInt.natAbs ≤ bound)
    (hsmall : rs.length * bound < 2 ^ 31)
    (k : Nat) :
    InRange (prioritySum (rs.take k)) := by
  have hsum : (prioritySum (rs.take k)).natAbs ≤ (rs.take k).length * bound :=
    natAbs_prioritySum_le fun r hr => hbound r (List.mem_of_mem_take hr)
  have hlength : (rs.take k).length * bound ≤ rs.length * bound :=
    Nat.mul_le_mul_right bound (List.length_take_le' k rs)
  rw [InRange]
  omega

end Priorities

end CellBridge
