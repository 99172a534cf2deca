import CellBridge.Proofs.Heap.Identity

/-!
# When a handle is evicted

A handle goes at the end of a cycle if the report misses it, the reports of as many ends before as
the hysteresis says missed it as well, and all these ends are eligible: some cycle began after
the handle was issued and before them.

Positions in the run stand for points in time.  `MissedLast` is the history that counts, and the
heap keeps its length as long as the count does not wrap (`CountFits`):
`Coherent.after_missesOf` and `Coherent.after_isDue` are the step of that invariant,
`Tracked.run_of_fits` and `Tracked.run` are the invariant of a run, and `run_eviction` is the law.
-/

namespace CellBridge
namespace Heap

section Defs

/-- Does a cycle begin at the position? -/
def BeginsAt
    (ops : List HeapOp)
    (i : Nat) : Prop :=
  ∃ op, ops[i]? = some op ∧ op.begins = true

/-- The report at the position, if a cycle ends there. -/
def reportAt?
    (ops : List HeapOp)
    (i : Nat) : Option (List Handle) :=
  ops[i]?.bind HeapOp.report?

/-- The positions before `j` at which a cycle ends, the latest first. -/
def endsBefore
    (ops : List HeapOp) : Nat → List Nat
  | 0 => []
  | j + 1 =>
      if (reportAt? ops j).isSome then j :: endsBefore ops j else endsBefore ops j

/-- Is the handle issued at the position of a run from `h`? -/
def IssuedAt
    (h : Heap)
    (ops : List HeapOp)
    (p : Nat)
    (handle : Handle) : Prop :=
  ∃ op, ops[p]? = some op ∧ handle ∈ (h.run (ops.take p)).issuedBy op

/-- Is the handle evicted at the position of a run from `h`? -/
def EvictedAt
    (h : Heap)
    (ops : List HeapOp)
    (j : Nat)
    (handle : Handle) : Prop :=
  ∃ op, ops[j]? = some op ∧ (h.run (ops.take j)).Evicts op handle

/-- Did a cycle begin after position `p` and before position `j`? -/
def Eligible
    (ops : List HeapOp)
    (p j : Nat) : Prop :=
  ∃ i, p < i ∧ i < j ∧ BeginsAt ops i

/-- The end of a cycle at position `j` counts against a handle issued at position `p`. -/
def MissedAt
    (ops : List HeapOp)
    (p : Nat)
    (handle : Handle)
    (j : Nat) : Prop :=
  Eligible ops p j ∧ ∀ reachable, reportAt? ops j = some reachable → handle ∉ reachable

/-- The `c` ends of cycles right before position `j` count against the handle, all of them. -/
def MissedLast
    (ops : List HeapOp)
    (p : Nat)
    (handle : Handle)
    (j c : Nat) : Prop :=
  c ≤ (endsBefore ops j).length ∧ ∀ i ∈ (endsBefore ops j).take c, MissedAt ops p handle i

/-- If the operation adds a miss to the count of the handle, the count does not wrap. -/
def CountFits
    (h : Heap)
    (op : HeapOp)
    (handle : Handle) : Prop :=
  ∀ reachable, op.report? = some reachable → h.examines handle = true → handle ∉ reachable →
    (h.missesOf handle).toNat + 1 < UInt32.size

end Defs

section History

variable {ops : List HeapOp} {p : Nat} {handle : Handle}

theorem endsBefore_lt
    {j i : Nat}
    (hi : i ∈ endsBefore ops j) :
    i < j := by
  induction j with
  | zero =>
      cases hi
  | succ j ih =>
      rw [endsBefore] at hi
      split at hi
      · rcases List.mem_cons.1 hi with rfl | hi
        · exact Nat.lt_succ_self i
        · exact Nat.lt_succ_of_lt (ih hi)
      · exact Nat.lt_succ_of_lt (ih hi)

/-- The latest ends come first. -/
theorem endsBefore_pairwise
    (ops : List HeapOp)
    (j : Nat) :
    (endsBefore ops j).Pairwise (· > ·) := by
  induction j with
  | zero =>
      exact List.Pairwise.nil
  | succ j ih =>
      rw [endsBefore]
      split
      · exact List.Pairwise.cons (fun i hi => endsBefore_lt hi) ih
      · exact ih

theorem mem_endsBefore
    {i j : Nat}
    (hij : i < j)
    (hend : (reportAt? ops i).isSome = true) :
    i ∈ endsBefore ops j := by
  induction j with
  | zero =>
      omega
  | succ j ih =>
      rw [endsBefore]
      rcases Nat.lt_succ_iff_lt_or_eq.1 hij with hlt | rfl
      · split
        · exact List.mem_cons_of_mem j (ih hlt)
        · exact ih hlt
      · rw [if_pos hend]
        exact List.mem_cons_self

theorem Eligible.mono
    {i j : Nat}
    (he : Eligible ops p i)
    (hij : i ≤ j) :
    Eligible ops p j := by
  obtain ⟨b, hpb, hbi, hb⟩ := he
  exact ⟨b, hpb, by omega, hb⟩

theorem Eligible.lt
    {j : Nat}
    (he : Eligible ops p j) :
    p < j := by
  obtain ⟨b, hpb, hbj, -⟩ := he
  omega

theorem eligible_succ
    {j : Nat}
    (hpj : p < j) :
    Eligible ops p (j + 1) ↔ Eligible ops p j ∨ BeginsAt ops j := by
  constructor
  · rintro ⟨b, hpb, hbj, hb⟩
    rcases Nat.lt_succ_iff_lt_or_eq.1 hbj with hlt | rfl
    · exact Or.inl ⟨b, hpb, hlt, hb⟩
    · exact Or.inr hb
  · rintro (he | hb)
    · exact he.mono (Nat.le_succ j)
    · exact ⟨j, hpj, Nat.lt_succ_self j, hb⟩

theorem missedLast_zero
    (ops : List HeapOp)
    (p : Nat)
    (handle : Handle)
    (j : Nat) :
    MissedLast ops p handle j 0 := by
  exact ⟨Nat.zero_le _, by simp⟩

/-- Between the ends of cycles the history that counts stays the same. -/
theorem missedLast_succ_of_none
    {j c : Nat}
    (hend : reportAt? ops j = none) :
    MissedLast ops p handle (j + 1) c ↔ MissedLast ops p handle j c := by
  simp [MissedLast, endsBefore, hend]

/-- The end of a cycle puts one more in front of those before. -/
theorem missedLast_succ_of_some
    {j c : Nat}
    {reachable : List Handle}
    (hend : reportAt? ops j = some reachable) :
    MissedLast ops p handle (j + 1) (c + 1) ↔
      (Eligible ops p j ∧ handle ∉ reachable) ∧ MissedLast ops p handle j c := by
  have hat : MissedAt ops p handle j ↔ Eligible ops p j ∧ handle ∉ reachable := by
    simp [MissedAt, hend]
  rw [← hat]
  simp only [MissedLast, endsBefore, hend, Option.isSome_some, if_true, List.length_cons,
    List.take_succ_cons, List.forall_mem_cons, Nat.add_le_add_iff_right]
  tauto

/-- Without eligible ends, no history counts. -/
theorem MissedLast.eq_zero
    {j c : Nat}
    (hm : MissedLast ops p handle j c)
    (hne : ¬ Eligible ops p j) :
    c = 0 := by
  rcases Nat.eq_zero_or_pos c with hzero | hpos
  · exact hzero
  · obtain ⟨hle, hall⟩ := hm
    have hlen : 0 < ((endsBefore ops j).take c).length := by
      rw [List.length_take]
      omega
    obtain ⟨i, hi⟩ := List.exists_mem_of_length_pos hlen
    have hij := endsBefore_lt (List.mem_of_mem_take hi)
    exact absurd ((hall i hi).1.mono (Nat.le_of_lt hij)) hne

/-- After a report that shows the handle, it takes as many further ends as the hysteresis says. -/
theorem MissedLast.le_ends_after
    {i j k : Nat}
    {shown : List Handle}
    (hm : MissedLast ops p handle j k)
    (hij : i < j)
    (hend : reportAt? ops i = some shown)
    (hshown : handle ∈ shown) :
    k ≤ ((endsBefore ops j).filter fun e => decide (i < e)).length := by
  have hmem : i ∈ endsBefore ops j := mem_endsBefore hij (by simp [hend])
  have hnot : i ∉ (endsBefore ops j).take k := by
    intro hi
    exact (hm.2 i hi).2 shown hend hshown
  have hlater : ∀ e ∈ (endsBefore ops j).take k, i < e := by
    intro e he
    have horder := endsBefore_pairwise ops j
    rw [← List.take_append_drop k (endsBefore ops j)] at hmem horder
    rcases List.mem_append.1 hmem with hi | hi
    · exact absurd hi hnot
    · exact (List.pairwise_append.1 horder).2.2 e he i hi
  have hall : ((endsBefore ops j).take k).filter (fun e => decide (i < e)) =
      (endsBefore ops j).take k := by
    rw [List.filter_eq_self]
    intro e he
    exact decide_eq_true (hlater e he)
  have hsub := ((List.take_sublist k (endsBefore ops j)).filter
    fun e => decide (i < e)).length_le
  rw [hall, List.length_take, Nat.min_eq_left hm.1] at hsub
  exact hsub

end History

section Step

/-- The boundary is behind the issued handles, and only interned handles have misses. -/
structure Counted
    (h : Heap)
    (n : Nat) : Prop where
  boundary : (h.boundary.getD 0).toNat ≤ n
  misses : ∀ handle, h.contains handle = false → h.misses.get? handle = none

variable {h : Heap} {n : Nat}

/-- The `i`th handle is due exactly if the boundary lies behind it. -/
theorem isDue_nthHandle
    {i : Nat}
    (hi : i < UInt64.size) :
    h.isDue (h.nthHandle i) = true ↔ i < (h.boundary.getD 0).toNat := by
  have hordinal : h.ordinal (h.nthHandle i) = UInt64.ofNat i := by
    show h.base + UInt64.ofNat i - h.base = UInt64.ofNat i
    rw [UInt64.add_comm, UInt64.add_sub_cancel]
  rw [isDue, decide_eq_true_iff, hordinal, UInt64.lt_iff_toNat_lt,
    UInt64.toNat_ofNat_of_lt' hi]

/-- A handle becomes due when a cycle begins, and stays so. -/
theorem Coherent.after_isDue
    (hc : h.Coherent n)
    {i : Nat}
    (hi : i < n)
    (op : HeapOp) :
    (h.after op).isDue (h.nthHandle i) = true ↔
      h.isDue (h.nthHandle i) = true ∨ op.begins = true := by
  have hn : n < UInt64.size := hc.count ▸ h.issued.toNat_lt_size
  have hbase := nthHandle_congr (after_base h op) i
  rw [← hbase, isDue_nthHandle (by omega), hbase, isDue_nthHandle (by omega)]
  have hbegin : ∀ reachable, ((h.endCycle reachable).2.issued).toNat = n := by
    intro reachable
    rw [endCycle_issued, hc.count]
  cases op with
  | intern o =>
      have hsame : (h.intern o).2.boundary = h.boundary := by
        rw [intern]
        split <;> rfl
      simp [Heap.after, hsame, HeapOp.begins]
  | resolve handle =>
      simp [Heap.after, HeapOp.begins]
  | beginCycle =>
      have hnow : ((h.beginCycle).boundary.getD 0).toNat = n := hc.count
      simp [Heap.after, hnow, HeapOp.begins, hi]
  | endCycle reachable =>
      simp [Heap.after, endCycle_boundary, HeapOp.begins]
  | cycle reachable =>
      have hnow : ((h.cycle reachable).2.boundary.getD 0).toNat = n := hbegin reachable
      simp [Heap.after, hnow, HeapOp.begins, hi]

theorem Coherent.counted_endCycle
    (hc : h.Coherent n)
    (hcounted : h.Counted n)
    (reachable : List Handle) :
    (h.endCycle reachable).2.Counted n := by
  refine ⟨?_, ?_⟩
  · rw [endCycle_boundary]
    exact hcounted.boundary
  · intro handle hgone
    rw [contains_eq_false_iff, endCycle_objects h reachable hc.distinct] at hgone
    rw [endCycle_misses h reachable handle hc.distinct]
    split at hgone
    · rename_i hd
      have he : h.examines handle = true := by
        simp only [dooms, Bool.and_eq_true] at hd
        exact hd.1.1
      rw [if_pos he, if_pos (Or.inr hd)]
    · have hunknown := (contains_eq_false_iff h handle).2 hgone
      rw [if_neg (by simp [examines, hunknown])]
      exact hcounted.misses handle hunknown

/-- What an operation preserves. -/
theorem Coherent.counted_after
    (hc : h.Coherent n)
    (hcounted : h.Counted n)
    (op : HeapOp) :
    (h.after op).Counted (n + (h.issuedBy op).length) := by
  cases op with
  | intern o =>
      have hwider := Nat.le_trans hcounted.boundary
        (Nat.le_add_right n (h.issuedBy (.intern o)).length)
      show (h.intern o).2.Counted _
      cases ho : h.handleOf? o with
      | some handle =>
          rw [intern_of_some ho]
          exact ⟨hwider, hcounted.misses⟩
      | none =>
          rw [intern_of_none ho]
          refine ⟨hwider, ?_⟩
          intro handle hunknown
          refine hcounted.misses handle ?_
          rw [contains_eq_false_iff] at hunknown ⊢
          rw [Table.get?_insert] at hunknown
          split at hunknown
          · cases hunknown
          · exact hunknown
  | resolve handle =>
      exact hcounted
  | beginCycle =>
      exact ⟨Nat.le_of_eq hc.count, hcounted.misses⟩
  | endCycle reachable =>
      exact hc.counted_endCycle hcounted reachable
  | cycle reachable =>
      refine ⟨?_, (hc.counted_endCycle hcounted reachable).misses⟩
      show ((h.endCycle reachable).2.issued).toNat ≤ n
      rw [endCycle_issued]
      exact Nat.le_of_eq hc.count

/-- Which end of a cycle evicts an interned handle. -/
theorem Coherent.evicts_iff
    (hc : h.Coherent n)
    {op : HeapOp}
    {reachable : List Handle}
    (hop : op.report? = some reachable)
    (handle : Handle) :
    h.Evicts op handle ↔ h.dooms reachable handle = true := by
  have hafter : (h.after op).objects = (h.endCycle reachable).2.objects := by
    cases op with
    | endCycle r =>
        cases hop
        rfl
    | cycle r =>
        cases hop
        rfl
    | _ =>
        cases hop
  have hobjects := endCycle_objects h reachable hc.distinct handle
  rw [Evicts, hop, contains_eq_false_iff, hafter, hobjects]
  constructor
  · rintro ⟨-, hknown, hgone⟩
    split at hgone
    · assumption
    · rw [contains_eq_false_iff h handle |>.2 hgone] at hknown
      cases hknown
  · intro hd
    refine ⟨rfl, ?_, if_pos hd⟩
    simp only [dooms, examines, Bool.and_eq_true] at hd
    exact hd.1.1.1

/-- The misses of a handle that is not evicted. -/
theorem Coherent.after_missesOf
    (hc : h.Coherent n)
    {op : HeapOp}
    {handle : Handle}
    (hknown : h.contains handle = true)
    (hkept : ¬ h.Evicts op handle) :
    (h.after op).missesOf handle =
      match op.report? with
      | none => h.missesOf handle
      | some reachable =>
          if h.isDue handle = true then
            if handle ∈ reachable then 0 else h.missesOf handle + 1
          else
            h.missesOf handle := by
  have hend : ∀ reachable, op.report? = some reachable →
      (h.endCycle reachable).2.missesOf handle =
        if h.isDue handle = true then
          if handle ∈ reachable then 0 else h.missesOf handle + 1
        else
          h.missesOf handle := by
    intro reachable hop
    rw [hc.evicts_iff hop] at hkept
    rw [missesOf, endCycle_misses h reachable handle hc.distinct]
    by_cases hdue : h.isDue handle = true <;> by_cases hr : handle ∈ reachable <;>
      simp [examines, hknown, hdue, hr, hkept, missesOf]
  cases op with
  | intern o =>
      show (h.intern o).2.missesOf handle = h.missesOf handle
      rw [intern]
      split <;> rfl
  | resolve handle =>
      rfl
  | beginCycle =>
      rfl
  | endCycle reachable =>
      exact hend reachable rfl
  | cycle reachable =>
      exact hend reachable rfl

end Step

section Tracking

/-- The heap knows of an issued handle what the history of the run says. -/
structure Tracked
    (h : Heap)
    (ops : List HeapOp)
    (p : Nat)
    (handle : Handle)
    (m : Nat) : Prop where
  due : h.isDue handle = true ↔ Eligible ops p m
  count : h.contains handle = true →
    ∀ c, MissedLast ops p handle m c ↔ c ≤ (h.missesOf handle).toNat
  bounded : h.contains handle = true → h.missesOf handle ≤ h.hysteresis

variable {h : Heap} {n : Nat} {ops : List HeapOp} {p m i : Nat} {op : HeapOp} {handle : Handle}

/-- A handle is tracked from its issue on. -/
theorem Coherent.tracked_issued
    (hc : h.Coherent n)
    (hcounted : h.Counted n)
    (hop : ops[p]? = some op)
    (hissued : handle ∈ h.issuedBy op) :
    handle = h.nthHandle n ∧ (h.after op).Tracked ops p handle (p + 1) := by
  have hn : n < UInt64.size := hc.count ▸ h.issued.toNat_lt_size
  cases op with
  | intern o =>
      rw [issuedBy] at hissued
      split at hissued
      · cases hissued
      · rename_i ho
        rw [Option.not_isSome_iff_eq_none] at ho
        rw [intern_of_none ho, List.mem_singleton] at hissued
        have hnth : handle = h.nthHandle n := hissued.trans hc.nextHandle_eq
        have hunknown : h.contains handle = false := by
          rw [contains_eq_false_iff, hissued]
          exact hc.objects_nextHandle
        have hmisses : (h.after (.intern o)).missesOf handle = 0 := by
          have hnone := hcounted.misses handle hunknown
          show (h.intern o).2.missesOf handle = 0
          rw [intern_of_none ho]
          simp [missesOf, hnone]
        have hnot : ¬ Eligible ops p (p + 1) := by
          rintro ⟨b, hpb, hbj, -⟩
          omega
        have hend : reportAt? ops p = none := by
          simp [reportAt?, hop, HeapOp.report?]
        refine ⟨hnth, ?_, ?_, ?_⟩
        · have hbase := nthHandle_congr (after_base h (.intern o)) n
          have hboundary : (h.after (.intern o)).boundary = h.boundary := by
            show (h.intern o).2.boundary = h.boundary
            rw [intern_of_none ho]
          rw [hnth, ← hbase, isDue_nthHandle hn, hboundary]
          exact iff_of_false (Nat.not_lt.2 hcounted.boundary) hnot
        · intro hknown c
          rw [hmisses]
          constructor
          · intro hlast
            exact Nat.le_of_eq (hlast.eq_zero hnot)
          · intro hle
            rw [Nat.le_zero.1 hle]
            exact missedLast_zero ops p handle (p + 1)
        · intro hknown
          rw [hmisses]
          exact UInt32.zero_le
  | _ =>
      cases hissued

/-- An interned handle that is not due has no misses. -/
theorem Tracked.missesOf_eq
    (ht : h.Tracked ops p handle m)
    (hknown : h.contains handle = true)
    (hdue : ¬ h.isDue handle = true) :
    (h.missesOf handle).toNat = 0 := by
  have hlast := (ht.count hknown (h.missesOf handle).toNat).2 (Nat.le_refl _)
  exact hlast.eq_zero (mt ht.due.2 hdue)

theorem toNat_missesOf_add_one
    (hlt : (h.missesOf handle).toNat + 1 < UInt32.size) :
    (h.missesOf handle + 1).toNat = (h.missesOf handle).toNat + 1 := by
  have hone : (1 : UInt32).toNat = 1 := rfl
  rw [UInt32.toNat_add, hone]
  exact Nat.mod_eq_of_lt hlt

/-- Below the largest hysteresis, a count in range does not wrap. -/
theorem toNat_missesOf_lt
    (hle : h.missesOf handle ≤ h.hysteresis)
    (hk : h.hysteresis.toNat + 1 < UInt32.size) :
    (h.missesOf handle).toNat + 1 < UInt32.size := by
  exact Nat.lt_of_le_of_lt (Nat.add_le_add_right (UInt32.le_iff_toNat_le.1 hle) 1) hk

/-- An end of a cycle evicts a tracked handle exactly if history says so. -/
theorem Coherent.evicts_iff_missedLast
    (hc : h.Coherent n)
    (ht : h.Tracked ops p handle m)
    (hk : h.hysteresis.toNat + 1 < UInt32.size)
    {reachable : List Handle}
    (hop : op.report? = some reachable) :
    h.Evicts op handle ↔
      h.contains handle = true ∧ Eligible ops p m ∧ handle ∉ reachable ∧
        MissedLast ops p handle m h.hysteresis.toNat := by
  rw [hc.evicts_iff hop, ← ht.due, dooms, examines]
  simp only [Bool.and_eq_true, decide_eq_true_eq, and_assoc]
  refine and_congr_right ?_
  intro hknown
  refine and_congr_right ?_
  intro hdue
  refine and_congr_right ?_
  intro hmissed
  rw [ht.count hknown, UInt32.lt_iff_toNat_lt,
    toNat_missesOf_add_one (toNat_missesOf_lt (ht.bounded hknown) hk)]
  exact Nat.lt_succ_iff

/-- What an operation preserves, as long as the count does not wrap. -/
theorem Coherent.tracked_after
    (hc : h.Coherent n)
    (hi : i < n)
    (hpm : p < m)
    (hfits : h.CountFits op (h.nthHandle i))
    (hop : ops[m]? = some op)
    (ht : h.Tracked ops p (h.nthHandle i) m) :
    (h.after op).Tracked ops p (h.nthHandle i) (m + 1) := by
  have hstays : (h.after op).contains (h.nthHandle i) = true →
      h.contains (h.nthHandle i) = true ∧ ¬ h.Evicts op (h.nthHandle i) := by
    intro hknown
    have hkept : ¬ h.Evicts op (h.nthHandle i) := by
      intro hev
      rw [hev.2.2] at hknown
      cases hknown
    rcases hc.after_objects hi op with hsame | ⟨hev, -⟩
    · rw [contains, Table.contains, hsame] at hknown
      exact ⟨hknown, hkept⟩
    · exact absurd hev hkept
  refine ⟨?_, ?_, ?_⟩
  · rw [hc.after_isDue hi, ht.due, eligible_succ hpm]
    simp [BeginsAt, hop]
  · intro hknown c
    obtain ⟨hbefore, hkept⟩ := hstays hknown
    rw [hc.after_missesOf hbefore hkept]
    cases hr : op.report? with
    | none =>
        have hend : reportAt? ops m = none := by
          simp [reportAt?, hop, hr]
        rw [missedLast_succ_of_none hend]
        exact ht.count hbefore c
    | some reachable =>
        have hend : reportAt? ops m = some reachable := by
          simp [reportAt?, hop, hr]
        cases c with
        | zero =>
            exact iff_of_true (missedLast_zero _ _ _ _) (Nat.zero_le _)
        | succ c =>
            rw [missedLast_succ_of_some hend, ← ht.due, ht.count hbefore]
            by_cases hdue : h.isDue (h.nthHandle i) = true
            · by_cases hmem : h.nthHandle i ∈ reachable
              · simp [hdue, hmem]
              · have hexamined : h.examines (h.nthHandle i) = true :=
                  Bool.and_eq_true_iff.2 ⟨hbefore, hdue⟩
                have hnext := toNat_missesOf_add_one (hfits reachable hr hexamined hmem)
                simp [hdue, hmem, hnext]
            · simp [hdue, ht.missesOf_eq hbefore hdue]
  · intro hknown
    obtain ⟨hbefore, hkept⟩ := hstays hknown
    rw [hc.after_missesOf hbefore hkept, after_hysteresis]
    cases hr : op.report? with
    | none =>
        exact ht.bounded hbefore
    | some reachable =>
        rw [hc.evicts_iff hr] at hkept
        by_cases hdue : h.isDue (h.nthHandle i) = true
        · by_cases hmem : h.nthHandle i ∈ reachable
          · simp [hdue, hmem]
          · simpa [hdue, hmem, dooms, examines, hbefore] using hkept
        · simpa [hdue] using ht.bounded hbefore

end Tracking

section Runs

/-- What a run preserves. -/
theorem Coherent.counted_run
    {h : Heap} {n : Nat}
    (hc : h.Coherent n)
    (hcounted : h.Counted n)
    (ops : List HeapOp)
    (hn : n + (h.issues ops).length < UInt64.size) :
    (h.run ops).Counted (n + (h.issues ops).length) := by
  have hstep := fun (h : Heap) n op (hc : h.Coherent n) (hcounted : h.Counted n) =>
    hc.counted_after hcounted op
  exact (Coherent.run_induction hstep hc hcounted ops hn).2

theorem counted_empty
    (seed : UInt64)
    (hysteresis : UInt32) :
    (empty seed hysteresis).Counted 0 := by
  exact ⟨Nat.le_refl 0, fun _ _ => rfl⟩

variable {seed : UInt64} {hysteresis : UInt32} {ops : List HeapOp}

theorem coherent_take
    (few : ((empty seed hysteresis).issues ops).length < UInt64.size)
    (m : Nat) :
    ((empty seed hysteresis).run (ops.take m)).Coherent
      ((empty seed hysteresis).issues (ops.take m)).length := by
  have hle := length_issues_take_le (empty seed hysteresis) ops m
  exact coherent_run seed hysteresis (ops.take m) (by omega)

theorem counted_take
    (few : ((empty seed hysteresis).issues ops).length < UInt64.size)
    (m : Nat) :
    ((empty seed hysteresis).run (ops.take m)).Counted
      ((empty seed hysteresis).issues (ops.take m)).length := by
  have hle := length_issues_take_le (empty seed hysteresis) ops m
  have hcounted := (coherent_empty seed hysteresis).counted_run (counted_empty seed hysteresis)
    (ops.take m) (by omega)
  rwa [Nat.zero_add] at hcounted

variable {p : Nat} {handle : Handle}

/-- A handle that is issued is the next one, and counts as issued from then on. -/
theorem IssuedAt.eq_nthHandle
    (few : ((empty seed hysteresis).issues ops).length < UInt64.size)
    (hissued : IssuedAt (empty seed hysteresis) ops p handle) :
    handle = (empty seed hysteresis).nthHandle
        ((empty seed hysteresis).issues (ops.take p)).length ∧
      ∀ m, p < m →
        ((empty seed hysteresis).issues (ops.take p)).length <
          ((empty seed hysteresis).issues (ops.take m)).length := by
  obtain ⟨op, hop, hmem⟩ := hissued
  have htracked := (coherent_take few p).tracked_issued (counted_take few p) hop hmem
  refine ⟨htracked.1.trans (nthHandle_congr (run_base _ _) _), ?_⟩
  intro m hpm
  have hle := length_issues_take_le (empty seed hysteresis) (ops.take m) (p + 1)
  rw [List.take_take, Nat.min_eq_left hpm, issues_take_succ _ hop, List.length_append] at hle
  have hpos := List.length_pos_of_mem hmem
  omega

theorem IssuedAt.not_contains
    (few : ((empty seed hysteresis).issues ops).length < UInt64.size)
    (hissued : IssuedAt (empty seed hysteresis) ops p handle)
    {m : Nat}
    (hmp : m ≤ p) :
    ((empty seed hysteresis).run (ops.take m)).contains handle = false := by
  rw [Bool.eq_false_iff]
  intro hknown
  obtain ⟨i, hi, heq⟩ := (coherent_take few m).known handle hknown
  obtain ⟨hnth, -⟩ := hissued.eq_nthHandle few
  have hmono := length_issues_take_le (empty seed hysteresis) (ops.take p) m
  rw [List.take_take, Nat.min_eq_left hmp] at hmono
  have hp := length_issues_take_le (empty seed hysteresis) ops p
  rw [hnth, nthHandle_congr (run_base _ _)] at heq
  have hsame := nthHandle_inj (by omega) (by omega) heq
  omega

/-- What holds of a handle once it is issued and is kept by every operation holds from its issue
on. -/
theorem IssuedAt.induction
    (few : ((empty seed hysteresis).issues ops).length < UInt64.size)
    (hissued : IssuedAt (empty seed hysteresis) ops p handle)
    {motive : Nat → Prop}
    (hissue : ∀ op, ops[p]? = some op →
      handle ∈ ((empty seed hysteresis).run (ops.take p)).issuedBy op → motive (p + 1))
    (hstep : ∀ m op i, p < m → ops[m]? = some op →
      i < ((empty seed hysteresis).issues (ops.take m)).length →
        handle = ((empty seed hysteresis).run (ops.take m)).nthHandle i →
          motive m → motive (m + 1))
    {m : Nat}
    (hpm : p < m)
    (hm : m ≤ ops.length) :
    motive m := by
  obtain ⟨hnth, hlt⟩ := hissued.eq_nthHandle few
  induction hpm with
  | refl =>
      obtain ⟨op, hop, hmem⟩ := hissued
      exact hissue op hop hmem
  | @step m hpm ih =>
      have hop : ops[m]? = some ops[m] := List.getElem?_eq_getElem hm
      have hnow := hnth.trans (nthHandle_congr (run_base _ (ops.take m)) _).symm
      exact hstep m _ _ hpm hop (hlt m hpm) hnow (ih (Nat.le_of_succ_le hm))

/-- What a run knows of a handle from its issue on, as long as the count does not wrap. -/
theorem Tracked.run_of_fits
    (few : ((empty seed hysteresis).issues ops).length < UInt64.size)
    (hissued : IssuedAt (empty seed hysteresis) ops p handle)
    (hfits : ∀ m op, ops[m]? = some op →
      ((empty seed hysteresis).run (ops.take m)).Tracked ops p handle m →
        ((empty seed hysteresis).run (ops.take m)).CountFits op handle)
    {m : Nat}
    (hpm : p < m)
    (hm : m ≤ ops.length) :
    ((empty seed hysteresis).run (ops.take m)).Tracked ops p handle m := by
  refine hissued.induction few
    (motive := fun m => ((empty seed hysteresis).run (ops.take m)).Tracked ops p handle m)
    ?_ ?_ hpm hm
  · intro op hop hmem
    rw [run_take_succ _ hop]
    exact ((coherent_take few p).tracked_issued (counted_take few p) hop hmem).2
  · intro m op i hpm hop hi hnow htracked
    have hfit := hfits m op hop htracked
    rw [run_take_succ _ hop]
    rw [hnow] at htracked hfit ⊢
    exact (coherent_take few m).tracked_after hi hpm hfit hop htracked

/-- What a run knows of a handle from its issue on, below the largest hysteresis. -/
theorem Tracked.run
    (few : ((empty seed hysteresis).issues ops).length < UInt64.size)
    (bounded : hysteresis.toNat + 1 < UInt32.size)
    (hissued : IssuedAt (empty seed hysteresis) ops p handle)
    {m : Nat}
    (hpm : p < m)
    (hm : m ≤ ops.length) :
    ((empty seed hysteresis).run (ops.take m)).Tracked ops p handle m := by
  refine Tracked.run_of_fits few hissued ?_ hpm hm
  intro m op _ htracked reachable _ hexamined _
  refine toNat_missesOf_lt (htracked.bounded (Bool.and_eq_true_iff.1 hexamined).1) ?_
  rw [run_hysteresis]
  exact bounded

/-- The law of eviction, in every run that issues fewer than `2 ^ 64` handles. -/
theorem run_eviction
    (seed : UInt64)
    (hysteresis : UInt32)
    (bounded : hysteresis.toNat + 1 < UInt32.size)
    (ops : List HeapOp)
    (few : ((empty seed hysteresis).issues ops).length < UInt64.size)
    (p : Nat)
    (handle : Handle)
    (issued : IssuedAt (empty seed hysteresis) ops p handle)
    (j : Nat)
    (reachable : List Handle)
    (ends : reportAt? ops j = some reachable) :
    let start := empty seed hysteresis
    let k := hysteresis.toNat
    (EvictedAt start ops j handle ↔
        (start.run (ops.take j)).contains handle = true ∧ Eligible ops p j ∧
          handle ∉ reachable ∧ MissedLast ops p handle j k) ∧
      (handle ∈ reachable → ¬ EvictedAt start ops j handle) ∧
      ((∀ i, i < j → ¬ BeginsAt ops i) → ¬ EvictedAt start ops j handle) ∧
      ((∀ i, i < j → BeginsAt ops i → i < p) → ¬ EvictedAt start ops j handle) ∧
      ∀ i shown, i < j → reportAt? ops i = some shown → handle ∈ shown →
        EvictedAt start ops j handle →
          k ≤ ((endsBefore ops j).filter fun e => decide (i < e)).length := by
  intro start k
  have hj : j < ops.length := by
    by_contra hge
    rw [reportAt?, List.getElem?_eq_none (Nat.le_of_not_lt hge)] at ends
    cases ends
  have hop : ops[j]? = some ops[j] := List.getElem?_eq_getElem hj
  have hreport : (ops[j]).report? = some reachable := by
    rwa [reportAt?, hop] at ends
  have hat : EvictedAt start ops j handle ↔
      (start.run (ops.take j)).Evicts ops[j] handle := by
    simp [EvictedAt, hop]
  have hk : (start.run (ops.take j)).hysteresis = hysteresis := run_hysteresis start (ops.take j)
  have hlaw : EvictedAt start ops j handle ↔
      (start.run (ops.take j)).contains handle = true ∧ Eligible ops p j ∧
        handle ∉ reachable ∧ MissedLast ops p handle j k := by
    rw [hat]
    by_cases hpj : p < j
    · have htracked := Tracked.run few bounded issued hpj (Nat.le_of_lt hj)
      have hiff := (coherent_take few j).evicts_iff_missedLast htracked
        (by rw [hk]; exact bounded) hreport
      rwa [hk] at hiff
    · have hgone : (start.run (ops.take j)).contains handle = false :=
        issued.not_contains few (Nat.le_of_not_lt hpj)
      refine iff_of_false ?_ ?_
      · rintro ⟨-, hknown, -⟩
        rw [hgone] at hknown
        cases hknown
      · rintro ⟨-, heligible, -⟩
        exact hpj heligible.lt
  refine ⟨hlaw, ?_, ?_, ?_, ?_⟩
  · intro hmem hev
    exact (hlaw.1 hev).2.2.1 hmem
  · intro hnone hev
    obtain ⟨i, -, hij, hbegin⟩ := (hlaw.1 hev).2.1
    exact hnone i hij hbegin
  · intro holder hev
    obtain ⟨i, hpi, hij, hbegin⟩ := (hlaw.1 hev).2.1
    exact Nat.lt_asymm hpi (holder i hij hbegin)
  · intro i shown hij hend hshown hev
    exact (hlaw.1 hev).2.2.2.le_ends_after hij hend hshown

/-- With a hysteresis of one, the second report in a row that misses a handle evicts it. -/
theorem run_eviction_second_miss :
    let ops := [HeapOp.intern { type := .text, id := 0 }, .beginCycle, .endCycle [], .cycle []]
    EvictedAt (empty 1 1) ops 3 ⟨1⟩ := by
  intro ops
  have hbegin : Eligible ops 0 2 := ⟨1, by decide, by decide, .beginCycle, rfl, rfl⟩
  have hissued : IssuedAt (empty 1 1) ops 0 ⟨1⟩ := ⟨_, rfl, by decide⟩
  have hlaw := run_eviction 1 1 (by decide) ops (by decide) 0 ⟨1⟩ hissued 3 [] rfl
  refine hlaw.1.2 ⟨by decide, hbegin.mono (by decide), by decide, by decide, ?_⟩
  intro i hi
  have hends : (endsBefore ops 3).take (1 : UInt32).toNat = [2] := by decide
  rw [hends, List.mem_singleton] at hi
  subst hi
  refine ⟨hbegin, ?_⟩
  intro reachable hr
  cases hr
  exact List.not_mem_nil

end Runs

end Heap
end CellBridge
