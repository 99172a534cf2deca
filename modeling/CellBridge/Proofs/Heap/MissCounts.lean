import CellBridge.Proofs.Heap.Report

/-!
# The counts of missed reports

The heap keeps a count for every interned handle that is old enough and that the last reports
missed.  A report that shows the handle drops the count, and so does the eviction of the handle.

* The entries of the table are right in every run: the handle is interned, and some cycle began
  after it was issued.
* A count is at least one and at most the hysteresis, because a handle with more misses is evicted.
  `Tallied` says so, `Tallied.after` is the step, and the step needs that no count wraps.
* Below the largest hysteresis no count can wrap, because eviction comes first.  With the largest
  one nothing is ever evicted: the count of a handle that `2 ^ 32` ends of cycles in a row miss
  starts over at zero.

`run_misses` collects this, and says that such a row of misses is the only thing that goes wrong.
-/

namespace CellBridge
namespace Heap

section Defs

/-- Is every count of misses at least one and at most the hysteresis? -/
def Tallied
    (h : Heap) : Prop :=
  ∀ handle count, h.misses.get? handle = some count → 1 ≤ count ∧ count ≤ h.hysteresis

/-- Are the counts of misses in range after every operation of a run from `h`, and does none of them
wrap? -/
def StaysTallied
    (h : Heap)
    (ops : List HeapOp) : Prop :=
  (∀ m, m ≤ ops.length → (h.run (ops.take m)).Tallied) ∧
    ∀ m op, ops[m]? = some op → ∀ handle, (h.run (ops.take m)).CountFits op handle

/-- The heap without objects that has the largest hysteresis. -/
def patient : Heap :=
  empty 1 (UInt32.ofNat (UInt32.size - 1))

/-- An object is interned, a cycle begins, and cycles end `k` times with nothing shown. -/
def unshown
    (k : Nat) : List HeapOp :=
  [.intern { type := .text, id := 0 }, .beginCycle] ++ List.replicate k (.endCycle [])

end Defs

section Step

variable {h : Heap}

theorem tallied_empty
    (seed : UInt64)
    (hysteresis : UInt32) :
    (empty seed hysteresis).Tallied := by
  intro handle count hcount
  cases hcount

theorem Tallied.missesOf_le
    (ht : h.Tallied)
    (handle : Handle) :
    h.missesOf handle ≤ h.hysteresis := by
  rw [missesOf]
  cases hcount : h.misses.get? handle with
  | none =>
      exact UInt32.zero_le
  | some count =>
      exact (ht handle count hcount).2

/-- Below the largest hysteresis, the next miss fits. -/
theorem Tallied.countFits
    (ht : h.Tallied)
    (hk : h.hysteresis.toNat + 1 < UInt32.size)
    (op : HeapOp)
    (handle : Handle) :
    h.CountFits op handle := by
  intro reachable _ _ _
  exact toNat_missesOf_lt (ht.missesOf_le handle) hk

theorem Tallied.endCycle
    (ht : h.Tallied)
    (hd : h.objects.Distinct)
    {reachable : List Handle}
    (hfits : ∀ handle, h.CountFits (.endCycle reachable) handle) :
    (h.endCycle reachable).2.Tallied := by
  intro handle count hcount
  rw [endCycle_misses h reachable handle hd] at hcount
  rw [endCycle_hysteresis]
  by_cases hexamined : h.examines handle = true
  · rw [if_pos hexamined] at hcount
    split at hcount
    · cases hcount
    · rename_i hkept
      obtain ⟨hlost, hspared⟩ := not_or.1 hkept
      cases hcount
      have hnext := toNat_missesOf_add_one (hfits handle reachable rfl hexamined hlost)
      constructor
      · rw [UInt32.le_iff_toNat_le, hnext]
        exact Nat.le_add_left 1 _
      · rw [dooms_iff] at hspared
        rw [← UInt32.not_lt]
        intro hover
        exact hspared ⟨hexamined, hlost, hover⟩
  · rw [if_neg hexamined] at hcount
    exact ht handle count hcount

/-- What an operation preserves, as long as no count wraps. -/
theorem Tallied.after
    (ht : h.Tallied)
    (hd : h.objects.Distinct)
    {op : HeapOp}
    (hfits : ∀ handle, h.CountFits op handle) :
    (h.after op).Tallied := by
  cases op with
  | intern o =>
      show (h.intern o).2.Tallied
      rw [intern]
      split <;> exact ht
  | resolve handle =>
      exact ht
  | beginCycle =>
      exact ht
  | endCycle reachable =>
      exact ht.endCycle hd hfits
  | cycle reachable =>
      exact ht.endCycle hd hfits

end Step

section Wrapping

variable {h : Heap} {n : Nat} {ops : List HeapOp} {p m : Nat} {op : HeapOp} {handle : Handle}

/-- A count that wraps spares its handle: zero is above no hysteresis. -/
theorem not_dooms_of_wrap
    (hwrap : (h.missesOf handle).toNat + 1 = UInt32.size)
    (reachable : List Handle) :
    ¬ h.dooms reachable handle = true := by
  have hzero : h.missesOf handle + 1 = 0 := by
    apply UInt32.toNat_inj.1
    have hone : (1 : UInt32).toNat = 1 := rfl
    rw [UInt32.toNat_add, hone, hwrap]
    rfl
  rw [dooms_iff, hzero]
  rintro ⟨-, -, hover⟩
  exact UInt32.not_lt_zero hover

/-- The count of a tracked handle wraps only if `2 ^ 32` ends in a row have missed it by then. -/
theorem Coherent.countFits_of_not_missedLast
    (hc : h.Coherent n)
    (ht : h.Tracked ops p handle m)
    (hop : ops[m]? = some op)
    (hnot : (h.after op).contains handle = true →
      ¬ MissedLast ops p handle (m + 1) UInt32.size) :
    h.CountFits op handle := by
  intro reachable hr hexamined hlost
  by_contra hge
  obtain ⟨hknown, hdue⟩ := Bool.and_eq_true_iff.1 hexamined
  have hwrap : (h.missesOf handle).toNat + 1 = UInt32.size := by
    have hlt := (h.missesOf handle).toNat_lt_size
    omega
  have hstays : (h.after op).contains handle = true := by
    by_contra hgone
    have hev : h.Evicts op handle := ⟨by rw [hr]; rfl, hknown, Bool.not_eq_true _ ▸ hgone⟩
    exact not_dooms_of_wrap hwrap reachable ((hc.evicts_iff hr handle).1 hev)
  have hend : reportAt? ops m = some reachable := by
    simp [reportAt?, hop, hr]
  refine hnot hstays ?_
  rw [← hwrap, missedLast_succ_of_some hend]
  exact ⟨⟨ht.due.1 hdue, hlost⟩, (ht.count hknown _).2 (Nat.le_refl _)⟩

/-- With the largest hysteresis, ends of cycles that miss an interned handle count on and on, and
never evict it. -/
theorem Coherent.missed_replicate
    (hc : h.Coherent n)
    (hk : h.hysteresis.toNat + 1 = UInt32.size)
    (hexamined : h.examines handle = true)
    (k : Nat) :
    let h' := h.run (List.replicate k (.endCycle []))
    h'.examines handle = true ∧
      h'.misses.get? handle =
        if k = 0 then h.misses.get? handle else some (h.missesOf handle + UInt32.ofNat k) := by
  induction k generalizing h with
  | zero =>
      exact ⟨hexamined, rfl⟩
  | succ k ih =>
      have hspared : ¬ h.dooms [] handle = true := by
        rw [dooms_iff, UInt32.lt_iff_toNat_lt]
        rintro ⟨-, -, hover⟩
        have hlt := (h.missesOf handle + 1).toNat_lt_size
        omega
      have hcount : (h.endCycle []).2.misses.get? handle = some (h.missesOf handle + 1) := by
        simp [endCycle_misses h [] handle hc.distinct, hexamined, hspared]
      have hnext : (h.endCycle []).2.missesOf handle = h.missesOf handle + 1 := by
        rw [missesOf, hcount]
        rfl
      have hstill : (h.endCycle []).2.examines handle = true := by
        obtain ⟨hknown, hdue⟩ := Bool.and_eq_true_iff.1 hexamined
        rw [examines, (endCycle_contains hc.distinct [] handle).2 ⟨hknown, hspared⟩,
          isDue_congr (endCycle_base h []) (endCycle_boundary h []), hdue]
        rfl
      have htail := ih (hc.endCycle []) (by rw [endCycle_hysteresis]; exact hk) hstill
      refine ⟨htail.1, htail.2.trans ?_⟩
      rw [if_neg (Nat.succ_ne_zero k)]
      split
      · rename_i hzero
        rw [hcount, hzero]
        rfl
      · rw [hnext, UInt32.add_assoc, UInt32.ofNat_add, UInt32.add_comm (UInt32.ofNat k)]
        rfl

end Wrapping

section Runs

variable {seed : UInt64} {hysteresis : UInt32} {ops : List HeapOp} {p m : Nat} {handle : Handle}

/-- What a run preserves, as long as no count wraps. -/
theorem staysTallied_of_fits
    (few : ((empty seed hysteresis).issues ops).length < UInt64.size)
    (hfits : ∀ m op, ops[m]? = some op → ((empty seed hysteresis).run (ops.take m)).Tallied →
      ∀ handle, ((empty seed hysteresis).run (ops.take m)).CountFits op handle) :
    (empty seed hysteresis).StaysTallied ops := by
  have htallied : ∀ m, m ≤ ops.length → ((empty seed hysteresis).run (ops.take m)).Tallied := by
    intro m hm
    induction m with
    | zero =>
        exact tallied_empty seed hysteresis
    | succ m ih =>
        have hop : ops[m]? = some ops[m] := List.getElem?_eq_getElem hm
        have hbefore := ih (Nat.le_of_succ_le hm)
        rw [run_take_succ _ hop]
        exact hbefore.after (coherent_take few m).distinct (hfits m _ hop hbefore)
  refine ⟨htallied, ?_⟩
  intro m op hop
  obtain ⟨hm, -⟩ := List.getElem?_eq_some_iff.1 hop
  exact hfits m op hop (htallied m (Nat.le_of_lt hm))

/-- An operation ends at most one cycle. -/
theorem length_endsBefore_le
    (ops : List HeapOp)
    (j : Nat) :
    (endsBefore ops j).length ≤ j := by
  induction j with
  | zero =>
      exact Nat.le_refl 0
  | succ j ih =>
      rw [endsBefore]
      split
      · exact Nat.succ_le_succ ih
      · exact Nat.le_succ_of_le ih

theorem issues_replicate_endCycle
    (h : Heap)
    (k : Nat) :
    h.issues (List.replicate k (.endCycle [])) = [] := by
  induction k generalizing h with
  | zero =>
      rfl
  | succ k ih =>
      exact ih (h.endCycle []).2

theorem IssuedAt.of_take
    {h : Heap}
    (hissued : IssuedAt h (ops.take m) p handle) :
    p < m ∧ IssuedAt h ops p handle := by
  obtain ⟨op, hop, hmem⟩ := hissued
  rw [List.getElem?_take] at hop
  split at hop
  · rename_i hpm
    rw [List.take_take, Nat.min_eq_left (Nat.le_of_lt hpm)] at hmem
    exact ⟨hpm, op, hop, hmem⟩
  · cases hop

/-- No count wraps in a run without `2 ^ 32` ends in a row that miss an interned handle. -/
theorem countFits_of_not_missedLast
    (few : ((empty seed hysteresis).issues ops).length < UInt64.size)
    (hnot : ∀ m p handle, m ≤ ops.length → IssuedAt (empty seed hysteresis) ops p handle →
      ((empty seed hysteresis).run (ops.take m)).contains handle = true →
        ¬ MissedLast ops p handle m UInt32.size)
    {op : HeapOp}
    (hop : ops[m]? = some op)
    (handle : Handle) :
    ((empty seed hysteresis).run (ops.take m)).CountFits op handle := by
  intro reachable hr hexamined hlost
  have hle := length_issues_take_le (empty seed hysteresis) ops m
  obtain ⟨-, p, hissued, -⟩ :=
    (examines_run (Nat.lt_of_le_of_lt hle few) handle).1 hexamined
  obtain ⟨hpm, hissued⟩ := hissued.of_take
  have hfits : ∀ j op, ops[j]? = some op →
      ((empty seed hysteresis).run (ops.take j)).Tracked ops p handle j →
        ((empty seed hysteresis).run (ops.take j)).CountFits op handle := by
    intro j op hop htracked
    obtain ⟨hj, -⟩ := List.getElem?_eq_some_iff.1 hop
    refine (coherent_take few j).countFits_of_not_missedLast htracked hop ?_
    rw [← run_take_succ _ hop]
    exact hnot (j + 1) p handle hj hissued
  obtain ⟨hm, -⟩ := List.getElem?_eq_some_iff.1 hop
  have htracked := Tracked.run_of_fits few hissued hfits hpm (Nat.le_of_lt hm)
  exact hfits m op hop htracked reachable hr hexamined hlost

/-- The table of misses in every run that issues fewer than `2 ^ 64` handles.  Its entries belong to
interned handles that are old enough, because some cycle began after their issue.  The counts stay
between one and the hysteresis and do not wrap if the hysteresis is not the largest one; whatever it
is, they do so exactly if no interned handle is missed by `2 ^ 32` eligible ends of cycles in a
row. -/
theorem run_misses
    (seed : UInt64)
    (hysteresis : UInt32)
    (ops : List HeapOp)
    (few : ((empty seed hysteresis).issues ops).length < UInt64.size) :
    let start := empty seed hysteresis
    let h := start.run ops
    (∀ handle count, h.misses.get? handle = some count →
        h.contains handle = true ∧ h.isDue handle = true ∧
          ∃ p, IssuedAt start ops p handle ∧ Eligible ops p ops.length) ∧
      (hysteresis.toNat + 1 < UInt32.size → start.StaysTallied ops) ∧
      (start.StaysTallied ops ↔
        ∀ m p handle, m ≤ ops.length → IssuedAt start ops p handle →
          (start.run (ops.take m)).contains handle = true →
            ¬ MissedLast ops p handle m UInt32.size) := by
  intro start h
  refine ⟨?_, ?_, ?_, ?_⟩
  · intro handle count hcount
    have hpending : h.Pending :=
      (coherent_empty seed hysteresis).pending_run (pending_empty seed hysteresis) ops (by omega)
    have hexamined : h.examines handle = true :=
      hpending handle (by rw [Table.contains, hcount]; rfl)
    obtain ⟨hknown, hdue⟩ := Bool.and_eq_true_iff.1 hexamined
    exact ⟨hknown, hdue, ((examines_run few handle).1 hexamined).2⟩
  · intro bounded
    refine staysTallied_of_fits few ?_
    intro m op _ htallied
    exact htallied.countFits (by rw [run_hysteresis]; exact bounded) op
  · rintro ⟨-, hfits⟩ m p handle hm hissued hknown hmissed
    have heligible : Eligible ops p m := by
      by_contra hne
      exact absurd (hmissed.eq_zero hne) (by decide)
    have htracked := Tracked.run_of_fits few hissued
      (fun j op hop _ => hfits j op hop handle) heligible.lt hm
    have hle := (htracked.count hknown UInt32.size).1 hmissed
    exact absurd hle (Nat.not_le.2 (UInt32.toNat_lt_size _))
  · intro hnot
    refine staysTallied_of_fits few ?_
    intro m op hop _
    exact countFits_of_not_missedLast few hnot hop

/-- With the largest hysteresis, two misses are counted as with any other. -/
theorem run_misses_patient :
    let ops := [HeapOp.intern { type := .text, id := 0 }, .beginCycle, .endCycle [], .endCycle []]
    (patient.run ops).misses.get? ⟨1⟩ = some 2 ∧ (patient.run ops).contains ⟨1⟩ = true ∧
      patient.StaysTallied ops := by
  intro ops
  have hlaw := run_misses 1 (UInt32.ofNat (UInt32.size - 1)) ops (by decide)
  have hcount : (patient.run ops).misses.get? ⟨1⟩ = some 2 := by decide
  refine ⟨hcount, (hlaw.1 ⟨1⟩ 2 hcount).1, hlaw.2.2.2 ?_⟩
  intro m p handle hm _ _ hmissed
  have hshort := Nat.le_trans hmissed.1 (Nat.le_trans (length_endsBefore_le ops m) hm)
  exact absurd hshort (by decide)

/-- With the largest hysteresis, counts are taken modulo `2 ^ 32`. -/
theorem unshown_misses
    (k : Nat) :
    (patient.issues (unshown k)).length = 1 ∧ (patient.run (unshown k)).contains ⟨1⟩ = true ∧
      (patient.run (unshown k)).misses.get? ⟨1⟩ =
        if k = 0 then none else some (UInt32.ofNat k) := by
  let begun := patient.run [.intern { type := .text, id := 0 }, .beginCycle]
  have hcoherent : begun.Coherent 1 := coherent_run 1 _ _ (by decide)
  have hexamined : begun.examines ⟨1⟩ = true := by decide
  have hnone : begun.missesOf ⟨1⟩ = 0 := by decide
  have hmissed := hcoherent.missed_replicate (by decide) hexamined k
  rw [hnone, UInt32.zero_add] at hmissed
  have hrun : patient.run (unshown k) = begun.run (List.replicate k (.endCycle [])) :=
    run_append patient _ _
  rw [hrun, unshown, issues_append, issues_replicate_endCycle]
  exact ⟨rfl, (Bool.and_eq_true_iff.1 hmissed.1).1, hmissed.2⟩

/-- With the largest hysteresis, the end of a cycle that misses a handle for the `2 ^ 32`th time in
a row takes its count from the last value of the range back to zero.  The handle stays. -/
theorem misses_wrap :
    (patient.issues (unshown UInt32.size)).length < UInt64.size ∧
      ((patient.run (unshown (UInt32.size - 1))).missesOf ⟨1⟩).toNat + 1 = UInt32.size ∧
      (patient.run (unshown UInt32.size)).contains ⟨1⟩ = true ∧
      (patient.run (unshown UInt32.size)).misses.get? ⟨1⟩ = some 0 ∧
      ¬ patient.StaysTallied (unshown UInt32.size) := by
  obtain ⟨hissues, hknown, hcount⟩ := unshown_misses UInt32.size
  have hzero : UInt32.ofNat UInt32.size = 0 := by decide
  rw [if_neg (by decide), hzero] at hcount
  refine ⟨?_, ?_, hknown, hcount, ?_⟩
  · rw [hissues]
    decide
  · rw [missesOf, (unshown_misses (UInt32.size - 1)).2.2, if_neg (by decide)]
    rfl
  · rintro ⟨htallied, -⟩
    have hall := htallied (unshown UInt32.size).length (Nat.le_refl _)
    rw [List.take_length] at hall
    exact absurd (hall ⟨1⟩ 0 hcount).1 (by decide)

end Runs

end Heap
end CellBridge
