import CellBridge.Proofs.Heap.Eviction
import Mathlib.Data.Fintype.Basic
import Mathlib.Data.Set.Card

/-!
# What the report counts

The end of a cycle goes through the interned handles in the order of the table and counts as it
goes.  The counts are sizes of sets: of the handles that are old enough, of those of them that the
host shows, of those that are evicted, and of the handles shown that the heap does not know
(`endCycle_report`).  Whether a handle belongs to one of these sets is decided for it alone, so
neither the order nor repetitions matter: heaps that hold the same entries in any order, which are
`Reordered`, give the same report and are the same afterwards.

Lookups do not see the order of the entries as long as no key occurs twice.  That no key does is the
invariant `Keyed` of a run.  The other one is `Pending`: misses are only counted of handles that are
old enough.  `run_report` says for the heap of a run which handles these are.
-/

namespace CellBridge
namespace Heap

section Defs

/-- No table has a key twice. -/
structure Keyed
    (h : Heap) : Prop where
  objects : h.objects.Distinct
  handles : h.handles.Distinct
  misses : h.misses.Distinct

/-- Only interned handles that are old enough have misses. -/
def Pending
    (h : Heap) : Prop :=
  ∀ handle, h.misses.contains handle = true → h.examines handle = true

/-- The heaps differ at most in the order of the entries of their tables. -/
structure Reordered
    (h h' : Heap) : Prop where
  base : h'.base = h.base
  hysteresis : h'.hysteresis = h.hysteresis
  issued : h'.issued = h.issued
  boundary : h'.boundary = h.boundary
  cycles : h'.cycles = h.cycles
  objects : h.objects.entries.Perm h'.objects.entries
  handles : h.handles.entries.Perm h'.handles.entries
  misses : h.misses.entries.Perm h'.misses.entries

end Defs

end Heap

section Lists

variable {α : Type}

/-- A list without repetitions counts its members. -/
theorem length_eq_ncard
    {p : α → Prop}
    {l : List α}
    (hl : l.Nodup)
    (hp : ∀ a, a ∈ l ↔ p a) :
    l.length = {a | p a}.ncard := by
  classical
  have hset : {a | p a} = (l.toFinset : Set α) := by
    ext a
    rw [Set.mem_ofPred_eq, Finset.mem_coe, List.mem_toFinset, hp]
  rw [hset, Set.ncard_coe_finset, List.toFinset_card_of_nodup hl]

theorem nodup_eraseDups
    [DecidableEq α] :
    ∀ l : List α, l.eraseDups.Nodup
  | [] => List.nodup_nil
  | a :: l => by
      have hshorter : (l.filter fun b => !b == a).length < l.length + 1 :=
        Nat.lt_succ_of_le (List.length_filter_le _ l)
      rw [List.eraseDups_cons, List.nodup_cons]
      refine ⟨?_, nodup_eraseDups _⟩
      intro ha
      rw [List.mem_eraseDups, List.mem_filter, beq_self_eq_true] at ha
      exact Bool.false_ne_true ha.2
termination_by l => l.length

end Lists

namespace Table

section Order

variable {κ ν : Type} {t t' : Table κ ν}

theorem Distinct.perm
    (ht : t.Distinct)
    (hp : t.entries.Perm t'.entries) :
    t'.Distinct := by
  exact (hp.map Prod.fst).nodup_iff.1 ht

variable [DecidableEq κ]

/-- Lookups do not see the order of the entries. -/
theorem get?_of_perm
    (ht : t.Distinct)
    (hp : t.entries.Perm t'.entries)
    (k : κ) :
    t'.get? k = t.get? k := by
  ext v
  rw [← mem_entries_iff ht k v, ← mem_entries_iff (ht.perm hp) k v]
  exact hp.mem_iff.symm

/-- Tables that find the same hold the same entries. -/
theorem perm_of_get?
    (ht : t.Distinct)
    (ht' : t'.Distinct)
    (h : ∀ k, t'.get? k = t.get? k) :
    t.entries.Perm t'.entries := by
  refine (List.perm_ext_iff_of_nodup (List.Nodup.of_map Prod.fst ht)
    (List.Nodup.of_map Prod.fst ht')).2 ?_
  rintro ⟨k, v⟩
  rw [mem_entries_iff ht, mem_entries_iff ht', h k]

/-- A table has as many entries as it knows keys. -/
theorem Distinct.size_eq
    (ht : t.Distinct) :
    t.size = {k | t.contains k = true}.ncard := by
  rw [← length_eq_ncard ht fun k => mem_keys_iff t k, keys, List.length_map]
  rfl

end Order

end Table

namespace Heap

section Counts

variable {h : Heap}

instance : Finite Handle :=
  Finite.of_injective (fun handle => handle.value.toFin) fun _ _ heq =>
    congrArg Handle.mk (UInt64.toFin_inj.1 heq)

/-- Among the interned objects, entries are counted by their handles. -/
theorem length_eq_ncard_keys
    (hd : h.objects.Distinct)
    {es : List (Handle × Object)}
    (hsub : es.Sublist h.objects.entries)
    {p : Handle → Prop}
    (hp : ∀ handle, handle ∈ es.map Prod.fst ↔ p handle) :
    es.length = {handle | p handle}.ncard := by
  have hnodup : (es.map Prod.fst).Nodup := List.Nodup.sublist (hsub.map Prod.fst) hd
  rw [← length_eq_ncard hnodup hp, List.length_map]

/-- The report counts sets of handles. -/
theorem endCycle_report
    (hd : h.objects.Distinct)
    (reachable : List Handle) :
    (h.endCycle reachable).1 =
      { examined := {handle | h.examines handle = true}.ncard
        live := {handle | h.examines handle = true ∧ handle ∈ reachable}.ncard
        collected := {handle | h.dooms reachable handle = true}.ncard
        unrecognised := {handle | handle ∈ reachable ∧ h.contains handle = false}.ncard } := by
  have hdue : h.due.Sublist h.objects.entries := List.filter_sublist
  have hexamined : h.due.length = {handle | h.examines handle = true}.ncard := by
    refine length_eq_ncard_keys hd hdue ?_
    intro handle
    rw [due, mem_keys_filter h handle h.isDue, examines, Bool.and_eq_true]
  have hlive : (h.live reachable).length =
      {handle | h.examines handle = true ∧ handle ∈ reachable}.ncard :=
    length_eq_ncard_keys hd (List.filter_sublist.trans hdue) (mem_keys_live h reachable)
  have hcollected : (h.doomed reachable).length =
      {handle | h.dooms reachable handle = true}.ncard :=
    length_eq_ncard_keys hd (List.filter_sublist.trans (List.filter_sublist.trans hdue))
      fun handle => mem_keys_doomed h reachable handle hd
  have hunknown : (reachable.eraseDups.filter fun r => !h.contains r).length =
      {handle | handle ∈ reachable ∧ h.contains handle = false}.ncard := by
    refine length_eq_ncard ((nodup_eraseDups reachable).filter _) ?_
    intro handle
    simp
  rw [← hexamined, ← hlive, ← hcollected, ← hunknown]
  rfl

/-- A handle is known after the end of a cycle if it was known before and is not evicted. -/
theorem endCycle_contains
    (hd : h.objects.Distinct)
    (reachable : List Handle)
    (handle : Handle) :
    (h.endCycle reachable).2.contains handle = true ↔
      h.contains handle = true ∧ ¬ h.dooms reachable handle = true := by
  rw [contains, Table.contains, endCycle_objects h reachable hd]
  split
  · rename_i hdoomed
    simp [hdoomed]
  · rename_i hkept
    simp [hkept, contains, Table.contains]

end Counts

section Balance

variable {h : Heap}

theorem isDue_congr
    {h' : Heap}
    (hbase : h'.base = h.base)
    (hboundary : h'.boundary = h.boundary)
    (handle : Handle) :
    h'.isDue handle = h.isDue handle := by
  rw [isDue, isDue, ordinal, ordinal, hbase, hboundary]

/-- The handles that have misses after the end of a cycle. -/
theorem Pending.endCycle_misses
    (hp : h.Pending)
    (hd : h.objects.Distinct)
    (reachable : List Handle)
    (handle : Handle) :
    (h.endCycle reachable).2.misses.contains handle = true ↔
      h.examines handle = true ∧ handle ∉ reachable ∧ ¬ h.dooms reachable handle = true := by
  rw [Table.contains, Heap.endCycle_misses h reachable handle hd]
  by_cases he : h.examines handle = true
  · rw [if_pos he]
    by_cases hr : handle ∈ reachable <;> by_cases hdoomed : h.dooms reachable handle = true <;>
      simp [he, hr, hdoomed]
  · have hnone : ¬ h.misses.contains handle = true := mt (hp handle) he
    rw [if_neg he]
    exact iff_of_false hnone fun hall => he hall.1

/-- Counting by cases. -/
theorem ncard_split
    (p q : Handle → Prop) :
    {handle | p handle}.ncard =
      {handle | p handle ∧ q handle}.ncard + {handle | p handle ∧ ¬ q handle}.ncard := by
  exact (Set.ncard_inter_add_ncard_sdiff_eq_ncard {handle | p handle} {handle | q handle}).symm

theorem dooms_iff
    (h : Heap)
    (reachable : List Handle)
    (handle : Handle) :
    h.dooms reachable handle = true ↔
      h.examines handle = true ∧ handle ∉ reachable ∧
        h.hysteresis < h.missesOf handle + 1 := by
  rw [dooms, Bool.and_eq_true, Bool.and_eq_true, decide_eq_true_eq, decide_eq_true_eq, and_assoc]

/-- What is evicted is what the heap has less afterwards. -/
theorem collected_add_size
    (hd : h.objects.Distinct)
    (reachable : List Handle) :
    (h.endCycle reachable).1.collected + (h.endCycle reachable).2.size = h.size := by
  have hd' : (h.endCycle reachable).2.objects.Distinct := by
    rw [endCycle_heap]
    exact sweep_objects_distinct h hd _
  have hdoomed : ∀ handle, h.contains handle = true ∧ h.dooms reachable handle = true ↔
      h.dooms reachable handle = true := by
    intro handle
    refine and_iff_right_of_imp ?_
    intro hdooms
    exact (Bool.and_eq_true_iff.1 ((dooms_iff h reachable handle).1 hdooms).1).1
  have hsize : h.size = {handle | h.contains handle = true}.ncard := hd.size_eq
  have hsize' : (h.endCycle reachable).2.size =
      {handle | (h.endCycle reachable).2.contains handle = true}.ncard := hd'.size_eq
  rw [hsize, hsize', endCycle_report hd,
    ncard_split (fun handle => h.contains handle = true) fun handle =>
      h.dooms reachable handle = true]
  simp only [hdoomed, endCycle_contains hd]

/-- Every handle that is examined is shown, or evicted, or left with a miss. -/
theorem Pending.examined_eq
    (hp : h.Pending)
    (hd : h.objects.Distinct)
    (reachable : List Handle) :
    (h.endCycle reachable).1.examined =
      (h.endCycle reachable).1.live + (h.endCycle reachable).1.collected +
        {handle | (h.endCycle reachable).2.misses.contains handle = true}.ncard := by
  have hdoomed : ∀ handle,
      (h.examines handle = true ∧ handle ∉ reachable) ∧ h.dooms reachable handle = true ↔
        h.dooms reachable handle = true := by
    intro handle
    refine and_iff_right_of_imp ?_
    intro hdooms
    obtain ⟨hexamined, hlost, -⟩ := (dooms_iff h reachable handle).1 hdooms
    exact ⟨hexamined, hlost⟩
  rw [endCycle_report hd]
  dsimp only
  rw [ncard_split _ fun handle => handle ∈ reachable,
    ncard_split (fun handle => h.examines handle = true ∧ handle ∉ reachable) fun handle =>
      h.dooms reachable handle = true]
  simp only [hdoomed, hp.endCycle_misses hd, and_assoc, Nat.add_assoc]

end Balance

section Order

variable {h h' : Heap} {n : Nat}

theorem Keyed.endCycle
    (hk : h.Keyed)
    (reachable : List Handle) :
    (h.endCycle reachable).2.Keyed := by
  rw [endCycle_heap]
  refine ⟨sweep_objects_distinct h hk.objects _, ?_, ?_⟩
  · refine List.foldlRecOn (motive := fun h' : Heap => h'.handles.Distinct) _ _ hk.handles ?_
    intro h' hd e _
    rw [evict]
    dsimp only
    split
    · exact hd.erase _
    · exact hd
  · have herase : ∀ (es : List (Handle × Object)) (t : Table Handle UInt32), t.Distinct →
        (es.foldl clearMisses t).Distinct := by
      intro es t ht
      exact List.foldlRecOn es clearMisses ht fun t ht e _ => ht.erase e.1
    have hcounted : (h.countedMisses reachable).Distinct :=
      List.foldlRecOn _ addMiss (herase _ _ hk.misses) fun t ht e _ => ht.insert e.1 _
    exact herase _ _ hcounted

/-- What an operation preserves. -/
theorem Keyed.after
    (hk : h.Keyed)
    (op : HeapOp) :
    (h.after op).Keyed := by
  cases op with
  | intern o =>
      show (h.intern o).2.Keyed
      rw [intern]
      split
      · exact hk
      · exact ⟨hk.objects.insert _ _, hk.handles.insert _ _, hk.misses⟩
  | resolve handle =>
      exact hk
  | beginCycle =>
      exact ⟨hk.objects, hk.handles, hk.misses⟩
  | endCycle reachable =>
      exact hk.endCycle reachable
  | cycle reachable =>
      obtain ⟨hobjects, hhandles, hmisses⟩ := hk.endCycle reachable
      exact ⟨hobjects, hhandles, hmisses⟩

/-- The heap of a run has no key twice. -/
theorem keyed_run
    (seed : UInt64)
    (hysteresis : UInt32)
    (ops : List HeapOp) :
    ((empty seed hysteresis).run ops).Keyed := by
  have hempty : (empty seed hysteresis).Keyed :=
    ⟨Table.distinct_empty, Table.distinct_empty, Table.distinct_empty⟩
  exact List.foldlRecOn ops Heap.after hempty fun h hk op _ => hk.after op

theorem Reordered.keyed
    (hr : h.Reordered h')
    (hk : h.Keyed) :
    h'.Keyed := by
  exact ⟨hk.objects.perm hr.objects, hk.handles.perm hr.handles, hk.misses.perm hr.misses⟩

theorem Reordered.contains_eq
    (hr : h.Reordered h')
    (hk : h.Keyed)
    (handle : Handle) :
    h'.contains handle = h.contains handle := by
  rw [contains, contains, Table.contains, Table.contains, Table.get?_of_perm hk.objects hr.objects]

theorem Reordered.examines_eq
    (hr : h.Reordered h')
    (hk : h.Keyed)
    (handle : Handle) :
    h'.examines handle = h.examines handle := by
  rw [examines, examines, hr.contains_eq hk, isDue_congr hr.base hr.boundary]

theorem Reordered.missesOf_eq
    (hr : h.Reordered h')
    (hk : h.Keyed)
    (handle : Handle) :
    h'.missesOf handle = h.missesOf handle := by
  rw [missesOf, missesOf, Table.get?_of_perm hk.misses hr.misses]

theorem Reordered.coherent
    (hr : h.Reordered h')
    (hk : h.Keyed)
    (hc : h.Coherent n) :
    h'.Coherent n := by
  refine ⟨hc.distinct.perm hr.objects, ?_, hr.issued ▸ hc.count, ?_⟩
  · intro handle id
    rw [Table.get?_of_perm hk.objects hr.objects, Table.get?_of_perm hk.handles hr.handles]
    exact hc.inverse handle id
  · intro handle hknown
    rw [hr.contains_eq hk] at hknown
    obtain ⟨i, hi, heq⟩ := hc.known handle hknown
    exact ⟨i, hi, heq.trans (nthHandle_congr hr.base i).symm⟩

variable {reachable reachable' : List Handle}

theorem Reordered.dooms_eq
    (hr : h.Reordered h')
    (hk : h.Keyed)
    (hsame : ∀ handle, handle ∈ reachable' ↔ handle ∈ reachable)
    (handle : Handle) :
    h'.dooms reachable' handle = h.dooms reachable handle := by
  rw [Bool.eq_iff_iff, dooms_iff, dooms_iff, hr.examines_eq hk, hr.missesOf_eq hk, hr.hysteresis,
    hsame]

/-- The report does not depend on any order. -/
theorem Reordered.endCycle_report
    (hr : h.Reordered h')
    (hk : h.Keyed)
    (hsame : ∀ handle, handle ∈ reachable' ↔ handle ∈ reachable) :
    (h'.endCycle reachable').1 = (h.endCycle reachable).1 := by
  rw [Heap.endCycle_report hk.objects, Heap.endCycle_report (hr.keyed hk).objects]
  simp only [hr.examines_eq hk, hr.dooms_eq hk hsame, hr.contains_eq hk, hsame]

/-- Nor does the heap that is left. -/
theorem Reordered.endCycle
    (hr : h.Reordered h')
    (hk : h.Keyed)
    (hc : h.Coherent n)
    (hsame : ∀ handle, handle ∈ reachable' ↔ handle ∈ reachable) :
    (h.endCycle reachable).2.Reordered (h'.endCycle reachable').2 := by
  have hkeyed := hk.endCycle reachable
  have hkeyed' := (hr.keyed hk).endCycle reachable'
  have hdooms := hr.dooms_eq hk hsame
  refine ⟨?_, ?_, ?_, ?_, congrArg (· + 1) hr.cycles, ?_, ?_, ?_⟩
  · rw [endCycle_base, endCycle_base, hr.base]
  · rw [endCycle_hysteresis, endCycle_hysteresis, hr.hysteresis]
  · rw [endCycle_issued, endCycle_issued, hr.issued]
  · rw [endCycle_boundary, endCycle_boundary, hr.boundary]
  · refine Table.perm_of_get? hkeyed.objects hkeyed'.objects ?_
    intro handle
    rw [endCycle_objects h' reachable' (hr.keyed hk).objects,
      endCycle_objects h reachable hk.objects, hdooms, Table.get?_of_perm hk.objects hr.objects]
  · refine Table.perm_of_get? hkeyed.handles hkeyed'.handles ?_
    intro id
    rw [(hr.coherent hk hc).endCycle_handles, hc.endCycle_handles,
      Table.get?_of_perm hk.handles hr.handles]
    simp only [hdooms]
  · refine Table.perm_of_get? hkeyed.misses hkeyed'.misses ?_
    intro handle
    rw [endCycle_misses h' reachable' handle (hr.keyed hk).objects,
      endCycle_misses h reachable handle hk.objects, hr.examines_eq hk, hr.missesOf_eq hk, hdooms,
      Table.get?_of_perm hk.misses hr.misses]
    simp only [hsame]

end Order

section Runs

variable {h : Heap} {n : Nat}

theorem pending_empty
    (seed : UInt64)
    (hysteresis : UInt32) :
    (empty seed hysteresis).Pending := by
  intro handle hmissed
  cases hmissed

theorem Pending.endCycle
    (hp : h.Pending)
    (hd : h.objects.Distinct)
    (reachable : List Handle) :
    (h.endCycle reachable).2.Pending := by
  intro handle hmissed
  obtain ⟨hexamined, -, hkept⟩ := (hp.endCycle_misses hd reachable handle).1 hmissed
  obtain ⟨hknown, hdue⟩ := Bool.and_eq_true_iff.1 hexamined
  rw [examines, (endCycle_contains hd reachable handle).2 ⟨hknown, hkept⟩,
    isDue_congr (endCycle_base h reachable) (endCycle_boundary h reachable), hdue]
  rfl

/-- Handles that are old enough stay so when a cycle begins. -/
theorem Coherent.pending_beginCycle
    (hc : h.Coherent n)
    (hp : h.Pending) :
    h.beginCycle.Pending := by
  intro handle hmissed
  obtain ⟨hknown, hdue⟩ := Bool.and_eq_true_iff.1 (hp handle hmissed)
  obtain ⟨i, hi, rfl⟩ := hc.known handle hknown
  exact Bool.and_eq_true_iff.2 ⟨hknown, (hc.after_isDue hi .beginCycle).2 (Or.inl hdue)⟩

/-- What an operation preserves. -/
theorem Coherent.pending_after
    (hc : h.Coherent n)
    (hp : h.Pending)
    (op : HeapOp) :
    (h.after op).Pending := by
  cases op with
  | intern o =>
      show (h.intern o).2.Pending
      cases ho : h.handleOf? o with
      | some handle =>
          rw [intern_of_some ho]
          exact hp
      | none =>
          rw [intern_of_none ho]
          intro handle hmissed
          obtain ⟨hknown, hdue⟩ := Bool.and_eq_true_iff.1 (hp handle hmissed)
          refine Bool.and_eq_true_iff.2 ⟨?_, hdue⟩
          rw [contains_iff] at hknown ⊢
          rw [Table.get?_insert]
          split
          · exact ⟨o, rfl⟩
          · exact hknown
  | resolve handle =>
      exact hp
  | beginCycle =>
      exact hc.pending_beginCycle hp
  | endCycle reachable =>
      exact hp.endCycle hc.distinct reachable
  | cycle reachable =>
      exact (hc.endCycle reachable).pending_beginCycle (hp.endCycle hc.distinct reachable)

/-- What a run preserves. -/
theorem Coherent.pending_run
    (hc : h.Coherent n)
    (hp : h.Pending)
    (ops : List HeapOp)
    (hn : n + (h.issues ops).length < UInt64.size) :
    (h.run ops).Pending := by
  have hstep := fun (h : Heap) n op (hc : h.Coherent n) (hp : h.Pending) =>
    hc.pending_after hp op
  exact (Coherent.run_induction (P := fun h _ => h.Pending) hstep hc hp ops hn).2

/-- What a run issues is issued at some position. -/
theorem exists_issuedAt
    {ops : List HeapOp}
    {handle : Handle}
    (hissued : handle ∈ h.issues ops) :
    ∃ p, p < ops.length ∧ IssuedAt h ops p handle := by
  induction ops generalizing h with
  | nil =>
      cases hissued
  | cons op ops ih =>
      rw [issues, List.mem_append] at hissued
      rcases hissued with hnow | hlater
      · exact ⟨0, Nat.succ_pos _, op, rfl, hnow⟩
      · obtain ⟨p, hp, op', hop', hmem⟩ := ih hlater
        exact ⟨p + 1, Nat.succ_lt_succ hp, op', hop', hmem⟩

variable {seed : UInt64} {hysteresis : UInt32} {ops : List HeapOp} {p : Nat} {handle : Handle}

/-- An issued handle is old enough as soon as a cycle began after its issue. -/
theorem IssuedAt.isDue_iff
    (few : ((empty seed hysteresis).issues ops).length < UInt64.size)
    (hissued : IssuedAt (empty seed hysteresis) ops p handle)
    {m : Nat}
    (hpm : p < m)
    (hm : m ≤ ops.length) :
    ((empty seed hysteresis).run (ops.take m)).isDue handle = true ↔ Eligible ops p m := by
  refine hissued.induction few
    (motive := fun m =>
      ((empty seed hysteresis).run (ops.take m)).isDue handle = true ↔ Eligible ops p m)
    ?_ ?_ hpm hm
  · intro op hop hmem
    rw [run_take_succ _ hop]
    exact ((coherent_take few p).tracked_issued (counted_take few p) hop hmem).2.due
  · intro m op i hpm hop hi hnow hdue
    rw [run_take_succ _ hop]
    rw [hnow] at hdue ⊢
    rw [(coherent_take few m).after_isDue hi, hdue, eligible_succ hpm]
    simp [BeginsAt, hop]

/-- The handles that the end of a cycle examines after a run. -/
theorem examines_run
    (few : ((empty seed hysteresis).issues ops).length < UInt64.size)
    (handle : Handle) :
    ((empty seed hysteresis).run ops).examines handle = true ↔
      ((empty seed hysteresis).run ops).contains handle = true ∧
        ∃ p, IssuedAt (empty seed hysteresis) ops p handle ∧ Eligible ops p ops.length := by
  have hdue : ∀ p, p < ops.length → IssuedAt (empty seed hysteresis) ops p handle →
      (((empty seed hysteresis).run ops).isDue handle = true ↔ Eligible ops p ops.length) := by
    intro p hp hissued
    have hiff := hissued.isDue_iff few hp (Nat.le_refl _)
    rwa [List.take_length] at hiff
  rw [examines, Bool.and_eq_true]
  refine and_congr_right ?_
  intro hknown
  have hissues : handle ∈ (empty seed hysteresis).issues ops := by
    obtain ⟨i, hi, heq⟩ := (coherent_run seed hysteresis ops few).known handle hknown
    rw [(coherent_empty seed hysteresis).issues_eq ops (by omega), heq,
      nthHandle_congr (run_base (empty seed hysteresis) ops)]
    exact List.mem_map_of_mem (List.mem_range'_1.2 (by omega))
  constructor
  · intro hdue'
    obtain ⟨p, hp, hissued⟩ := exists_issuedAt hissues
    exact ⟨p, hissued, (hdue p hp hissued).1 hdue'⟩
  · rintro ⟨p, hissued, heligible⟩
    exact (hdue p heligible.lt hissued).2 heligible

/-- What the report at the end of a cycle counts, after a run that issues fewer than `2 ^ 64`
handles.  Neither the order of the tables nor the order or repetition of the handles shown changes
the report or the heap that is left. -/
theorem run_report
    (seed : UInt64)
    (hysteresis : UInt32)
    (ops : List HeapOp)
    (few : ((empty seed hysteresis).issues ops).length < UInt64.size)
    (reachable : List Handle) :
    let start := empty seed hysteresis
    let h := start.run ops
    let report := (h.endCycle reachable).1
    let left := (h.endCycle reachable).2
    let old := fun handle => h.contains handle = true ∧
      ∃ p, IssuedAt start ops p handle ∧ Eligible ops p ops.length
    report.examined = {handle | old handle}.ncard ∧
      ((∀ i, ¬ BeginsAt ops i) → report.examined = 0) ∧
      report.live = {handle | old handle ∧ handle ∈ reachable}.ncard ∧
      report.collected + left.size = h.size ∧
      report.unrecognised = {handle | handle ∈ reachable ∧ h.contains handle = false}.ncard ∧
      report.examined = report.live + report.collected +
        {handle | left.misses.contains handle = true}.ncard ∧
      ∀ h' reachable', h.Reordered h' → (∀ handle, handle ∈ reachable' ↔ handle ∈ reachable) →
        (h'.endCycle reachable').1 = report ∧ left.Reordered (h'.endCycle reachable').2 := by
  intro start h report left old
  have hc : h.Coherent (start.issues ops).length := coherent_run seed hysteresis ops few
  have hk : h.Keyed := keyed_run seed hysteresis ops
  have hp : h.Pending :=
    (coherent_empty seed hysteresis).pending_run (pending_empty seed hysteresis) ops (by omega)
  have hold : ∀ handle, old handle ↔ h.examines handle = true :=
    fun handle => (examines_run few handle).symm
  have hreport : report = _ := endCycle_report hk.objects reachable
  have hexamined : report.examined = {handle | old handle}.ncard := by
    rw [hreport]
    simp only [hold]
  refine ⟨hexamined, ?_, ?_, collected_add_size hk.objects reachable, ?_,
    hp.examined_eq hk.objects reachable, ?_⟩
  · intro hnone
    have hempty : {handle | old handle} = ∅ := by
      ext handle
      refine iff_of_false ?_ id
      rintro ⟨-, p, -, i, -, -, hbegin⟩
      exact hnone i hbegin
    rw [hexamined, hempty, Set.ncard_empty]
  · rw [hreport]
    simp only [hold]
  · rw [hreport]
  · intro h' reachable' hr hsame
    exact ⟨hr.endCycle_report hk hsame, hr.endCycle hk hc hsame⟩

/-- Two handles are old enough.  The host shows the second of them, and three times one that is not
known; it shows the same in another order, to the same heap with its objects the other way round. -/
theorem run_report_shuffled :
    let ops := [HeapOp.intern { type := .text, id := 4 }, .intern { type := .text, id := 7 },
      .beginCycle, .intern { type := .text, id := 5 }]
    let h := (empty 1 1).run ops
    let h' := { h with objects := { entries := h.objects.entries.reverse } }
    (h.endCycle [⟨9⟩, ⟨2⟩, ⟨9⟩, ⟨9⟩]).1 =
        { examined := 2, live := 1, collected := 0, unrecognised := 1 } ∧
      (h'.endCycle [⟨2⟩, ⟨9⟩]).1 = (h.endCycle [⟨9⟩, ⟨2⟩, ⟨9⟩, ⟨9⟩]).1 ∧
      (h.endCycle [⟨9⟩, ⟨2⟩, ⟨9⟩, ⟨9⟩]).2.Reordered (h'.endCycle [⟨2⟩, ⟨9⟩]).2 := by
  intro ops h h'
  have hshuffled : h.Reordered h' :=
    ⟨rfl, rfl, rfl, rfl, rfl, (List.reverse_perm _).symm, .refl _, .refl _⟩
  have hsame : ∀ handle : Handle,
      handle ∈ [⟨2⟩, ⟨9⟩] ↔ handle ∈ ([⟨9⟩, ⟨2⟩, ⟨9⟩, ⟨9⟩] : List Handle) := by
    intro handle
    simp
    tauto
  have hlaw := run_report 1 1 ops (by decide) [⟨9⟩, ⟨2⟩, ⟨9⟩, ⟨9⟩]
  exact ⟨by decide, hlaw.2.2.2.2.2.2 h' [⟨2⟩, ⟨9⟩] hshuffled hsame⟩

end Runs

end Heap
end CellBridge
