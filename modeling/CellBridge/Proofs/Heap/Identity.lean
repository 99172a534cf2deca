import CellBridge.Proofs.Conversion.ActionRuns
import CellBridge.Proofs.Heap.Run

/-!
# Handles and identities

The heap gives every identity at most one handle and never gives a handle twice.

`Coherent h n` is the invariant: after `n` issued handles, the two tables are inverse to each other
and every interned handle is one of the first `n` from the base.  `Coherent.after` is the step, and
`Coherent.run_induction` the run, also for what else the operations preserve.  The count of issued
handles is the only thing that can wrap, and it does not as long as fewer than `2 ^ 64` handles are
issued.  Handles themselves may wrap.

`run_identity` collects what follows for the host: the tables are inverse, interning is stable,
handles are fresh, and a handle leads to its object until the end of the cycle that evicts it, and
nowhere from then on.
-/

namespace CellBridge
namespace Heap

section Coherence

/-- After `n` issued handles, the tables are inverse to each other and know no other handles. -/
structure Coherent
    (h : Heap)
    (n : Nat) : Prop where
  distinct : h.objects.Distinct
  inverse : ∀ handle id,
    (∃ o, h.objects.get? handle = some o ∧ o.id = id) ↔ h.handles.get? id = some handle
  count : h.issued.toNat = n
  known : ∀ handle, h.contains handle = true → ∃ i, i < n ∧ handle = h.nthHandle i

theorem nthHandle_congr
    {h h' : Heap}
    (hb : h'.base = h.base)
    (i : Nat) :
    h'.nthHandle i = h.nthHandle i := by
  rw [nthHandle, nthHandle, hb]

/-- The first `2 ^ 64` handles are different, wherever they start. -/
theorem nthHandle_inj
    {h : Heap}
    {i j : Nat}
    (hi : i < UInt64.size)
    (hj : j < UInt64.size)
    (heq : h.nthHandle i = h.nthHandle j) :
    i = j := by
  have hsum : h.base + UInt64.ofNat i = h.base + UInt64.ofNat j :=
    congrArg Handle.value heq
  have hnat := congrArg UInt64.toNat ((UInt64.add_right_inj h.base).1 hsum)
  rwa [UInt64.toNat_ofNat_of_lt' hi, UInt64.toNat_ofNat_of_lt' hj] at hnat

theorem coherent_empty
    (seed : UInt64)
    (hysteresis : UInt32) :
    (empty seed hysteresis).Coherent 0 := by
  refine ⟨Table.distinct_empty, ?_, rfl, ?_⟩
  · intro handle id
    constructor
    · rintro ⟨o, ho, -⟩
      cases ho
    · intro hid
      cases hid
  · intro handle hknown
    cases hknown

variable {h : Heap} {n : Nat}

theorem Coherent.nextHandle_eq
    (hc : h.Coherent n) :
    h.nextHandle = h.nthHandle n := by
  rw [nextHandle, nthHandle, ← hc.count, UInt64.ofNat_toNat]

/-- The next handle is none of those issued so far. -/
theorem Coherent.nextHandle_ne
    (hc : h.Coherent n)
    {i : Nat}
    (hi : i < n) :
    h.nthHandle i ≠ h.nextHandle := by
  have hn : n < UInt64.size := hc.count ▸ h.issued.toNat_lt_size
  intro heq
  rw [hc.nextHandle_eq] at heq
  exact Nat.ne_of_lt hi (nthHandle_inj (Nat.lt_trans hi hn) hn heq)

theorem Coherent.objects_nextHandle
    (hc : h.Coherent n) :
    h.objects.get? h.nextHandle = none := by
  rw [← contains_eq_false_iff, Bool.eq_false_iff]
  intro hknown
  obtain ⟨i, hi, heq⟩ := hc.known h.nextHandle hknown
  exact hc.nextHandle_ne hi heq.symm

/-- Two handles of one identity are the same. -/
theorem Coherent.eq_of_id_eq
    (hc : h.Coherent n)
    {a b : Handle} {o p : Object}
    (ha : h.objects.get? a = some o)
    (hb : h.objects.get? b = some p)
    (hid : o.id = p.id) :
    a = b := by
  have h₁ := (hc.inverse a p.id).1 ⟨o, ha, hid⟩
  have h₂ := (hc.inverse b p.id).1 ⟨p, hb, rfl⟩
  exact Option.some.inj (h₁.symm.trans h₂)

end Coherence

section Step

variable {h : Heap} {n : Nat}

theorem Coherent.intern_new
    (hc : h.Coherent n)
    (hn : n + 1 < UInt64.size)
    {o : Object}
    (ho : h.handleOf? o = none) :
    (h.intern o).2.Coherent (n + 1) := by
  have hnew := hc.objects_nextHandle
  have hid : h.handles.get? o.id = none := ho
  rw [intern_of_none ho]
  refine ⟨hc.distinct.insert _ _, ?_, ?_, ?_⟩
  · intro handle id
    simp only [Table.get?_insert]
    by_cases hh : h.nextHandle = handle <;> by_cases hi : o.id = id
    · simp [hh, hi]
    · subst hh
      simp only [if_true, Option.some.injEq, exists_eq_left', hi, false_iff]
      intro hmem
      obtain ⟨p, hp, -⟩ := (hc.inverse _ _).2 hmem
      rw [hnew] at hp
      cases hp
    · subst hi
      simp only [if_true, Option.some.injEq, hh, iff_false]
      rintro ⟨p, hp, hpid⟩
      rw [(hc.inverse _ _).1 ⟨p, hp, hpid⟩] at hid
      cases hid
    · simp only [if_neg hh, if_neg hi]
      exact hc.inverse handle id
  · show (h.issued + 1).toNat = n + 1
    rw [UInt64.toNat_add, hc.count]
    exact Nat.mod_eq_of_lt hn
  · intro handle hknown
    by_cases hh : h.nextHandle = handle
    · exact ⟨n, Nat.lt_succ_self n, hh.symm.trans hc.nextHandle_eq⟩
    · rw [contains, Table.contains, Table.get?_insert, if_neg hh] at hknown
      obtain ⟨i, hi, heq⟩ := hc.known handle hknown
      exact ⟨i, Nat.lt_succ_of_lt hi, heq⟩

/-- What the end of a cycle leaves in the table of handles. -/
theorem Coherent.endCycle_handles
    (hc : h.Coherent n)
    (reachable : List Handle)
    (id : Nat) :
    (h.endCycle reachable).2.handles.get? id =
      (h.handles.get? id).filter fun handle => !h.dooms reachable handle := by
  rw [endCycle_heap]
  show (h.sweep (h.doomed reachable)).handles.get? id = _
  rw [sweep_handles]
  cases hid : h.handles.get? id with
  | none =>
      simp
  | some handle =>
      have hkey := mem_keys_doomed h reachable handle hc.distinct
      have hany : (∃ e ∈ h.doomed reachable, id = e.2.id ∧ some handle = some e.1) ↔
          h.dooms reachable handle = true := by
        rw [← hkey]
        constructor
        · rintro ⟨e, he, -, heq⟩
          exact List.mem_map.2 ⟨e, he, (Option.some.inj heq).symm⟩
        · intro hm
          obtain ⟨e, he, rfl⟩ := List.mem_map.1 hm
          -- an entry that is evicted stands in the table, so the way back leads to it
          have hentry : h.objects.get? e.1 = some e.2 := by
            rw [← Table.mem_entries_iff hc.distinct]
            exact (List.mem_filter.1 (List.mem_filter.1 (List.mem_filter.1 he).1).1).1
          obtain ⟨o, ho, hoid⟩ := (hc.inverse _ _).2 hid
          rw [hentry] at ho
          cases ho
          exact ⟨e, he, hoid.symm, rfl⟩
      by_cases hd : h.dooms reachable handle = true
      · rw [if_pos (hany.2 hd)]
        simp [Option.filter, hd]
      · rw [if_neg (mt hany.1 hd)]
        simp [Option.filter, hd]

theorem Coherent.endCycle
    (hc : h.Coherent n)
    (reachable : List Handle) :
    (h.endCycle reachable).2.Coherent n := by
  have hobjects := endCycle_objects h reachable hc.distinct
  refine ⟨?_, ?_, ?_, ?_⟩
  · rw [endCycle_heap]
    exact sweep_objects_distinct h hc.distinct _
  · intro handle id
    rw [hobjects, hc.endCycle_handles]
    by_cases hd : h.dooms reachable handle = true
    · simp only [hd, if_true]
      constructor
      · rintro ⟨o, ho, -⟩
        cases ho
      · intro hf
        rw [Option.filter_eq_some_iff] at hf
        simp [hd] at hf
    · rw [if_neg hd, hc.inverse]
      constructor
      · intro hid
        rw [hid, Option.filter_eq_some_iff]
        exact ⟨rfl, by simp [hd]⟩
      · intro hf
        rw [Option.filter_eq_some_iff] at hf
        exact hf.1
  · rw [endCycle_issued, hc.count]
  · intro handle hknown
    rw [contains_iff, hobjects] at hknown
    obtain ⟨o, ho⟩ := hknown
    split at ho
    · cases ho
    · obtain ⟨i, hi, heq⟩ := hc.known handle ((contains_iff h handle).2 ⟨o, ho⟩)
      exact ⟨i, hi, heq.trans (nthHandle_congr (endCycle_base h reachable) i).symm⟩

theorem Coherent.beginCycle
    (hc : h.Coherent n) :
    h.beginCycle.Coherent n := by
  exact ⟨hc.distinct, hc.inverse, hc.count, hc.known⟩

/-- What an operation preserves, as long as the count of issued handles does not wrap. -/
theorem Coherent.after
    (hc : h.Coherent n)
    (op : HeapOp)
    (hn : n + (h.issuedBy op).length < UInt64.size) :
    (h.after op).Coherent (n + (h.issuedBy op).length) := by
  cases op with
  | intern o =>
      cases ho : h.handleOf? o with
      | some handle =>
          have hheap : h.after (.intern o) = h := congrArg Prod.snd (intern_of_some ho)
          have hnone : h.issuedBy (.intern o) = [] := by
            simp [issuedBy, ho]
          rw [hheap, hnone]
          exact hc
      | none =>
          have hone : h.issuedBy (.intern o) = [(h.intern o).1] := by
            simp [issuedBy, ho]
          rw [hone] at hn ⊢
          exact hc.intern_new hn ho
  | resolve handle =>
      exact hc
  | beginCycle =>
      exact hc.beginCycle
  | endCycle reachable =>
      exact hc.endCycle reachable
  | cycle reachable =>
      exact (hc.endCycle reachable).beginCycle

/-- What every operation preserves of a coherent heap is preserved by a run, and so is coherence. -/
theorem Coherent.run_induction
    {P : Heap → Nat → Prop}
    (hstep : ∀ (h : Heap) (n : Nat) (op : HeapOp),
      h.Coherent n → P h n → P (h.after op) (n + (h.issuedBy op).length))
    (hc : h.Coherent n)
    (hp : P h n)
    (ops : List HeapOp)
    (hn : n + (h.issues ops).length < UInt64.size) :
    (h.run ops).Coherent (n + (h.issues ops).length) ∧
      P (h.run ops) (n + (h.issues ops).length) := by
  induction ops generalizing h n with
  | nil =>
      exact ⟨hc, hp⟩
  | cons op ops ih =>
      rw [issues, List.length_append, ← Nat.add_assoc] at hn ⊢
      exact ih (hc.after op (by omega)) (hstep h n op hc hp) hn

theorem Coherent.run
    (hc : h.Coherent n)
    (ops : List HeapOp)
    (hn : n + (h.issues ops).length < UInt64.size) :
    (h.run ops).Coherent (n + (h.issues ops).length) := by
  exact (run_induction (P := fun _ _ => True) (fun _ _ _ _ _ => trivial) hc trivial ops hn).1

/-- An operation issues at most the next handle. -/
theorem Coherent.issuedBy_eq
    (hc : h.Coherent n)
    (op : HeapOp) :
    h.issuedBy op = (List.range' n (h.issuedBy op).length).map h.nthHandle := by
  cases op with
  | intern o =>
      cases ho : h.handleOf? o with
      | some handle =>
          simp [issuedBy, ho]
      | none =>
          simp [issuedBy, ho, intern_of_none ho, hc.nextHandle_eq]
  | _ =>
      rfl

/-- A run issues the handles from the base on, one after the other. -/
theorem Coherent.issues_eq
    (hc : h.Coherent n)
    (ops : List HeapOp)
    (hn : n + (h.issues ops).length < UInt64.size) :
    h.issues ops = (List.range' n (h.issues ops).length).map h.nthHandle := by
  induction ops generalizing h n with
  | nil =>
      rfl
  | cons op ops ih =>
      have hsplit := length_issues_cons h op ops
      have htail := ih (hc.after op (by omega)) (by omega)
      have hmap : (h.after op).nthHandle = h.nthHandle :=
        funext (nthHandle_congr (after_base h op))
      rw [hmap] at htail
      rw [issues, List.length_append, ← List.range'_append_1, List.map_append, ← htail,
        ← hc.issuedBy_eq op]

end Step

section Lifetime

variable {h : Heap} {n : Nat}

/-- The fate of an issued handle in one operation: it keeps its object unless a report evicts
it. -/
theorem Coherent.after_objects
    (hc : h.Coherent n)
    {i : Nat}
    (hi : i < n)
    (op : HeapOp) :
    (h.after op).objects.get? (h.nthHandle i) = h.objects.get? (h.nthHandle i) ∨
      h.Evicts op (h.nthHandle i) ∧ (h.after op).objects.get? (h.nthHandle i) = none := by
  have hend : ∀ reachable,
      (h.endCycle reachable).2.objects.get? (h.nthHandle i) = h.objects.get? (h.nthHandle i) ∨
        (h.contains (h.nthHandle i) = true ∧
          (h.endCycle reachable).2.objects.get? (h.nthHandle i) = none) := by
    intro reachable
    rw [endCycle_objects h reachable hc.distinct]
    split
    · rename_i hd
      right
      simp only [dooms, examines, Bool.and_eq_true] at hd
      exact ⟨hd.1.1.1, rfl⟩
    · exact Or.inl rfl
  cases op with
  | intern o =>
      left
      show (h.intern o).2.objects.get? _ = _
      cases ho : h.handleOf? o with
      | some handle =>
          rw [intern_of_some ho]
      | none =>
          rw [intern_of_none ho]
          exact (Table.get?_insert _ _ _ _).trans (if_neg (hc.nextHandle_ne hi).symm)
  | resolve handle =>
      exact Or.inl rfl
  | beginCycle =>
      exact Or.inl rfl
  | endCycle reachable =>
      refine (hend reachable).imp_right ?_
      rintro ⟨hknown, hnone⟩
      exact ⟨⟨rfl, hknown, (contains_eq_false_iff _ _).2 hnone⟩, hnone⟩
  | cycle reachable =>
      refine (hend reachable).imp_right ?_
      rintro ⟨hknown, hnone⟩
      exact ⟨⟨rfl, hknown, (contains_eq_false_iff _ _).2 hnone⟩, hnone⟩

/-- A handle that is not interned is not evicted, and never comes back. -/
theorem Coherent.run_objects_none
    (hc : h.Coherent n)
    {i : Nat}
    (hi : i < n)
    (hnone : h.objects.get? (h.nthHandle i) = none)
    (ops : List HeapOp)
    (hn : n + (h.issues ops).length < UInt64.size) :
    (h.run ops).objects.get? (h.nthHandle i) = none := by
  induction ops generalizing h n with
  | nil =>
      exact hnone
  | cons op ops ih =>
      have hsplit := length_issues_cons h op ops
      have hbase := nthHandle_congr (after_base h op) i
      have hnext : (h.after op).objects.get? (h.nthHandle i) = none := by
        rcases hc.after_objects hi op with hsame | ⟨-, hgone⟩
        · exact hsame.trans hnone
        · exact hgone
      have htail := ih (hc.after op (by omega)) (by omega) (hbase ▸ hnext) (by omega)
      rwa [hbase] at htail

/-- The fate of an issued handle in a run. -/
theorem Coherent.run_objects
    (hc : h.Coherent n)
    {i : Nat}
    (hi : i < n)
    (ops : List HeapOp)
    (hn : n + (h.issues ops).length < UInt64.size) :
    (¬ h.EvictedDuring ops (h.nthHandle i) →
        (h.run ops).objects.get? (h.nthHandle i) = h.objects.get? (h.nthHandle i)) ∧
      (h.EvictedDuring ops (h.nthHandle i) →
        (h.run ops).objects.get? (h.nthHandle i) = none) := by
  induction ops generalizing h n with
  | nil =>
      exact ⟨fun _ => rfl, fun hev => absurd hev (evictedDuring_nil h _)⟩
  | cons op ops ih =>
      have hsplit := length_issues_cons h op ops
      have hbase := nthHandle_congr (after_base h op) i
      have hc' := hc.after op (by omega)
      have htail := ih hc' (by omega) (by omega)
      rw [hbase] at htail
      rw [evictedDuring_cons, run_cons]
      constructor
      · intro hkept
        rw [not_or] at hkept
        rcases hc.after_objects hi op with hsame | ⟨hev, -⟩
        · exact (htail.1 hkept.2).trans hsame
        · exact absurd hev hkept.1
      · rintro (hev | hev)
        · have hgone := (contains_eq_false_iff _ _).1 hev.2.2
          rw [← hbase] at hgone ⊢
          exact hc'.run_objects_none (by omega) hgone ops (by omega)
        · exact htail.2 hev

end Lifetime

section Runs

/-- The heap of a run from the empty heap is coherent. -/
theorem coherent_run
    (seed : UInt64)
    (hysteresis : UInt32)
    (ops : List HeapOp)
    (few : ((empty seed hysteresis).issues ops).length < UInt64.size) :
    ((empty seed hysteresis).run ops).Coherent ((empty seed hysteresis).issues ops).length := by
  have hc := (coherent_empty seed hysteresis).run ops (by omega)
  rwa [Nat.zero_add] at hc

/-- A handle that is not in use yet was never issued. -/
theorem nextHandle_not_issued
    (seed : UInt64)
    (hysteresis : UInt32)
    (ops : List HeapOp)
    (few : ((empty seed hysteresis).issues ops).length < UInt64.size) :
    ((empty seed hysteresis).run ops).nextHandle ∉ (empty seed hysteresis).issues ops := by
  intro hmem
  rw [(coherent_empty seed hysteresis).issues_eq ops (by omega)] at hmem
  obtain ⟨i, hi, heq⟩ := List.mem_map.1 hmem
  rw [List.mem_range'_1, Nat.zero_add] at hi
  rw [← nthHandle_congr (run_base (empty seed hysteresis) ops)] at heq
  exact (coherent_run seed hysteresis ops few).nextHandle_ne hi.2 heq

variable {h : Heap} {n : Nat}

/-- The handle that an object gets leads to an object of its identity. -/
theorem Coherent.objects_intern
    (hc : h.Coherent n)
    (o : Object) :
    ∃ p, (h.intern o).2.objects.get? (h.intern o).1 = some p ∧ p.id = o.id := by
  cases ho : h.handleOf? o with
  | some handle =>
      rw [intern_of_some ho]
      exact (hc.inverse handle o.id).2 ho
  | none =>
      rw [intern_of_none ho]
      exact ⟨o, (Table.get?_insert _ _ _ _).trans (if_pos rfl), rfl⟩

/-- The fate of the handle that an object gets, in the run that follows. -/
theorem Coherent.intern_run
    (hc : h.Coherent n)
    (o : Object)
    (later : List HeapOp)
    (hn : n + (h.issues (.intern o :: later)).length < UInt64.size)
    (store : Store) :
    let issued := h.intern o
    let w : World := { store := store, heap := issued.2.run later }
    (¬ issued.2.EvictedDuring later issued.1 →
        ∃ p, p.id = o.id ∧ Action.resolve issued.1 w = (.ok p, w)) ∧
      (issued.2.EvictedDuring later issued.1 →
        Action.resolve issued.1 w = (.error (.failed (.notFound issued.1)), w)) := by
  intro issued w
  have hsplit : (h.issues (.intern o :: later)).length =
      (h.issuedBy (.intern o)).length + (issued.2.issues later).length :=
    length_issues_cons h (.intern o) later
  have hc' : issued.2.Coherent (n + (h.issuedBy (.intern o)).length) :=
    hc.after (.intern o) (by omega)
  obtain ⟨p, hp, hpid⟩ := hc.objects_intern o
  obtain ⟨i, hi, heq⟩ := hc'.known issued.1 ((contains_iff _ _).2 ⟨p, hp⟩)
  have hfate := hc'.run_objects hi later (by omega)
  rw [← heq] at hfate
  constructor
  · intro hkept
    refine ⟨p, hpid, ?_⟩
    have hfound : w.heap.resolve? issued.1 = some p := (hfate.1 hkept).trans hp
    rw [Action.resolve_run, hfound]
  · intro hev
    have hgone : w.heap.resolve? issued.1 = none := hfate.2 hev
    rw [Action.resolve_run, hgone]

/-- Handles and identities in every run that issues fewer than `2 ^ 64` handles, from any base. -/
theorem run_identity
    (seed : UInt64)
    (hysteresis : UInt32)
    (ops : List HeapOp)
    (few : ((empty seed hysteresis).issues ops).length < UInt64.size) :
    let start := empty seed hysteresis
    let h := start.run ops
    (∀ handle id,
        (∃ o, h.objects.get? handle = some o ∧ o.id = id) ↔
          h.handles.get? id = some handle) ∧
      (∀ o handle, h.handleOf? o = some handle → h.intern o = (handle, h)) ∧
      (∀ o, h.handleOf? o = none → (h.intern o).1 ∉ start.issues ops) ∧
      (∀ a b o p,
        h.objects.get? a = some o → h.objects.get? b = some p → o.id = p.id → a = b) ∧
      ∀ before o later, ops = before ++ .intern o :: later →
        let issued := (start.run before).intern o
        ∀ store,
          (¬ issued.2.EvictedDuring later issued.1 →
              ∃ p, p.id = o.id ∧
                Action.resolve issued.1 { store := store, heap := h } =
                  (.ok p, { store := store, heap := h })) ∧
            (issued.2.EvictedDuring later issued.1 →
              Action.resolve issued.1 { store := store, heap := h } =
                (.error (.failed (.notFound issued.1)), { store := store, heap := h })) := by
  intro start h
  have hc : h.Coherent _ := coherent_run seed hysteresis ops few
  refine ⟨hc.inverse, ?_, ?_, ?_, ?_⟩
  · intro o handle ho
    exact intern_of_some ho
  · intro o ho
    rw [intern_of_none ho]
    exact nextHandle_not_issued seed hysteresis ops few
  · intro a b o p ha hb hid
    exact hc.eq_of_id_eq ha hb hid
  · intro before o later hops issued store
    have hlength : ((empty seed hysteresis).issues ops).length =
        ((empty seed hysteresis).issues before).length +
          (((empty seed hysteresis).run before).issues (.intern o :: later)).length := by
      rw [hops, issues_append, List.length_append]
    have hbefore := coherent_run seed hysteresis before (by omega)
    have hfate := hbefore.intern_run o later (by omega) store
    have hrun : issued.2.run later = h := by
      show ((start.run before).after (.intern o)).run later = start.run ops
      rw [hops, run_append, run_cons]
    rwa [← hrun]

/-- The last handle of the range is followed by the first one; the object that was evicted gets
the new handle, and the old one leads nowhere. -/
theorem run_identity_wrapped :
    let o : Object := { type := .text, id := 0 }
    let first : Handle := ⟨UInt64.ofNat (UInt64.size - 1)⟩
    let ops := [HeapOp.intern o, .beginCycle, .endCycle [], .intern o]
    let h := (empty first.value 0).run ops
    h.handleOf? o = some ⟨0⟩ ∧
      ∀ store,
        Action.resolve first { store := store, heap := h } =
          (.error (.failed (.notFound first)), { store := store, heap := h }) := by
  intro o first ops h
  have hall := run_identity first.value 0 ops (by decide)
  refine ⟨by decide, ?_⟩
  intro store
  refine (hall.2.2.2.2 [] o [.beginCycle, .endCycle [], .intern o] rfl store).2 ?_
  exact ⟨[.beginCycle], .endCycle [], [.intern o], rfl, rfl, by decide, by decide⟩

end Runs

end Heap
end CellBridge
