import CellBridge.Proofs.Heap.Sweep

/-!
# Runs of the heap

A run is a list of operations in any order.  `issues` lists the handles that a run gives to objects
that had none, and `EvictedDuring` says that some end of a cycle in a run removes a handle.

The lemmas say how runs compose and which fields of the heap an operation leaves alone.
-/

namespace CellBridge

/-- An operation on the heap. -/
inductive HeapOp where
  | intern (o : Object)
  | resolve (handle : Handle)
  | beginCycle
  | endCycle (reachable : List Handle)
  | cycle (reachable : List Handle)

namespace HeapOp

/-- The handles that the operation reports as shown, if it ends a cycle. -/
def report? : HeapOp → Option (List Handle)
  | .endCycle reachable => some reachable
  | .cycle reachable => some reachable
  | _ => none

/-- Does the operation begin a cycle? -/
def begins : HeapOp → Bool
  | .beginCycle => true
  | .cycle _ => true
  | _ => false

end HeapOp

namespace Heap

section Defs

def after
    (h : Heap) : HeapOp → Heap
  | .intern o => (h.intern o).2
  | .resolve _ => h
  | .beginCycle => h.beginCycle
  | .endCycle reachable => (h.endCycle reachable).2
  | .cycle reachable => (h.cycle reachable).2

def run
    (h : Heap)
    (ops : List HeapOp) : Heap :=
  ops.foldl after h

/-- The handle that an operation issues: that of an object that had none. -/
def issuedBy
    (h : Heap) : HeapOp → List Handle
  | .intern o => if (h.handleOf? o).isSome then [] else [(h.intern o).1]
  | _ => []

/-- The handles that a run issues, in order. -/
def issues
    (h : Heap) : List HeapOp → List Handle
  | [] => []
  | op :: ops => h.issuedBy op ++ (h.after op).issues ops

/-- Does the operation end a cycle and remove the handle? -/
def Evicts
    (h : Heap)
    (op : HeapOp)
    (handle : Handle) : Prop :=
  op.report?.isSome = true ∧ h.contains handle = true ∧ (h.after op).contains handle = false

/-- Does some end of a cycle in the run remove the handle? -/
def EvictedDuring
    (h : Heap)
    (ops : List HeapOp)
    (handle : Handle) : Prop :=
  ∃ earlier op later, ops = earlier ++ op :: later ∧ (h.run earlier).Evicts op handle

/-- The handle issued after `i` others. -/
def nthHandle
    (h : Heap)
    (i : Nat) : Handle :=
  ⟨h.base + UInt64.ofNat i⟩

end Defs

section Runs

@[simp] theorem run_cons
    (h : Heap)
    (op : HeapOp)
    (ops : List HeapOp) :
    h.run (op :: ops) = (h.after op).run ops := by
  rfl

theorem run_append
    (h : Heap)
    (ops ops' : List HeapOp) :
    h.run (ops ++ ops') = (h.run ops).run ops' := by
  exact List.foldl_append

theorem issues_append
    (h : Heap)
    (ops ops' : List HeapOp) :
    h.issues (ops ++ ops') = h.issues ops ++ (h.run ops).issues ops' := by
  induction ops generalizing h with
  | nil =>
      rfl
  | cons op ops ih =>
      rw [List.cons_append, issues, issues, ih, List.append_assoc, run_cons]

theorem length_issues_cons
    (h : Heap)
    (op : HeapOp)
    (ops : List HeapOp) :
    (h.issues (op :: ops)).length =
      (h.issuedBy op).length + ((h.after op).issues ops).length := by
  rw [issues, List.length_append]

theorem run_take_succ
    (h : Heap)
    {ops : List HeapOp}
    {i : Nat}
    {op : HeapOp}
    (hop : ops[i]? = some op) :
    h.run (ops.take (i + 1)) = (h.run (ops.take i)).after op := by
  rw [List.take_add_one, hop, run_append]
  rfl

theorem issues_take_succ
    (h : Heap)
    {ops : List HeapOp}
    {i : Nat}
    {op : HeapOp}
    (hop : ops[i]? = some op) :
    h.issues (ops.take (i + 1)) =
      h.issues (ops.take i) ++ (h.run (ops.take i)).issuedBy op := by
  rw [List.take_add_one, hop, issues_append]
  show h.issues (ops.take i) ++ (_ ++ []) = _
  rw [List.append_nil]

theorem length_issues_take_le
    (h : Heap)
    (ops : List HeapOp)
    (i : Nat) :
    (h.issues (ops.take i)).length ≤ (h.issues ops).length := by
  have hsplit := issues_append h (ops.take i) (ops.drop i)
  rw [List.take_append_drop] at hsplit
  rw [hsplit, List.length_append]
  exact Nat.le_add_right _ _

theorem evictedDuring_nil
    (h : Heap)
    (handle : Handle) :
    ¬ h.EvictedDuring [] handle := by
  rintro ⟨earlier, op, later, hsplit, -⟩
  cases earlier <;> cases hsplit

theorem evictedDuring_cons
    (h : Heap)
    (op : HeapOp)
    (ops : List HeapOp)
    (handle : Handle) :
    h.EvictedDuring (op :: ops) handle ↔
      h.Evicts op handle ∨ (h.after op).EvictedDuring ops handle := by
  constructor
  · rintro ⟨earlier, op', later, hsplit, hev⟩
    cases earlier with
    | nil =>
        cases hsplit
        exact Or.inl hev
    | cons first rest =>
        cases hsplit
        exact Or.inr ⟨rest, op', later, rfl, hev⟩
  · rintro (hev | ⟨earlier, op', later, rfl, hev⟩)
    · exact ⟨[], op, ops, rfl, hev⟩
    · exact ⟨op :: earlier, op', later, rfl, hev⟩

theorem contains_iff
    (h : Heap)
    (handle : Handle) :
    h.contains handle = true ↔ ∃ o, h.objects.get? handle = some o := by
  rw [contains, Table.contains, Option.isSome_iff_exists]

theorem contains_eq_false_iff
    (h : Heap)
    (handle : Handle) :
    h.contains handle = false ↔ h.objects.get? handle = none := by
  rw [contains, Table.contains, Option.isSome_eq_false_iff, Option.isNone_iff_eq_none]

theorem endCycle_base
    (h : Heap)
    (reachable : List Handle) :
    (h.endCycle reachable).2.base = h.base := by
  rw [endCycle_heap]
  exact (sweep_counters h (h.doomed reachable)).1

theorem endCycle_hysteresis
    (h : Heap)
    (reachable : List Handle) :
    (h.endCycle reachable).2.hysteresis = h.hysteresis := by
  rw [endCycle_heap]
  exact (sweep_counters h (h.doomed reachable)).2.1

theorem endCycle_issued
    (h : Heap)
    (reachable : List Handle) :
    (h.endCycle reachable).2.issued = h.issued := by
  rw [endCycle_heap]
  exact (sweep_counters h (h.doomed reachable)).2.2.1

theorem endCycle_boundary
    (h : Heap)
    (reachable : List Handle) :
    (h.endCycle reachable).2.boundary = h.boundary := by
  rw [endCycle_heap]
  exact (sweep_counters h (h.doomed reachable)).2.2.2

theorem intern_of_some
    {h : Heap}
    {o : Object}
    {handle : Handle}
    (hh : h.handleOf? o = some handle) :
    h.intern o = (handle, h) := by
  have hg : h.handles.get? o.id = some handle := hh
  rw [intern, hg]

theorem intern_of_none
    {h : Heap}
    {o : Object}
    (hh : h.handleOf? o = none) :
    h.intern o =
      (h.nextHandle,
        { h with
          issued := h.issued + 1
          objects := h.objects.insert h.nextHandle o
          handles := h.handles.insert o.id h.nextHandle }) := by
  have hg : h.handles.get? o.id = none := hh
  rw [intern, hg]

theorem after_base
    (h : Heap)
    (op : HeapOp) :
    (h.after op).base = h.base := by
  cases op with
  | intern o =>
      show (h.intern o).2.base = h.base
      rw [intern]
      split <;> rfl
  | resolve handle =>
      rfl
  | beginCycle =>
      rfl
  | endCycle reachable =>
      exact endCycle_base h reachable
  | cycle reachable =>
      exact endCycle_base h reachable

theorem run_base
    (h : Heap)
    (ops : List HeapOp) :
    (h.run ops).base = h.base := by
  induction ops generalizing h with
  | nil =>
      rfl
  | cons op ops ih =>
      rw [run_cons, ih, after_base]

theorem after_hysteresis
    (h : Heap)
    (op : HeapOp) :
    (h.after op).hysteresis = h.hysteresis := by
  cases op with
  | intern o =>
      show (h.intern o).2.hysteresis = h.hysteresis
      rw [intern]
      split <;> rfl
  | resolve handle =>
      rfl
  | beginCycle =>
      rfl
  | endCycle reachable =>
      exact endCycle_hysteresis h reachable
  | cycle reachable =>
      exact endCycle_hysteresis h reachable

theorem run_hysteresis
    (h : Heap)
    (ops : List HeapOp) :
    (h.run ops).hysteresis = h.hysteresis := by
  induction ops generalizing h with
  | nil =>
      rfl
  | cons op ops ih =>
      rw [run_cons, ih, after_hysteresis]

end Runs

end Heap
end CellBridge
