import CellBridge.Proofs.Conversion.ActionRuns
import CellBridge.Proofs.Heap.Run
import Mathlib.Algebra.Ring.Basic
import Mathlib.Data.UInt

/-!
# The seed does not show

A heap counts its handles up from its seed.  `Heap.shift` moves the seed and every handle of a heap
by one distance, around the end of the handle range where it has to.  Nothing that the heap does
looks at a handle but to compare it with another one or to take its distance from the seed, so the
shifted heap does the same with shifted handles: `answer_shift` and `next_shift` are the step for
one call, `transcript_shift` the run.

`transcript_of_seed` says it for the empty heaps of two seeds.  It bounds neither the length of the
run nor the number of handles, and it does not matter which of the two heaps passes the end of the
range.
-/

namespace CellBridge

section Defs

/-- The handle that lies a distance further on, around the end of the range. -/
def Handle.shift
    (d : UInt64)
    (handle : Handle) : Handle :=
  ⟨handle.value + d⟩

/-- The same fault about the shifted handle. -/
def Fault.shift
    (d : UInt64) : Fault → Fault
  | .failed (.notFound handle) => .failed (.notFound (handle.shift d))
  | f => f

/-- The operation with all its handles shifted. -/
def HeapOp.shift
    (d : UInt64) : HeapOp → HeapOp
  | .intern o => .intern o
  | .resolve handle => .resolve (handle.shift d)
  | .beginCycle => .beginCycle
  | .endCycle reachable => .endCycle (reachable.map (Handle.shift d))
  | .cycle reachable => .cycle (reachable.map (Handle.shift d))

/-- A call on the heap: an operation, or a question that changes nothing. -/
inductive HeapCall where
  | operate (op : HeapOp)
  | contains (handle : Handle)
  | handleOf (o : Object)

/-- The call with all its handles shifted. -/
def HeapCall.shift
    (d : UInt64) : HeapCall → HeapCall
  | .operate op => .operate (op.shift d)
  | .contains handle => .contains (handle.shift d)
  | .handleOf o => .handleOf o

/-- What a call on the heap gives back. -/
inductive HeapAnswer where
  | done
  | interned (handle : Handle)
  | resolved (result : Except Fault Object)
  | report (r : CycleReport)
  | known (yes : Bool)
  | handleOf (found : Option Handle)

/-- The answer with all its handles shifted.  Objects and reports stay as they are. -/
def HeapAnswer.shift
    (d : UInt64) : HeapAnswer → HeapAnswer
  | .done => .done
  | .interned handle => .interned (handle.shift d)
  | .resolved result => .resolved (result.mapError (Fault.shift d))
  | .report r => .report r
  | .known yes => .known yes
  | .handleOf found => .handleOf (found.map (Handle.shift d))

namespace Heap

/-- What a call gives back.  The store plays no part in it. -/
def answer
    (h : Heap) : HeapCall → HeapAnswer
  | .operate (.intern o) => .interned (h.intern o).1
  | .operate (.resolve handle) =>
      .resolved (Action.resolve handle { store := .empty, heap := h }).1
  | .operate .beginCycle => .done
  | .operate (.endCycle reachable) => .report (h.endCycle reachable).1
  | .operate (.cycle reachable) => .report (h.cycle reachable).1
  | .contains handle => .known (h.contains handle)
  | .handleOf o => .handleOf (h.handleOf? o)

def next
    (h : Heap) : HeapCall → Heap
  | .operate op => h.after op
  | .contains _ => h
  | .handleOf _ => h

/-- What a run of calls shows: the answer to each call, and the number of objects after it. -/
def transcript
    (h : Heap) : List HeapCall → List (HeapAnswer × Nat)
  | [] => []
  | call :: calls => (h.answer call, (h.next call).size) :: (h.next call).transcript calls

/-- The heap with its seed and all its handles shifted. -/
def shift
    (d : UInt64)
    (h : Heap) : Heap :=
  { h with
    base := h.base + d
    objects := h.objects.mapKeys (Handle.shift d)
    handles := h.handles.mapValues (Handle.shift d)
    misses := h.misses.mapKeys (Handle.shift d) }

/-- An entry of the table of objects with its handle shifted. -/
def shiftEntry
    (d : UInt64)
    (e : Handle × Object) : Handle × Object :=
  (e.1.shift d, e.2)

end Heap

end Defs

section Lists

/-- Repetitions are the same after an injective change of all members. -/
theorem eraseDups_map
    {α β : Type}
    [DecidableEq α]
    [DecidableEq β]
    {f : α → β}
    (hf : Function.Injective f) :
    ∀ l : List α, (l.map f).eraseDups = l.eraseDups.map f
  | [] => rfl
  | a :: l => by
      have hshorter : (l.filter fun b => !b == a).length < l.length + 1 :=
        Nat.lt_succ_of_le (List.length_filter_le _ _)
      have hrest : ((l.map f).filter fun b => !b == f a) = (l.filter fun b => !b == a).map f := by
        rw [List.filter_map]
        simp [Function.comp_def, beq_eq_decide, hf.eq_iff]
      rw [List.map_cons, List.eraseDups_cons, List.eraseDups_cons, List.map_cons, hrest,
        eraseDups_map hf]
termination_by l => l.length

end Lists

namespace Heap

variable (d : UInt64) (h : Heap)

section Handles

theorem shift_injective :
    Function.Injective (Handle.shift d) := by
  intro a b hab
  have hvalue := (UInt64.add_left_inj d).1 (congrArg Handle.value hab)
  cases a
  cases b
  cases hvalue
  rfl

/-- A handle keeps its place in the order of issue. -/
theorem ordinal_shift
    (handle : Handle) :
    (h.shift d).ordinal (handle.shift d) = h.ordinal handle := by
  exact add_sub_add_right_eq_sub handle.value h.base d

theorem isDue_shift
    (handle : Handle) :
    (h.shift d).isDue (handle.shift d) = h.isDue handle := by
  rw [isDue, isDue, ordinal_shift]
  rfl

theorem nextHandle_shift :
    (h.shift d).nextHandle = h.nextHandle.shift d := by
  exact congrArg Handle.mk (add_right_comm h.base d h.issued)

theorem resolve?_shift
    (handle : Handle) :
    (h.shift d).resolve? (handle.shift d) = h.resolve? handle := by
  exact Table.get?_mapKeys (shift_injective d) h.objects handle

theorem contains_shift
    (handle : Handle) :
    (h.shift d).contains (handle.shift d) = h.contains handle := by
  exact congrArg Option.isSome (resolve?_shift d h handle)

theorem handleOf?_shift
    (o : Object) :
    (h.shift d).handleOf? o = (h.handleOf? o).map (Handle.shift d) := by
  exact Table.get?_mapValues (Handle.shift d) h.handles o.id

theorem size_shift :
    (h.shift d).size = h.size := by
  exact List.length_map _

theorem intern_shift
    (o : Object) :
    (h.shift d).intern o = ((h.intern o).1.shift d, (h.intern o).2.shift d) := by
  have hof := handleOf?_shift d h o
  cases ho : h.handleOf? o with
  | some handle =>
      rw [ho] at hof
      rw [intern_of_some ho, intern_of_some hof]
  | none =>
      rw [ho] at hof
      rw [intern_of_none ho, intern_of_none hof, nextHandle_shift]
      simp [shift, Table.mapKeys_insert (shift_injective d)]

end Handles

section Reports

variable (reachable : List Handle)

theorem mem_map_shift
    (handle : Handle) :
    handle.shift d ∈ reachable.map (Handle.shift d) ↔ handle ∈ reachable := by
  exact List.mem_map_of_injective (shift_injective d)

theorem due_shift :
    (h.shift d).due = h.due.map (shiftEntry d) := by
  show ((h.objects.entries.map (shiftEntry d)).filter fun e => (h.shift d).isDue e.1) = _
  rw [List.filter_map, due]
  exact congrArg (List.map (shiftEntry d)) (List.filter_congr fun e _ => isDue_shift d h e.1)

theorem live_shift :
    (h.shift d).live (reachable.map (Handle.shift d)) =
      (h.live reachable).map (shiftEntry d) := by
  rw [live, due_shift, List.filter_map, live]
  refine congrArg (List.map (shiftEntry d)) (List.filter_congr fun e _ => ?_)
  exact decide_eq_decide.2 (mem_map_shift d reachable e.1)

theorem lost_shift :
    (h.shift d).lost (reachable.map (Handle.shift d)) =
      (h.lost reachable).map (shiftEntry d) := by
  rw [lost, due_shift, List.filter_map, lost]
  refine congrArg (List.map (shiftEntry d)) (List.filter_congr fun e _ => ?_)
  exact decide_eq_decide.2 (not_congr (mem_map_shift d reachable e.1))

/-- The misses of many entries are forgotten. -/
theorem foldl_clearMisses_shift
    (es : List (Handle × Object))
    (misses : Table Handle UInt32) :
    (es.map (shiftEntry d)).foldl clearMisses (misses.mapKeys (Handle.shift d)) =
      (es.foldl clearMisses misses).mapKeys (Handle.shift d) := by
  rw [List.foldl_map]
  exact List.foldl_hom _ fun misses e => (Table.mapKeys_erase (shift_injective d) misses e.1).symm

/-- The misses of many entries are counted. -/
theorem foldl_addMiss_shift
    (es : List (Handle × Object))
    (misses : Table Handle UInt32) :
    (es.map (shiftEntry d)).foldl addMiss (misses.mapKeys (Handle.shift d)) =
      (es.foldl addMiss misses).mapKeys (Handle.shift d) := by
  rw [List.foldl_map]
  refine List.foldl_hom _ fun misses e => ?_
  show (misses.mapKeys _).insert (e.1.shift d)
    (((misses.mapKeys _).get? (e.1.shift d)).getD 0 + 1) = _
  rw [Table.get?_mapKeys (shift_injective d)]
  exact (Table.mapKeys_insert (shift_injective d) misses e.1 _).symm

theorem countedMisses_shift :
    (h.shift d).countedMisses (reachable.map (Handle.shift d)) =
      (h.countedMisses reachable).mapKeys (Handle.shift d) := by
  rw [countedMisses, lost_shift, live_shift, countedMisses, ← foldl_addMiss_shift,
    ← foldl_clearMisses_shift]
  rfl

theorem doomed_shift :
    (h.shift d).doomed (reachable.map (Handle.shift d)) =
      (h.doomed reachable).map (shiftEntry d) := by
  rw [doomed, lost_shift, countedMisses_shift, List.filter_map, doomed]
  refine congrArg (List.map (shiftEntry d)) (List.filter_congr fun e _ => ?_)
  show decide (h.hysteresis < (((h.countedMisses reachable).mapKeys _).get? (e.1.shift d)).getD 0) =
    _
  rw [Table.get?_mapKeys (shift_injective d)]
  rfl

theorem evict_shift
    (handle : Handle)
    (id : Nat) :
    (h.shift d).evict (handle.shift d) id = (h.evict handle id).shift d := by
  have hback : (h.shift d).handles.get? id = some (handle.shift d) ↔
      h.handles.get? id = some handle := by
    show (h.handles.mapValues _).get? id = some (handle.shift d) ↔ _
    rw [Table.get?_mapValues, ← Option.map_some]
    exact (Option.map_injective (shift_injective d)).eq_iff
  simp only [evict, hback]
  split
  · simp [shift, Table.mapKeys_erase (shift_injective d), Table.mapValues_erase]
  · simp [shift, Table.mapKeys_erase (shift_injective d)]

theorem sweep_shift
    (es : List (Handle × Object)) :
    (h.shift d).sweep (es.map (shiftEntry d)) = (h.sweep es).shift d := by
  rw [sweep, List.foldl_map]
  exact List.foldl_hom (shift d) fun h e => evict_shift d h e.1 e.2.id

/-- The end of a cycle gives the same report. -/
theorem endCycle_shift :
    (h.shift d).endCycle (reachable.map (Handle.shift d)) =
      ((h.endCycle reachable).1, (h.endCycle reachable).2.shift d) := by
  refine Prod.ext ?_ ?_
  · have hunknown : ((reachable.map (Handle.shift d)).eraseDups.filter fun r =>
        !(h.shift d).contains r).length =
        (reachable.eraseDups.filter fun r => !h.contains r).length := by
      rw [eraseDups_map (shift_injective d), List.filter_map, List.length_map]
      exact congrArg List.length (List.filter_congr fun r _ => by
        rw [Function.comp_apply, contains_shift])
    show CycleReport.mk (h.shift d).due.length
      ((h.shift d).live (reachable.map (Handle.shift d))).length
      ((h.shift d).doomed (reachable.map (Handle.shift d))).length _ = _
    rw [due_shift, live_shift, doomed_shift, hunknown, List.length_map, List.length_map,
      List.length_map]
    rfl
  · rw [endCycle_heap, endCycle_heap, doomed_shift, countedMisses_shift, sweep_shift,
      foldl_clearMisses_shift]
    rfl

theorem cycle_shift :
    (h.shift d).cycle (reachable.map (Handle.shift d)) =
      ((h.cycle reachable).1, (h.cycle reachable).2.shift d) := by
  rw [cycle, endCycle_shift]
  rfl

end Reports

section Runs

/-- What an operation does to a shifted heap. -/
theorem after_shift
    (op : HeapOp) :
    (h.shift d).after (op.shift d) = (h.after op).shift d := by
  cases op with
  | intern o =>
      exact congrArg Prod.snd (intern_shift d h o)
  | resolve handle =>
      rfl
  | beginCycle =>
      rfl
  | endCycle reachable =>
      exact congrArg Prod.snd (endCycle_shift d h reachable)
  | cycle reachable =>
      exact congrArg Prod.snd (cycle_shift d h reachable)

/-- What a call does to a shifted heap. -/
theorem next_shift
    (call : HeapCall) :
    (h.shift d).next (call.shift d) = (h.next call).shift d := by
  cases call with
  | operate op =>
      exact after_shift d h op
  | contains handle =>
      rfl
  | handleOf o =>
      rfl

/-- What a shifted heap answers. -/
theorem answer_shift
    (call : HeapCall) :
    (h.shift d).answer (call.shift d) = (h.answer call).shift d := by
  cases call with
  | operate op =>
      cases op with
      | intern o =>
          have hissued := congrArg Prod.fst (intern_shift d h o)
          exact congrArg HeapAnswer.interned hissued
      | resolve handle =>
          show HeapAnswer.resolved (Action.resolve (handle.shift d) _).1 =
            .resolved ((Action.resolve handle _).1.mapError _)
          rw [Action.resolve_run, Action.resolve_run]
          dsimp only
          rw [resolve?_shift]
          cases h.resolve? handle <;> rfl
      | beginCycle =>
          rfl
      | endCycle reachable =>
          have hreport := congrArg Prod.fst (endCycle_shift d h reachable)
          exact congrArg HeapAnswer.report hreport
      | cycle reachable =>
          have hreport := congrArg Prod.fst (cycle_shift d h reachable)
          exact congrArg HeapAnswer.report hreport
  | contains handle =>
      exact congrArg HeapAnswer.known (contains_shift d h handle)
  | handleOf o =>
      exact congrArg HeapAnswer.handleOf (handleOf?_shift d h o)

/-- What a run of calls on a shifted heap shows. -/
theorem transcript_shift
    (calls : List HeapCall) :
    (h.shift d).transcript (calls.map (HeapCall.shift d)) =
      (h.transcript calls).map fun shown => (shown.1.shift d, shown.2) := by
  induction calls generalizing h with
  | nil =>
      rfl
  | cons call calls ih =>
      rw [List.map_cons, transcript, transcript, List.map_cons, answer_shift, next_shift, ih,
        size_shift]

/-- The empty heap of one seed is that of another one, shifted. -/
theorem empty_shift
    (s t : UInt64)
    (hysteresis : UInt32) :
    (empty s hysteresis).shift (t - s) = empty t hysteresis := by
  show { empty s hysteresis with base := s + (t - s) } = empty t hysteresis
  rw [add_sub_cancel]
  rfl

/-- Heaps of two seeds show the same in every run of calls, up to the distance of the seeds: handles
differ by it, and all else is equal, step by step. -/
theorem transcript_of_seed
    (s t : UInt64)
    (hysteresis : UInt32)
    (calls : List HeapCall) :
    (empty t hysteresis).transcript (calls.map (HeapCall.shift (t - s))) =
      ((empty s hysteresis).transcript calls).map fun shown =>
        (shown.1.shift (t - s), shown.2) := by
  rw [← empty_shift s t]
  exact transcript_shift (t - s) (empty s hysteresis) calls

end Runs

end Heap
end CellBridge
