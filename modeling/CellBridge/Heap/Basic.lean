import CellBridge.Heap.Table
import CellBridge.Managed.Object

/-!
# The heap

Objects that the host refers to are interned in the heap, which gives each of them a handle.  Two
tables lead from handles to objects and from identities back to handles.  Handles are counted up
from a base, and the count wraps at the end of the handle range, so the age of a handle is its
distance from the base.

The heap cannot see the references that the host holds.  From time to time the host reports the
handles that it still shows; a handle that is missing in more reports in a row than the
hysteresis allows is evicted.  Only handles that were issued before the last `beginCycle` are
considered, because younger ones may have been issued after the report was drawn up.
-/

namespace CellBridge

/-- The handles that the host can see, counted by what became of them. -/
structure CycleReport where
  /-- Handles that were old enough to be considered. -/
  examined : Nat
  /-- Those of them that the host still shows. -/
  live : Nat
  /-- Those of them that were evicted. -/
  collected : Nat
  /-- Different handles that the host shows and the heap does not know. -/
  unrecognised : Nat
deriving DecidableEq, Inhabited

/-- Interned objects and the state of their collection. -/
structure Heap where
  /-- The first handle. -/
  base : UInt64
  /-- How many consecutive reports may miss a handle. -/
  hysteresis : UInt32
  /-- The number of handles issued so far. -/
  issued : UInt64
  objects : Table Handle Object
  handles : Table Nat Handle
  /-- The number of handles issued when the last cycle began. -/
  boundary : Option UInt64
  /-- Consecutive reports that missed a handle. -/
  misses : Table Handle UInt32
  /-- The number of cycles ended. -/
  cycles : UInt64
deriving Inhabited

namespace Heap

section Interning

def empty
    (base : UInt64)
    (hysteresis : UInt32) : Heap :=
  { base := base
    hysteresis := hysteresis
    issued := 0
    objects := .empty
    handles := .empty
    boundary := none
    misses := .empty
    cycles := 0 }

/-- The handle that is issued next. -/
def nextHandle
    (h : Heap) : Handle :=
  ⟨h.base + h.issued⟩

/-- The position of a handle in the order of issue. -/
def ordinal
    (h : Heap)
    (handle : Handle) : UInt64 :=
  handle.value - h.base

/-- The handle of an object, issued now if the object has none.  Objects are told apart by
identity. -/
def intern
    (h : Heap)
    (o : Object) : Handle × Heap :=
  match h.handles.get? o.id with
  | some handle => (handle, h)
  | none =>
      (h.nextHandle,
        { h with
          issued := h.issued + 1
          objects := h.objects.insert h.nextHandle o
          handles := h.handles.insert o.id h.nextHandle })

def resolve?
    (h : Heap)
    (handle : Handle) : Option Object :=
  h.objects.get? handle

/-- The handle of an object that is interned. -/
def handleOf?
    (h : Heap)
    (o : Object) : Option Handle :=
  h.handles.get? o.id

def contains
    (h : Heap)
    (handle : Handle) : Bool :=
  h.objects.contains handle

def size
    (h : Heap) : Nat :=
  h.objects.size

end Interning

section Collection

/-- Starts a cycle: handles issued from now on are exempt until the next one starts. -/
def beginCycle
    (h : Heap) : Heap :=
  { h with boundary := some h.issued }

/-- Was the handle issued before the running cycle began?  Without a cycle none was. -/
def isDue
    (h : Heap)
    (handle : Handle) : Bool :=
  decide (h.ordinal handle < h.boundary.getD 0)

/-- Removes a handle and, if it is the handle of that identity, the way back. -/
def evict
    (h : Heap)
    (handle : Handle)
    (id : Nat) : Heap :=
  { h with
    objects := h.objects.erase handle
    handles := if h.handles.get? id = some handle then h.handles.erase id else h.handles }

/-- The handle was shown: its misses are forgotten. -/
def clearMisses
    (misses : Table Handle UInt32)
    (entry : Handle × Object) : Table Handle UInt32 :=
  misses.erase entry.1

/-- The handle was not shown: one miss more. -/
def addMiss
    (misses : Table Handle UInt32)
    (entry : Handle × Object) : Table Handle UInt32 :=
  misses.insert entry.1 ((misses.get? entry.1).getD 0 + 1)

/-- Have the misses of a handle passed the hysteresis? -/
def isDoomed
    (h : Heap)
    (misses : Table Handle UInt32)
    (entry : Handle × Object) : Bool :=
  decide (h.hysteresis < (misses.get? entry.1).getD 0)

/-- Ends a cycle, given the handles that the host shows. -/
def endCycle
    (h : Heap)
    (reachable : List Handle) : CycleReport × Heap :=
  let due := h.objects.entries.filter fun e => h.isDue e.1
  let live := due.filter fun e => decide (e.1 ∈ reachable)
  let lost := due.filter fun e => decide (e.1 ∉ reachable)
  let misses := lost.foldl addMiss (live.foldl clearMisses h.misses)
  let doomed := lost.filter fun e => h.isDoomed misses e
  let swept := doomed.foldl (fun h e => h.evict e.1 e.2.id) h
  ({ examined := due.length
     live := live.length
     collected := doomed.length
     unrecognised := (reachable.eraseDups.filter fun r => !h.contains r).length },
    { swept with
      misses := doomed.foldl clearMisses misses
      cycles := h.cycles + 1 })

/-- Ends a cycle and starts the next one. -/
def cycle
    (h : Heap)
    (reachable : List Handle) : CycleReport × Heap :=
  let (report, h') := h.endCycle reachable
  (report, h'.beginCycle)

end Collection

section Text

/-- The interned objects in the order of their handles, one a line. -/
def display
    (s : Store)
    (h : Heap) : String :=
  let sorted := h.objects.entries.mergeSort fun a b => decide (a.1.value ≤ b.1.value)
  "Heap[\n" ++
    String.join (sorted.map fun e =>
      "  " ++ e.1.display ++ " => " ++ s.describe e.2 ++ "\n") ++ "]"

/-- The counters of the heap in a detailed dump. -/
def dump
    (h : Heap) : String :=
  "Heap \x7b len: " ++ toString h.size ++ ", base: " ++ toString h.base.toNat ++
    ", issued: " ++ toString h.issued.toNat ++ ", hysteresis: " ++
    toString h.hysteresis.toNat ++ " \x7d"

end Text

end Heap
end CellBridge
