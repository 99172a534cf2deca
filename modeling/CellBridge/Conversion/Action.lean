import CellBridge.Conversion.Fault
import CellBridge.Heap.Basic

/-!
# Actions

An action works on the world, that is the store and the heap, and ends with a result or with a
fault.  What it did to the world before a fault stays done.

`guarded` is the only handler: it turns a panic into a failure and lets everything else pass.
-/

namespace CellBridge

/-- All state that conversions and methods can reach. -/
structure World where
  store : Store
  heap : Heap
deriving Inhabited

/-- A step on the world. -/
abbrev Action (α : Type) :=
  ExceptT Fault (StateM World) α

namespace Action

section Endings

/-- Ends with a failure. -/
def fail
    {α : Type}
    (e : BridgeError) : Action α :=
  throw (.failed e)

/-- Ends abruptly. -/
def panic
    {α : Type}
    (message : Option String) : Action α :=
  throw (.panicked message)

/-- Never ends. -/
def diverge
    {α : Type} : Action α :=
  throw .diverged

/-- The content of an option, or a failure. -/
def orFail
    {α : Type}
    (e : BridgeError) : Option α → Action α
  | some a => pure a
  | none => fail e

/-- The message of a panic that came with no text. -/
def unknownPanic : String :=
  "unknown panic"

/-- Turns a panic of an action into a failure that names what was running. -/
def guarded
    {α : Type}
    (what : String)
    (act : Action α) : Action α :=
  tryCatch act fun
    | .panicked m =>
        fail (.invocationFailure (what ++ " panicked: " ++ m.getD unknownPanic))
    | f => throw f

end Endings

section Objects

def payload
    (o : Object) : Action Payload := do
  return (← get).store.payload o

def create
    (t : Ty)
    (p : Payload) : Action Object := do
  let w ← get
  let (o, s) := w.store.alloc t p
  set { w with store := s }
  return o

def createArray
    (e : Ty)
    (items : List Object) : Action Object :=
  create (.array e) (.array items)

def createList
    (e : Ty)
    (items : List Object) : Action Object :=
  create (.list e) (.list items)

/-- A new set of elements of type `e`; of equal items only the first is taken. -/
def createSet
    (e : Ty)
    (items : List Object) : Action Object := do
  let w ← get
  create (.set e) (.set (w.store.distinct items))

/-- The constant of a class with the given name, if the class is an enumeration that has it. -/
def createConstant?
    (c : ManagedClass)
    (name : String) : Action (Option Object) := do
  if c.isEnum then
    match c.ordinalOf? name with
    | some i => return some (← create (.object c) (.constant i name))
    | none => return none
  else
    return none

/-- Puts another payload in the place of that of an object. -/
def replace
    (o : Object)
    (p : Payload) : Action Unit := do
  modify fun w => { w with store := w.store.replace o p }

end Objects

section Handles

/-- The handle of an object, issued now if it has none. -/
def intern
    (o : Object) : Action Handle := do
  let w ← get
  let (handle, h) := w.heap.intern o
  set { w with heap := h }
  return handle

def resolve
    (handle : Handle) : Action Object := do
  orFail (.notFound handle) ((← get).heap.resolve? handle)

end Handles

end Action
end CellBridge
