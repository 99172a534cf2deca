import CellBridge.Bridge.Config
import CellBridge.Call.Collections
import CellBridge.Call.Invocation
import CellBridge.Conversion.Standard

/-!
# The bridge

A bridge is a catalog of rules, a registry of classes and a configuration; none of them changes
once it is built.  A session is what changes: the world, and the candidates that are remembered by
the registered name of the type, the member, the shapes of the arguments, and whether static
methods alone are meant.

The calls named `try` end with a failure where something goes wrong, their partners give the
failure to the host as an error value.  Attempts and conversions are guarded against panics, the
search for candidates is not.
-/

namespace CellBridge

section State

/-- What a list of candidates is remembered by. -/
structure CandidateKey where
  type : String
  member : String
  shapes : List Shape
  staticsOnly : Bool
deriving DecidableEq

/-- Everything about a bridge that changes. -/
structure Session where
  world : World
  cache : Table CandidateKey (List Candidate)

/-- A step of a session. -/
abbrev Step (α : Type) :=
  ExceptT Fault (StateM Session) α

/-- An action as a step: only the world changes. -/
def Action.toStep
    {α : Type}
    (act : Action α) : Step α :=
  fun session =>
    let (result, world) := act session.world
    (result, { session with world := world })

/-- The result of a pure function that can end with a fault. -/
def Step.ofExcept
    {α : Type} : Except Fault α → Step α
  | .ok a => return a
  | .error f => throw f

/-- The value of a step, or its failure as an error value. -/
def Step.absorb
    (step : Step Value) : Step Value :=
  tryCatch step fun
    | .failed e => return e.toValue
    | f => throw f

end State

/-- What a call is made on. -/
inductive Target where
  /-- The object behind a handle. -/
  | handle (h : Handle)
  /-- A type, by name or alias. -/
  | type (name : String)
deriving DecidableEq, Inhabited

/-- The target that a cell value names. -/
def Target.ofValue? : Value → Option Target
  | .handle h => some (.handle h)
  | .text name => some (.type name)
  | _ => none

/-- A catalog of rules, a registry of classes, and settings. -/
structure Bridge where
  config : BridgeConfig
  catalog : Catalog
  registry : Registry

namespace Bridge

section Building

def empty
    (config : BridgeConfig) : Bridge :=
  { config := config, catalog := .empty, registry := .empty }

def withStandardRules
    (b : Bridge) : Bridge :=
  { b with catalog := b.catalog.withStandardRules }

def withBuiltins
    (b : Bridge) : Bridge :=
  { b with registry := b.registry.withBuiltins }

def withRule
    (b : Bridge)
    (r : Rule) : Bridge :=
  { b with catalog := b.catalog.register r }

def withClass
    (b : Bridge)
    (d : ClassDescriptor) : Bridge :=
  { b with registry := b.registry.register d }

/-- The first session of a bridge, with nothing in its heap and nothing remembered. -/
def newSession
    (b : Bridge)
    (ambient : UInt64)
    (store : Store) : Session :=
  { world := { store := store, heap := b.config.heap.newHeap ambient }
    cache := .empty }

end Building

section Calls

/-- The candidates of a call, taken from those remembered if they are there. -/
def candidates
    (b : Bridge)
    (t : Ty)
    (member : String)
    (shapes : List Shape)
    (staticsOnly : Bool) : Step (List Candidate) := do
  let fresh := resolve b.catalog b.registry t member shapes staticsOnly
  if b.config.cacheCandidates then
    let key : CandidateKey :=
      { type := t.key, member := member, shapes := shapes, staticsOnly := staticsOnly }
    match (← get).cache.get? key with
    | some known => return known
    | none =>
        let resolved ← Step.ofExcept fresh
        modify fun s => { s with cache := s.cache.insert key resolved }
        return resolved
  else
    Step.ofExcept fresh

/-- Calls a member of a type, on a receiver or statically. -/
def callMember
    (b : Bridge)
    (t : Ty)
    (member : String)
    (receiver : Option Object)
    (args : List Value)
    (mode : ResultMode) : Step Value := do
  let cands ← b.candidates t member (args.map Value.shape) receiver.isNone
  (invokeMember b.catalog t member receiver args mode cands).toStep

/-- The type with a name or alias. -/
def typeNamed
    (b : Bridge)
    (name : String) : Step Ty :=
  match b.registry.lookup? name with
  | some d => return d.type
  | none => throw (.failed (.unknownType name))

/-- Calls a method of an object or a static method of a type. -/
def tryInvoke
    (b : Bridge)
    (target : Target)
    (method : String)
    (args : List Value)
    (mode : ResultMode) : Step Value := do
  match target with
  | .handle h =>
      let receiver ← (Action.resolve h).toStep
      b.callMember receiver.type method (some receiver) args mode
  | .type name =>
      let t ← b.typeNamed name
      b.callMember t method none args mode

/-- `tryInvoke` for the host. -/
def invoke
    (b : Bridge)
    (target : Target)
    (method : String)
    (args : List Value)
    (mode : ResultMode) : Step Value :=
  (b.tryInvoke target method args mode).absorb

/-- `invoke` in the mode of the configuration. -/
def call
    (b : Bridge)
    (target : Target)
    (method : String)
    (args : List Value) : Step Value :=
  b.invoke target method args b.config.defaultResultMode

/-- `invoke` on a type. -/
def invokeStatic
    (b : Bridge)
    (type : String)
    (method : String)
    (args : List Value)
    (mode : ResultMode) : Step Value :=
  b.invoke (.type type) method args mode

/-- `invoke` on the object behind a handle. -/
def invokeMethod
    (b : Bridge)
    (h : Handle)
    (method : String)
    (args : List Value)
    (mode : ResultMode) : Step Value :=
  b.invoke (.handle h) method args mode

/-- Runs a constructor of a type and interns the result. -/
def tryConstruct
    (b : Bridge)
    (type : String)
    (args : List Value) : Step Value := do
  let t ← b.typeNamed type
  b.callMember t constructorName none args .object

/-- `tryConstruct` for the host. -/
def construct
    (b : Bridge)
    (type : String)
    (args : List Value) : Step Value :=
  (b.tryConstruct type args).absorb

end Calls

section Conversion

/-- Writes an object by the first rule that takes its type; without a value there is a blank. -/
def toCell
    (b : Bridge)
    (o : Object) : Action Value :=
  match o.type with
  | .void => return .empty
  | t => do
      let rule ← Action.orFail (.noReturnConverter t.display) (b.catalog.findByType? t)
      Action.guarded rule.name (b.catalog.write rule o)

/-- Reads a value as an object that fits the expected type. -/
def toManaged
    (b : Bridge)
    (v : Value)
    (expected : Ty) : Action Object := do
  let rule ← Action.orFail (.noCompatibleConverter v.shape expected.display)
    (b.catalog.findByShape? v.shape expected)
  Action.guarded rule.name (b.catalog.read rule expected v)

end Conversion

section Collection

/-- Ends the running collection cycle with the handles that the host shows, and starts the next. -/
def collect
    (reachable : List Handle) : Action CycleReport := do
  let w ← get
  let (report, h) := w.heap.cycle reachable
  set { w with heap := h }
  return report

end Collection

section Text

def dump
    (b : Bridge)
    (h : Heap) : String :=
  "Bridge \x7b heap: " ++ h.dump ++ ", converters: " ++ toString b.catalog.size ++
    ", classes: " ++ toString b.registry.size ++ ", config: " ++ b.config.dump ++ " \x7d"

end Text

end Bridge
end CellBridge
