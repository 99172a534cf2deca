import CellBridge.Bridge.Session
import CellBridge.Proofs.Conversion.ActionRuns

/-!
# Calls of the host

A session lives by the calls that the host makes, one after the other.  `perform` is one call with
its answer, `sessionAfter` the session after many.

A call of a member is a `Request`: a target type, the member, the shapes of the arguments and
whether only static methods are meant.  `request?` says which request a call makes in a world,
`callMember_run` what becomes of it.
-/

namespace CellBridge

section Defs

/-- A call of the host. -/
inductive HostCall where
  | invoke (target : Target) (method : String) (args : List Value) (mode : ResultMode)
  | construct (type : String) (args : List Value)
  | invokeStatic (type method : String) (args : List Value) (mode : ResultMode)
  | toCell (o : Object)
  | toManaged (v : Value) (expected : Ty)
  | collect (reachable : List Handle)

/-- What the host gets back. -/
inductive Answer where
  | value (result : Except Fault Value)
  | object (result : Except Fault Object)
  | report (result : Except Fault CycleReport)

/-- Runs a step and makes an answer of its result. -/
def Step.answer
    {α : Type}
    (make : Except Fault α → Answer)
    (step : Step α)
    (s : Session) : Answer × Session :=
  (make (step s).1, (step s).2)

/-- A call of a member, with the type that the member is looked up on. -/
structure Request where
  type : Ty
  member : String
  shapes : List Shape
  staticsOnly : Bool

/-- What the candidates of a request are remembered by. -/
def Request.key
    (r : Request) : CandidateKey :=
  { type := r.type.key, member := r.member, shapes := r.shapes, staticsOnly := r.staticsOnly }

namespace Bridge

/-- The answer to a call, and the session after it. -/
def perform
    (b : Bridge) : HostCall → Session → Answer × Session
  | .invoke target method args mode => Step.answer .value (b.invoke target method args mode)
  | .construct type args => Step.answer .value (b.construct type args)
  | .invokeStatic type method args mode =>
      Step.answer .value (b.invokeStatic type method args mode)
  | .toCell o => Step.answer .value (b.toCell o).toStep
  | .toManaged v expected => Step.answer .object (b.toManaged v expected).toStep
  | .collect reachable => Step.answer .report (collect reachable).toStep

/-- The session after calls. -/
def sessionAfter
    (b : Bridge)
    (s : Session)
    (calls : List HostCall) : Session :=
  calls.foldl (fun s call => (b.perform call s).2) s

/-- The request that names a type. -/
def namedRequest?
    (b : Bridge)
    (type member : String)
    (args : List Value) : Option Request :=
  (b.registry.lookup? type).map fun d =>
    { type := d.type, member := member, shapes := args.map Value.shape, staticsOnly := true }

/-- The request that a call makes, if its target is known. -/
def request?
    (b : Bridge)
    (w : World) : HostCall → Option Request
  | .invoke (.handle h) method args _ =>
      (w.heap.resolve? h).map fun o =>
        { type := o.type, member := method, shapes := args.map Value.shape, staticsOnly := false }
  | .invoke (.type name) method args _ => b.namedRequest? name method args
  | .construct type args => b.namedRequest? type constructorName args
  | .invokeStatic type method args _ => b.namedRequest? type method args
  | .toCell _ => none
  | .toManaged _ _ => none
  | .collect _ => none

/-- The requests of calls, in order. -/
def requests
    (b : Bridge)
    (s : Session) : List HostCall → List Request
  | [] => []
  | call :: calls =>
      (b.request? s.world call).toList ++ b.requests (b.perform call s).2 calls

/-- The methods that a request can mean. -/
def visible
    (b : Bridge)
    (r : Request) : List Method :=
  visibleMethods b.registry r.type r.member r.staticsOnly

/-- The candidates of a request, looked up afresh. -/
def resolved
    (b : Bridge)
    (r : Request) : Except Fault (List Candidate) :=
  resolve b.catalog b.registry r.type r.member r.shapes r.staticsOnly

end Bridge

end Defs

section Steps

variable {α : Type}

theorem toStep_run
    (act : Action α)
    (s : Session) :
    act.toStep s = ((act s.world).1, { s with world := (act s.world).2 }) := by
  rfl

theorem ofExcept_run
    (result : Except Fault α)
    (s : Session) :
    Step.ofExcept result s = (result, s) := by
  cases result <;> rfl

/-- A failure becomes a value, and the session stays as it is. -/
theorem absorb_run
    (step : Step Value)
    (s : Session) :
    step.absorb s =
      match step s with
      | (.error (.failed e), s') => (.ok e.toValue, s')
      | r => r := by
  rw [Step.absorb, tryCatch_run]
  cases step s with
  | mk result s' =>
      cases result with
      | ok v =>
          rfl
      | error f =>
          cases f <;> rfl

theorem absorb_ok
    {step : Step Value}
    {s : Session}
    {v : Value}
    (h : (step s).1 = .ok v) :
    (step.absorb s).1 = .ok v := by
  rw [absorb_run]
  split
  · rename_i hrun
    rw [hrun] at h
    cases h
  · exact h

theorem absorb_failed
    {step : Step Value}
    {s : Session}
    {e : BridgeError}
    (h : (step s).1 = .error (.failed e)) :
    (step.absorb s).1 = .ok e.toValue := by
  rw [absorb_run]
  cases hrun : step s with
  | mk result s' =>
      rw [hrun] at h
      cases h
      rfl

theorem absorb_session
    (step : Step Value)
    (s : Session) :
    (step.absorb s).2 = (step s).2 := by
  rw [absorb_run]
  split
  · rename_i hrun
    rw [hrun]
  · rfl

end Steps

namespace Bridge

section Runs

variable (b : Bridge) (s : Session)

@[simp] theorem sessionAfter_cons
    (call : HostCall)
    (calls : List HostCall) :
    b.sessionAfter s (call :: calls) = b.sessionAfter (b.perform call s).2 calls := by
  rfl

theorem sessionAfter_append
    (calls calls' : List HostCall) :
    b.sessionAfter s (calls ++ calls') = b.sessionAfter (b.sessionAfter s calls) calls' := by
  exact List.foldl_append

theorem sessionAfter_take_succ
    {calls : List HostCall}
    {n : Nat}
    {call : HostCall}
    (hcall : calls[n]? = some call) :
    b.sessionAfter s (calls.take (n + 1)) =
      (b.perform call (b.sessionAfter s (calls.take n))).2 := by
  rw [List.take_add_one, hcall, sessionAfter_append]
  rfl

theorem requests_append
    (calls calls' : List HostCall) :
    b.requests s (calls ++ calls') =
      b.requests s calls ++ b.requests (b.sessionAfter s calls) calls' := by
  induction calls generalizing s with
  | nil =>
      rfl
  | cons call calls ih =>
      rw [List.cons_append, requests, requests, ih, List.append_assoc, sessionAfter_cons]

end Runs

section Members

variable (b : Bridge) (s : Session)

/-- A call of a member with the candidates that are found. -/
theorem callMember_run
    (t : Ty)
    (member : String)
    (receiver : Option Object)
    (args : List Value)
    (mode : ResultMode) :
    b.callMember t member receiver args mode s =
      match b.candidates t member (args.map Value.shape) receiver.isNone s with
      | (.ok cands, s') => (invokeMember b.catalog t member receiver args mode cands).toStep s'
      | (.error f, s') => (.error f, s') := by
  rw [callMember, bind_run]
  cases b.candidates t member (args.map Value.shape) receiver.isNone s with
  | mk result s' =>
      cases result <;> rfl

theorem typeNamed_run
    (name : String) :
    b.typeNamed name s =
      match b.registry.lookup? name with
      | some d => (.ok d.type, s)
      | none => (.error (.failed (.unknownType name)), s) := by
  rw [typeNamed]
  cases b.registry.lookup? name <;> rfl

/-- A call on a handle finds its receiver first. -/
theorem tryInvoke_handle_run
    (h : Handle)
    (method : String)
    (args : List Value)
    (mode : ResultMode) :
    b.tryInvoke (.handle h) method args mode s =
      match s.world.heap.resolve? h with
      | some o => b.callMember o.type method (some o) args mode s
      | none => (.error (.failed (.notFound h)), s) := by
  rw [tryInvoke, bind_run, toStep_run, Action.resolve_run]
  cases s.world.heap.resolve? h <;> rfl

/-- A call on a type finds the type first. -/
theorem tryInvoke_type_run
    (name method : String)
    (args : List Value)
    (mode : ResultMode) :
    b.tryInvoke (.type name) method args mode s =
      match b.registry.lookup? name with
      | some d => b.callMember d.type method none args mode s
      | none => (.error (.failed (.unknownType name)), s) := by
  rw [tryInvoke, bind_run, typeNamed_run]
  cases b.registry.lookup? name <;> rfl

theorem tryConstruct_run
    (type : String)
    (args : List Value) :
    b.tryConstruct type args s =
      match b.registry.lookup? type with
      | some d => b.callMember d.type constructorName none args .object s
      | none => (.error (.failed (.unknownType type)), s) := by
  rw [tryConstruct, bind_run, typeNamed_run]
  cases b.registry.lookup? type <;> rfl

end Members

end Bridge
end CellBridge
