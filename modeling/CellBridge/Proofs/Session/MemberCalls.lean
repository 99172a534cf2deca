import CellBridge.Proofs.Call.Attempts
import CellBridge.Proofs.Session.Calls

/-!
# Calls of members

Invocations, static invocations and constructions are calls of a member of a type: once the target
is known, all of them look up candidates and make attempts.  `memberCall?` says which member a call
of the host means, and `perform_memberCall` that nothing else happens.

`attempts` are the candidates that a call of the host tries, and `bodyRuns` the bodies that it runs.
-/

namespace CellBridge

section Defs

def HostCall.args? : HostCall → Option (List Value)
  | .invoke _ _ args _ => some args
  | .construct _ args => some args
  | .invokeStatic _ _ args _ => some args
  | .toCell _ => none
  | .toManaged _ _ => none
  | .collect _ => none

def HostCall.handle? : HostCall → Option Handle
  | .invoke (.handle h) _ _ _ => some h
  | _ => none

/-- A call of a member whose target is known. -/
structure MemberCall where
  type : Ty
  member : String
  receiver : Option Object
  args : List Value
  mode : ResultMode

def MemberCall.request
    (m : MemberCall) : Request :=
  { type := m.type, member := m.member, shapes := m.args.map Value.shape,
    staticsOnly := m.receiver.isNone }

namespace Bridge

/-- The candidates of a request, from those that are remembered if they are there. -/
def lookup
    (b : Bridge)
    (r : Request) : Step (List Candidate) :=
  b.candidates r.type r.member r.shapes r.staticsOnly

/-- Looks up the candidates of a call and tries them. -/
def runMember
    (b : Bridge)
    (m : MemberCall) : Step Value :=
  b.callMember m.type m.member m.receiver m.args m.mode

/-- The member of a type with a name. -/
def namedCall?
    (b : Bridge)
    (type member : String)
    (args : List Value)
    (mode : ResultMode) : Option MemberCall :=
  (b.registry.lookup? type).map fun d =>
    { type := d.type, member := member, receiver := none, args := args, mode := mode }

/-- The member that a call of the host means, if its target is known. -/
def memberCall?
    (b : Bridge)
    (w : World) : HostCall → Option MemberCall
  | .invoke (.handle h) method args mode =>
      (w.heap.resolve? h).map fun o =>
        { type := o.type, member := method, receiver := some o, args := args, mode := mode }
  | .invoke (.type name) method args mode => b.namedCall? name method args mode
  | .construct type args => b.namedCall? type constructorName args .object
  | .invokeStatic type method args mode => b.namedCall? type method args mode
  | .toCell _ => none
  | .toManaged _ _ => none
  | .collect _ => none

def memberAttempts
    (b : Bridge)
    (m : MemberCall)
    (s : Session) : List Attempt :=
  match b.lookup m.request s with
  | (.ok cands, s') => Candidate.attempts b.catalog m.receiver m.args m.mode cands s'.world
  | (.error _, _) => []

/-- The bodies that a call of a member runs, one after the other. -/
def memberRuns
    (b : Bridge)
    (m : MemberCall)
    (s : Session) : List BodyRun :=
  (b.memberAttempts m s).filterMap fun a =>
    a.candidate.bodyRun? b.catalog m.receiver m.args a.start

/-- The attempts of a call of the host. -/
def attempts
    (b : Bridge)
    (call : HostCall)
    (s : Session) : List Attempt :=
  match b.memberCall? s.world call with
  | some m => b.memberAttempts m s
  | none => []

/-- The bodies that a call of the host runs. -/
def bodyRuns
    (b : Bridge)
    (call : HostCall)
    (s : Session) : List BodyRun :=
  match b.memberCall? s.world call with
  | some m => b.memberRuns m s
  | none => []

end Bridge

end Defs

namespace Bridge

variable {b : Bridge} {call : HostCall} {s : Session} {m : MemberCall}

section Targets

/-- The request of a call is that of the member it means. -/
theorem request?_eq
    (w : World)
    (call : HostCall) :
    b.request? w call = (b.memberCall? w call).map MemberCall.request := by
  have hnamed : ∀ type member args mode,
      b.namedRequest? type member args =
        (b.namedCall? type member args mode).map MemberCall.request := by
    intro type member args mode
    rw [namedRequest?, namedCall?, Option.map_map]
    rfl
  cases call with
  | invoke target method args mode =>
      cases target with
      | handle h =>
          rw [request?, memberCall?, Option.map_map]
          rfl
      | type name =>
          exact hnamed name method args mode
  | construct type args =>
      exact hnamed type constructorName args .object
  | invokeStatic type method args mode =>
      exact hnamed type method args mode
  | _ =>
      rfl

theorem namedCall?_eq_some
    {type member : String}
    {args : List Value}
    {mode : ResultMode}
    (h : b.namedCall? type member args mode = some m) :
    m.member = member ∧ m.receiver = none ∧ m.args = args ∧ m.mode = mode := by
  obtain ⟨d, -, rfl⟩ := Option.map_eq_some_iff.1 h
  exact ⟨rfl, rfl, rfl, rfl⟩

/-- A call of a member takes its arguments from the call of the host. -/
theorem args?_of_memberCall?
    (h : b.memberCall? s.world call = some m) :
    call.args? = some m.args := by
  have hnamed : ∀ {type member args mode}, b.namedCall? type member args mode = some m →
      some args = some m.args := by
    intro type member args mode h
    rw [(namedCall?_eq_some h).2.2.1]
  cases call with
  | invoke target method args mode =>
      cases target with
      | handle h' =>
          obtain ⟨o, -, rfl⟩ := Option.map_eq_some_iff.1 h
          rfl
      | type name =>
          exact hnamed h
  | construct type args =>
      exact hnamed h
  | invokeStatic type method args mode =>
      exact hnamed h
  | _ =>
      cases h

/-- A receiver is the object behind the handle that the call is made on. -/
theorem resolve?_of_memberCall?
    (h : b.memberCall? s.world call = some m)
    {o : Object}
    (ho : m.receiver = some o) :
    ∃ handle, call.handle? = some handle ∧ s.world.heap.resolve? handle = some o := by
  have hnamed : ∀ {type member args mode}, b.namedCall? type member args mode = some m → False := by
    intro type member args mode h
    rw [(namedCall?_eq_some h).2.1] at ho
    cases ho
  cases call with
  | invoke target method args mode =>
      cases target with
      | handle h' =>
          obtain ⟨o', ho', rfl⟩ := Option.map_eq_some_iff.1 h
          cases ho
          exact ⟨h', rfl, ho'⟩
      | type name =>
          exact (hnamed h).elim
  | construct type args =>
      exact (hnamed h).elim
  | invokeStatic type method args mode =>
      exact (hnamed h).elim
  | _ =>
      cases h

end Targets

section Runs

/-- Attempts are made with the candidates that are looked up. -/
theorem runMember_run
    (m : MemberCall)
    (s : Session) :
    b.runMember m s =
      match b.lookup m.request s with
      | (.ok cands, s') =>
          (invokeMember b.catalog m.type m.member m.receiver m.args m.mode cands).toStep s'
      | (.error f, s') => (.error f, s') := by
  exact callMember_run b s m.type m.member m.receiver m.args m.mode

/-- What a call of a member gives is what one of its attempts gives. -/
theorem runMember_ok
    {v : Value} :
    (b.runMember m s).1 = .ok v ↔ ∃ a ∈ b.memberAttempts m s, ∃ w,
      a.candidate.attempt b.catalog m.receiver m.args m.mode a.start = (.ok v, w) := by
  rw [runMember_run, memberAttempts]
  cases b.lookup m.request s with
  | mk result s' =>
      cases result with
      | error f =>
          constructor
          · intro h
            cases h
          · rintro ⟨a, ha, -⟩
            cases ha
      | ok cands =>
          constructor
          · intro h
            obtain ⟨a, ha, hattempt⟩ := invokeMember_run_ok.1 (Prod.ext h rfl)
            exact ⟨a, ha, _, hattempt⟩
          · rintro ⟨a, ha, w, hattempt⟩
            exact congrArg Prod.fst (invokeMember_run_ok.2 ⟨a, ha, hattempt⟩)

/-- An attempt that succeeds gives the answer, and no attempt follows. -/
theorem runMember_of_attempt
    {a : Attempt}
    (ha : a ∈ b.memberAttempts m s)
    {v : Value}
    {w : World}
    (hok : a.candidate.attempt b.catalog m.receiver m.args m.mode a.start = (.ok v, w)) :
    (b.runMember m s).1 = .ok v ∧ (b.runMember m s).2.world = w ∧
      ∃ earlier, b.memberAttempts m s = earlier ++ [a] := by
  rw [memberAttempts] at ha ⊢
  rw [runMember_run]
  cases hlookup : b.lookup m.request s with
  | mk result s' =>
      rw [hlookup] at ha
      cases result with
      | error f =>
          cases ha
      | ok cands =>
          have hrun : invokeMember b.catalog m.type m.member m.receiver m.args m.mode cands
              s'.world = (.ok v, w) :=
            invokeMember_run_ok.2 ⟨a, ha, hok⟩
          exact ⟨congrArg Prod.fst hrun, congrArg Prod.snd hrun, Candidate.attempts_eq_of_ok ha hok⟩

/-- A call whose target is known is the call of a member. -/
theorem perform_memberCall
    (h : b.memberCall? s.world call = some m) :
    b.perform call s = Step.answer .value (b.runMember m).absorb s := by
  have habsorb : ∀ {step : Step Value}, step s = b.runMember m s →
      Step.answer .value step.absorb s = Step.answer .value (b.runMember m).absorb s := by
    intro step hstep
    rw [Step.answer, Step.answer, absorb_run, absorb_run, hstep]
  have hnamed : ∀ {type member args mode}, b.namedCall? type member args mode = some m →
      b.tryInvoke (.type type) member args mode s = b.runMember m s := by
    intro type member args mode hcall
    obtain ⟨d, hd, rfl⟩ := Option.map_eq_some_iff.1 hcall
    rw [tryInvoke_type_run, hd]
    rfl
  cases call with
  | invoke target method args mode =>
      cases target with
      | handle h' =>
          obtain ⟨o, ho, rfl⟩ := Option.map_eq_some_iff.1 h
          refine habsorb ?_
          rw [tryInvoke_handle_run, ho]
          rfl
      | type name =>
          exact habsorb (hnamed h)
  | construct type args =>
      obtain ⟨d, hd, rfl⟩ := Option.map_eq_some_iff.1 h
      refine habsorb ?_
      rw [tryConstruct_run, hd]
      rfl
  | invokeStatic type method args mode =>
      exact habsorb (hnamed h)
  | _ =>
      cases h

/-- A call with the candidates that are found. -/
theorem perform_found
    (h : b.memberCall? s.world call = some m)
    {cands : List Candidate}
    {s' : Session}
    (hlookup : b.lookup m.request s = (.ok cands, s')) :
    b.perform call s = Step.answer .value
      (invokeMember b.catalog m.type m.member m.receiver m.args m.mode cands).toStep.absorb s' := by
  rw [perform_memberCall h, Step.answer, Step.answer, absorb_run, absorb_run, runMember_run,
    hlookup]

/-- A call whose target is unknown gives an error value, and the session stays as it is. -/
theorem perform_unknown
    {args : List Value}
    (hargs : call.args? = some args)
    (h : b.memberCall? s.world call = none) :
    ∃ e, b.perform call s = (.value (.ok (.error e)), s) := by
  have habsorb : ∀ {step : Step Value} {e : BridgeError}, step s = (.error (.failed e), s) →
      ∃ e, Step.answer .value step.absorb s = (.value (.ok (.error e)), s) := by
    intro step e hstep
    refine ⟨e.toCellError, ?_⟩
    rw [Step.answer, absorb_run, hstep]
    rfl
  have hnamed : ∀ {type member args mode}, b.namedCall? type member args mode = none →
      b.tryInvoke (.type type) member args mode s = (.error (.failed (.unknownType type)), s) := by
    intro type member args mode hcall
    rw [tryInvoke_type_run, Option.map_eq_none_iff.1 hcall]
  cases call with
  | invoke target method args mode =>
      cases target with
      | handle h' =>
          refine habsorb (e := .notFound h') ?_
          rw [tryInvoke_handle_run, Option.map_eq_none_iff.1 h]
      | type name =>
          exact habsorb (hnamed h)
  | construct type args =>
      refine habsorb (e := .unknownType type) ?_
      rw [tryConstruct_run, Option.map_eq_none_iff.1 h]
  | invokeStatic type method args mode =>
      exact habsorb (hnamed h)
  | _ =>
      cases hargs

theorem mem_memberRuns
    {run : BodyRun} :
    run ∈ b.memberRuns m s ↔ ∃ a ∈ b.memberAttempts m s,
      a.candidate.bodyRun? b.catalog m.receiver m.args a.start = some run := by
  exact List.mem_filterMap

theorem mem_bodyRuns
    {run : BodyRun} :
    run ∈ b.bodyRuns call s ↔
      ∃ m, b.memberCall? s.world call = some m ∧ run ∈ b.memberRuns m s := by
  rw [bodyRuns]
  cases b.memberCall? s.world call with
  | none =>
      simp
  | some m =>
      simp

theorem mem_attempts
    {a : Attempt} :
    a ∈ b.attempts call s ↔
      ∃ m, b.memberCall? s.world call = some m ∧ a ∈ b.memberAttempts m s := by
  rw [attempts]
  cases b.memberCall? s.world call with
  | none =>
      simp
  | some m =>
      simp

theorem mem_memberAttempts
    {a : Attempt} :
    a ∈ b.memberAttempts m s ↔
      ∃ cands s', b.lookup m.request s = (.ok cands, s') ∧
        a ∈ Candidate.attempts b.catalog m.receiver m.args m.mode cands s'.world := by
  rw [memberAttempts]
  cases b.lookup m.request s with
  | mk result s' =>
      cases result with
      | ok cands =>
          constructor
          · intro h
            exact ⟨cands, s', rfl, h⟩
          · rintro ⟨_, _, heq, h⟩
            cases heq
            exact h
      | error f =>
          constructor
          · intro h
            cases h
          · rintro ⟨_, _, heq, -⟩
            cases heq

/-- The first candidate is tried right after the lookup. -/
theorem mem_memberAttempts_first
    {cand : Candidate}
    {cands : List Candidate}
    {s' : Session}
    (hlookup : b.lookup m.request s = (.ok (cand :: cands), s')) :
    { candidate := cand, start := s'.world } ∈ b.memberAttempts m s := by
  exact mem_memberAttempts.2 ⟨_, _, hlookup, List.mem_cons_self⟩

/-- If the first candidate comes to its body, the call runs that body. -/
theorem mem_bodyRuns_first
    (hm : b.memberCall? s.world call = some m)
    {cand : Candidate}
    {cands : List Candidate}
    {s' : Session}
    (hlookup : b.lookup m.request s = (.ok (cand :: cands), s'))
    {run : BodyRun}
    (hrun : cand.bodyRun? b.catalog m.receiver m.args s'.world = some run) :
    run ∈ b.bodyRuns call s := by
  exact mem_bodyRuns.2 ⟨m, hm, mem_memberRuns.2 ⟨_, mem_memberAttempts_first hlookup, hrun⟩⟩

end Runs

end Bridge
end CellBridge
