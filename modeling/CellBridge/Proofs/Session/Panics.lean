import CellBridge.Proofs.Call.Calming
import CellBridge.Proofs.Session.Overflow

/-!
# Panics are failed steps

A panic in a rule or in the body of a method never reaches the caller of the bridge, and it does no
more than a failure would in its place.  A `Calming` replaces all panics of a bridge by failures of
invocation: `Calming.bridge` is the bridge with the copies, and `Calming.session` the session that
corresponds, which differs in the candidates that are remembered only.

The lookup of candidates is not guarded.  Where a sum of ranks or of priorities overflows in it, the
panic does reach the caller, `resolution_panics`; it comes before anything is run, and nothing else
comes through.

`callMember_calmed` is the comparison of the two bridges for one call of a member, `perform_calmed`
for one call of the host, and `sessionAfter_calmed` for a run.  `panics_are_failures` collects what
holds of every entry point.
-/

namespace CellBridge

section Defs

/-- The step never ends abruptly, whatever state it starts in. -/
def NeverPanics
    {σ α : Type}
    (step : ExceptT Fault (StateM σ) α) : Prop :=
  ∀ s m, (step s).1 ≠ .error (.panicked m)

/-- The step ends abruptly exactly where the call overflows, and with nothing else. -/
def Bridge.PanicsOnOverflow
    (b : Bridge)
    (call : HostCall)
    (step : Step Value) : Prop :=
  ∀ s m, (step s).1 = .error (.panicked m) ↔ .panicked m = Fault.overflow ∧ b.Overflows call s

/-- No panic of a rule or of a method reaches the caller of the bridge.  What does is the overflow
of a sum, before anything is run. -/
structure Bridge.Contained
    (b : Bridge) : Prop where
  invoke : ∀ target method args mode,
    b.PanicsOnOverflow (.invoke target method args mode) (b.invoke target method args mode)
  construct : ∀ type args, b.PanicsOnOverflow (.construct type args) (b.construct type args)
  invokeStatic : ∀ type method args mode,
    b.PanicsOnOverflow (.invokeStatic type method args mode) (b.invokeStatic type method args mode)
  invokeMethod : ∀ h method args mode,
    b.PanicsOnOverflow (.invoke (.handle h) method args mode) (b.invokeMethod h method args mode)
  call : ∀ target method args,
    b.PanicsOnOverflow (.invoke target method args b.config.defaultResultMode)
      (b.call target method args)
  toCell : ∀ o, NeverPanics (b.toCell o)
  toManaged : ∀ v expected, NeverPanics (b.toManaged v expected)

namespace Calming

variable (κ : Calming)

/-- The bridge with the copies of its rules and methods. -/
def bridge
    (b : Bridge) : Bridge :=
  { b with catalog := κ.catalog b.catalog, registry := κ.registry b.registry }

/-- The session in which copies of the candidates are remembered. -/
def session
    (s : Session) : Session :=
  { s with cache := s.cache.mapValues (List.map κ.candidate) }

/-- The same result, and the session that corresponds. -/
def outcome
    {α : Type}
    (p : Except Fault α × Session) : Except Fault α × Session :=
  (p.1, κ.session p.2)

/-- The action ends alike, and leaves the same world. -/
def EndsAlike
    {α : Type}
    (act act' : Action α)
    (w : World) : Prop :=
  SameEnding (act w).1 (act' w).1 ∧ (act' w).2 = (act w).2

/-- In a session, the bridge with copies answers every call as the bridge does, and leaves the
session that corresponds.  Conversions end alike, and leave the same world. -/
structure Mirrors
    (b : Bridge)
    (s : Session) : Prop where
  invoke : ∀ target method args mode,
    (κ.bridge b).invoke target method args mode (κ.session s) =
      κ.outcome (b.invoke target method args mode s)
  construct : ∀ type args,
    (κ.bridge b).construct type args (κ.session s) = κ.outcome (b.construct type args s)
  invokeStatic : ∀ type method args mode,
    (κ.bridge b).invokeStatic type method args mode (κ.session s) =
      κ.outcome (b.invokeStatic type method args mode s)
  invokeMethod : ∀ h method args mode,
    (κ.bridge b).invokeMethod h method args mode (κ.session s) =
      κ.outcome (b.invokeMethod h method args mode s)
  call : ∀ target method args,
    (κ.bridge b).call target method args (κ.session s) = κ.outcome (b.call target method args s)
  toCell : ∀ o, EndsAlike (b.toCell o) ((κ.bridge b).toCell o) s.world
  toManaged : ∀ v expected,
    EndsAlike (b.toManaged v expected) ((κ.bridge b).toManaged v expected) s.world

end Calming

end Defs

namespace Bridge

section Containment

variable (b : Bridge)

/-- The steps behind calls of members. -/
theorem panicsOnOverflow_of_perform
    {call : HostCall}
    {args : List Value}
    (hargs : call.args? = some args)
    {step : Step Value}
    (hstep : ∀ s, (b.perform call s).1 = .value (step s).1) :
    b.PanicsOnOverflow call step := by
  intro s m
  rw [← perform_panicked_iff hargs, hstep, Answer.value.injEq]

/-- Finding a rule fails or succeeds, and what it is used for is guarded. -/
theorem neverPanics_orFail
    {α : Type}
    (e : BridgeError)
    (rule : Option Rule)
    (use : Rule → Action α) :
    NeverPanics (Action.orFail e rule >>= fun r => Action.guarded r.name (use r)) := by
  intro w m
  cases rule with
  | none =>
      rw [bind_run_error (Action.orFail_none_run e w)]
      simp
  | some r =>
      rw [bind_run_ok (Action.orFail_some_run e r w)]
      exact guarded_ne_panicked r.name (use r) w m

theorem neverPanics_toCell
    (o : Object) :
    NeverPanics (b.toCell o) := by
  obtain ⟨t, id⟩ := o
  cases t with
  | void =>
      intro w m
      simp [toCell]
  | _ =>
      exact neverPanics_orFail _ _ fun rule => b.catalog.write rule _

theorem neverPanics_toManaged
    (v : Value)
    (expected : Ty) :
    NeverPanics (b.toManaged v expected) := by
  exact neverPanics_orFail _ _ fun rule => b.catalog.read rule expected v

/-- No panic reaches the caller but that of a sum, whatever the rules and the methods of the bridge
do. -/
theorem contained :
    b.Contained := by
  have hinvoke : ∀ target method args mode,
      b.PanicsOnOverflow (.invoke target method args mode) (b.invoke target method args mode) :=
    fun _ _ _ _ => b.panicsOnOverflow_of_perform rfl fun _ => rfl
  exact {
    invoke := hinvoke
    construct := fun _ _ => b.panicsOnOverflow_of_perform rfl fun _ => rfl
    invokeStatic := fun _ _ _ _ => b.panicsOnOverflow_of_perform rfl fun _ => rfl
    invokeMethod := fun h => hinvoke (.handle h)
    call := fun target method args => hinvoke target method args b.config.defaultResultMode
    toCell := b.neverPanics_toCell
    toManaged := b.neverPanics_toManaged }

end Containment

end Bridge

namespace Calming

open Bridge

variable (κ : Calming) {b : Bridge} {rs : List Request} {s : Session}

section Members

/-- A lookup finds the copies of the candidates, and remembers them. -/
theorem lookup_calmed
    (b : Bridge)
    (r : Request)
    (s : Session) :
    (κ.bridge b).lookup r (κ.session s) =
      ((b.lookup r s).1.map (List.map κ.candidate), κ.session (b.lookup r s).2) := by
  have hresolved : (κ.bridge b).resolved r = (b.resolved r).map (List.map κ.candidate) :=
    κ.resolve_calmed b.catalog b.registry r.type r.member r.shapes r.staticsOnly
  have hcache : (κ.session s).cache.get? r.key =
      (s.cache.get? r.key).map (List.map κ.candidate) :=
    Table.get?_mapValues _ s.cache r.key
  have hconfig : (κ.bridge b).config = b.config := rfl
  rw [lookup_run, lookup_run, hresolved, hcache, hconfig]
  cases b.config.cacheCandidates <;> cases s.cache.get? r.key <;> cases b.resolved r <;>
    simp [session, Except.map]

variable (hc : b.catalog.Softening) (hs : b.Reached rs s)
include hc hs

/-- A call of a member comes to the same with copies. -/
theorem callMember_calmed
    (t : Ty)
    (member : String)
    (receiver : Option Object)
    (args : List Value)
    (mode : ResultMode) :
    (κ.bridge b).callMember t member receiver args mode (κ.session s) =
      κ.outcome (b.callMember t member receiver args mode s) := by
  let m : MemberCall := ⟨t, member, receiver, args, mode⟩
  show (κ.bridge b).runMember m (κ.session s) = κ.outcome (b.runMember m s)
  rw [runMember_run, runMember_run, lookup_calmed]
  cases hlookup : b.lookup m.request s with
  | mk result s' =>
      cases result with
      | error f =>
          rfl
      | ok cands =>
          have hinvoke := κ.invokeMember_calmed hc t member receiver args mode cands
            (hs.draws_of_lookup hlookup) s'.world
          have hworld : (κ.session s').world = s'.world := rfl
          show (invokeMember (κ.catalog b.catalog) t member receiver args mode
            (cands.map κ.candidate)).toStep (κ.session s') = _
          rw [toStep_run, hworld, hinvoke]
          rfl

theorem tryInvoke_calmed
    (target : Target)
    (method : String)
    (args : List Value)
    (mode : ResultMode) :
    (κ.bridge b).tryInvoke target method args mode (κ.session s) =
      κ.outcome (b.tryInvoke target method args mode s) := by
  cases target with
  | handle h =>
      have hworld : (κ.session s).world = s.world := rfl
      rw [tryInvoke_handle_run, tryInvoke_handle_run, hworld]
      cases s.world.heap.resolve? h with
      | none =>
          rfl
      | some o =>
          exact κ.callMember_calmed hc hs o.type method (some o) args mode
  | type name =>
      have hregistry : (κ.bridge b).registry = κ.registry b.registry := rfl
      rw [tryInvoke_type_run, tryInvoke_type_run, hregistry, lookup?_registry]
      cases b.registry.lookup? name with
      | none =>
          rfl
      | some d =>
          exact κ.callMember_calmed hc hs d.type method none args mode

theorem tryConstruct_calmed
    (type : String)
    (args : List Value) :
    (κ.bridge b).tryConstruct type args (κ.session s) =
      κ.outcome (b.tryConstruct type args s) := by
  have hregistry : (κ.bridge b).registry = κ.registry b.registry := rfl
  rw [tryConstruct_run, tryConstruct_run, hregistry, lookup?_registry]
  cases b.registry.lookup? type with
  | none =>
      rfl
  | some d =>
      exact κ.callMember_calmed hc hs d.type constructorName none args .object

omit hc hs in
/-- Failures that are the same become the same error values. -/
theorem absorb_calmed
    {step step' : Step Value}
    (h : step' (κ.session s) = κ.outcome (step s)) :
    step'.absorb (κ.session s) = κ.outcome (step.absorb s) := by
  rw [absorb_run, absorb_run, h]
  cases step s with
  | mk result s' =>
      cases result with
      | ok v =>
          rfl
      | error f =>
          cases f <;> rfl

end Members

section Conversions

variable (hc : b.catalog.Softening)
include hc

/-- Writing by the bridge with copies ends alike. -/
theorem toCell_calmed
    (o : Object)
    (w : World) :
    EndsAlike (b.toCell o) ((κ.bridge b).toCell o) w := by
  have hrule : EndsAlike
      (Action.orFail (.noReturnConverter o.type.display) (b.catalog.findByType? o.type) >>= fun r =>
        Action.guarded r.name (b.catalog.write r o))
      (Action.orFail (.noReturnConverter o.type.display)
        ((κ.catalog b.catalog).findByType? o.type) >>= fun r =>
          Action.guarded r.name ((κ.catalog b.catalog).write r o)) w := by
    rw [findByType?_catalog]
    cases hr : b.catalog.findByType? o.type with
    | none =>
        exact ⟨.same _, rfl⟩
    | some r =>
        exact (κ.softens_write hc (Catalog.mem_of_findByType? hr) o).guarded r.name w
  obtain ⟨t, id⟩ := o
  cases t with
  | void =>
      exact ⟨.same _, rfl⟩
  | _ =>
      exact hrule

/-- Reading by the bridge with copies ends alike. -/
theorem toManaged_calmed
    (v : Value)
    (expected : Ty)
    (w : World) :
    EndsAlike (b.toManaged v expected) ((κ.bridge b).toManaged v expected) w := by
  show EndsAlike _ (Action.orFail _ ((κ.catalog b.catalog).findByShape? v.shape expected) >>=
    fun r => Action.guarded r.name ((κ.catalog b.catalog).read r expected v)) w
  rw [findByShape?_catalog, Bridge.toManaged]
  cases hr : b.catalog.findByShape? v.shape expected with
  | none =>
      exact ⟨.same _, rfl⟩
  | some r =>
      exact (κ.softens_read hc (Catalog.mem_of_findByShape? hr) expected v).guarded r.name w

end Conversions

section Sessions

variable (hc : b.catalog.Softening) (hs : b.Reached rs s)
include hc hs

/-- The bridge with copies mirrors the bridge in every session that is reached. -/
theorem mirrors :
    κ.Mirrors b s := by
  have hinvoke : ∀ target method args mode,
      (κ.bridge b).invoke target method args mode (κ.session s) =
        κ.outcome (b.invoke target method args mode s) := by
    intro target method args mode
    exact κ.absorb_calmed (κ.tryInvoke_calmed hc hs target method args mode)
  exact {
    invoke := hinvoke
    construct := fun type args => κ.absorb_calmed (κ.tryConstruct_calmed hc hs type args)
    invokeStatic := fun type => hinvoke (.type type)
    invokeMethod := fun h => hinvoke (.handle h)
    call := fun target method args => hinvoke target method args b.config.defaultResultMode
    toCell := fun o => κ.toCell_calmed hc o s.world
    toManaged := fun v expected => κ.toManaged_calmed hc v expected s.world }

/-- After a call of the host, the sessions still correspond. -/
theorem perform_calmed
    (call : HostCall) :
    ((κ.bridge b).perform call (κ.session s)).2 = κ.session (b.perform call s).2 := by
  have hmirrors := κ.mirrors hc hs
  cases call with
  | invoke target method args mode =>
      exact congrArg Prod.snd (hmirrors.invoke target method args mode)
  | construct type args =>
      exact congrArg Prod.snd (hmirrors.construct type args)
  | invokeStatic type method args mode =>
      exact congrArg Prod.snd (hmirrors.invokeStatic type method args mode)
  | toCell o =>
      exact congrArg (fun w => κ.session { s with world := w }) (hmirrors.toCell o).2
  | toManaged v expected =>
      exact congrArg (fun w => κ.session { s with world := w }) (hmirrors.toManaged v expected).2
  | collect reachable =>
      rfl

/-- After any calls of the host, the sessions still correspond. -/
theorem sessionAfter_calmed
    (calls : List HostCall) :
    (κ.bridge b).sessionAfter (κ.session s) calls = κ.session (b.sessionAfter s calls) := by
  induction calls generalizing rs s with
  | nil =>
      rfl
  | cons call calls ih =>
      rw [sessionAfter_cons, sessionAfter_cons, κ.perform_calmed hc hs call]
      exact ih (hs.perform call)

end Sessions

end Calming

/-- No panic of a rule or of a method reaches the caller of a bridge: calls of members end abruptly
where the lookup of their candidates overflows, and nowhere else, and conversions never do.  And
suppose that all panics of rules and methods are replaced by failures, where the rules besides the
standard ones pass on the errors of the conversions that they call.  Then after any calls the world
is the same, the candidates that are remembered are the copies, and every further call has the same
answer: conversions succeed or fail alike.  The catalog may have any room for nested conversions. -/
theorem panics_are_failures
    (b : Bridge) :
    b.Contained ∧
      ∀ κ : Calming, (∀ r ∈ b.catalog.rules, r ∈ standardRules ∨ r.Relays) →
        ∀ rs s, b.Reached rs s → ∀ calls,
          (κ.bridge b).sessionAfter (κ.session s) calls = κ.session (b.sessionAfter s calls) ∧
            κ.Mirrors b (b.sessionAfter s calls) := by
  refine ⟨b.contained, ?_⟩
  intro κ hrules rs s hs calls
  have hc : b.catalog.Softening := fun r hr => Catalog.Relays.keepsTo hrules hr
  exact ⟨κ.sessionAfter_calmed hc hs calls, κ.mirrors hc (hs.sessionAfter calls)⟩

section Lamp

/-! A lamp whose rule writes a truth value first and ends abruptly then, and whose switch ends
abruptly as well. -/

def lamp : Ty :=
  .object (.root "Lamp")

/-- Writing a lamp calls the conversion of truth values. -/
def lampRule : Rule :=
  Rule.ofType "lamp" .boolean lamp Priority.standard
    (fun cx o =>
      match cx.writer? .bool with
      | some writer => writer o >>= fun _ => Action.panic (some "no light")
      | none => Action.panic none)
    (fun _ _ _ => Action.panic (some "burnt out"))

def lampClass : ClassDescriptor :=
  (ClassDescriptor.ofType lamp).withMethod
    (.staticMethod "switch" [] lamp fun _ _ => Action.panic none)

theorem relays_lampRule :
    lampRule.Relays := by
  constructor
  · intro o
    exact .writing .bool o (fun _ => .own _) (.own _)
  · intro t v
    exact .own _

/-- Lamps may break. -/
theorem panics_are_failures_lamp :
    let b := ((Bridge.empty {}).withStandardRules.withRule lampRule).withClass lampClass
    let κ := Calming.reporting
    let s := b.newSession 0 .empty
    let calls := [HostCall.invokeStatic "Lamp" "switch" [] .simplest]
    (∀ r ∈ b.catalog.rules, r ∈ standardRules ∨ r.Relays) ∧
      (κ.bridge b).sessionAfter (κ.session s) calls = κ.session (b.sessionAfter s calls) ∧
        κ.Mirrors b (b.sessionAfter s calls) := by
  intro b κ s calls
  have hrules : ∀ r ∈ b.catalog.rules, r ∈ standardRules ∨ r.Relays := by
    intro r hr
    rcases Catalog.mem_insertRule hr with rfl | hold
    · exact Or.inr relays_lampRule
    · exact Or.inl (Catalog.mem_standardCatalog hold)
  exact ⟨hrules, (panics_are_failures b).2 κ hrules [] s (.start s.world) calls⟩

end Lamp

section Desk

/-! Two desks where one can pick things.  On the one, the priorities add up to ten, but not from the
left.  On the other, all priorities are zero, and the ranks are too large. -/

/-- A text between what has the largest priority and what has nearly the smallest. -/
def pickUneven : Method :=
  picking [.bool, .text, .double]

def unevenDesk : Bridge :=
  (((Bridge.empty {}).withStandardRules.withRule
    (plainRule "high" .number .bool 2147483647)).withRule
      (plainRule "low" .text .double (-2147483647))).withClass
        { ClassDescriptor.ofType deskType with methods := [pickUneven] }

/-- A class with the given number of ancestors. -/
def leafBelow
    (n : Nat) : ManagedClass :=
  { name := "Leaf", ancestors := (List.range n).map fun i => "Branch" ++ toString i,
    constants := [] }

theorem length_chain_leafBelow
    (n : Nat) :
    (leafBelow n).chain.length = n + 1 := by
  simp [leafBelow, ManagedClass.chain]

/-- A method that takes any number of objects of a class. -/
def pickAll
    (c : ManagedClass) : Method :=
  (picking [.array (.object c)]).variadic

def leafDesk
    (c : ManagedClass) : Bridge :=
  (Bridge.empty {}).withStandardRules.withClass
    { ClassDescriptor.ofType deskType with methods := [pickAll c] }

theorem handle_of_mem_zipIdx
    {n : Nat}
    {h : Handle}
    {arg : Shape × Nat}
    (harg : arg ∈ ((List.replicate n (Value.handle h)).map Value.shape).zipIdx) :
    arg.1 = .handle := by
  rw [List.map_replicate] at harg
  exact List.eq_of_mem_replicate (List.fst_mem_of_mem_zipIdx harg)

/-- Many handles for a class that is deep below the root. -/
theorem overflows_leafDesk
    {c : ManagedClass}
    {n : Nat}
    (hlarge : 2 ^ 32 ≤ n * (1 + c.chain.length))
    (h : Handle)
    (w : World) :
    (leafDesk c).Overflows (.invoke (.type "Desk") "pick" (List.replicate n (.handle h)) .simplest)
      { world := w, cache := .empty } := by
  refine ⟨_, rfl, fun _ => rfl, pickAll c, List.mem_singleton.2 rfl, ⟨rfl, ?_⟩, ?_⟩
  · rintro ⟨shape, i⟩ harg
    cases handle_of_mem_zipIdx harg
    rfl
  · rintro ⟨hsum, -⟩
    have hrank : ∀ i, ((pickAll c).target i).rank = 1 + c.chain.length := fun i => rfl
    simp only [hrank, List.map_const', List.length_zipIdx, List.length_map, List.length_replicate,
      List.sum_replicate_nat] at hsum
    omega

/-- A number and two texts are used by rules whose priorities have the sum ten, and many handles by
rules of priority zero.  Both calls panic. -/
theorem resolution_panics :
    let mixed : List Value := [.number (.ofInt 1), .text "a", .text "b"]
    let leaf := leafBelow 65535
    let many : List Value := List.replicate 65536 (.handle ⟨1⟩)
    ((pickUneven.rulesFor unevenDesk.catalog (mixed.map Value.shape)).map Rule.priority =
        [2147483647, 10, -2147483647] ∧
      (unevenDesk.invoke (.type "Desk") "pick" mixed .simplest (unevenDesk.newSession 1 .empty)).1 =
        .error .overflow ∧
      ¬ NeverPanics (unevenDesk.invoke (.type "Desk") "pick" mixed .simplest)) ∧
    (∀ r ∈ (pickAll leaf).rulesFor (leafDesk leaf).catalog (many.map Value.shape),
        r.priority = 0) ∧
      ¬ NeverPanics ((leafDesk leaf).invoke (.type "Desk") "pick" many .simplest) := by
  intro mixed leaf many
  have hpanics : ∀ {b : Bridge} {args s},
      b.Overflows (.invoke (.type "Desk") "pick" args .simplest) s →
        (b.invoke (.type "Desk") "pick" args .simplest s).1 = .error .overflow := by
    intro b args s hover
    exact Answer.value.inj (congrArg Prod.fst (Bridge.perform_of_overflows hover))
  have hmixed : unevenDesk.Overflows (.invoke (.type "Desk") "pick" mixed .simplest)
      (unevenDesk.newSession 1 .empty) := by
    refine ⟨_, rfl, fun _ => rfl, pickUneven, List.mem_singleton.2 rfl, ⟨rfl, by decide⟩, ?_⟩
    intro hfits
    exact absurd (hfits.priority 2) (by decide)
  have hlarge : 2 ^ 32 ≤ 65536 * (1 + leaf.chain.length) := by
    rw [length_chain_leafBelow]
    decide
  have hmany := overflows_leafDesk hlarge ⟨1⟩ ((leafDesk leaf).newSession 1 .empty).world
  refine ⟨⟨rfl, hpanics hmixed, fun hcalm => hcalm _ _ (hpanics hmixed)⟩, ?_,
    fun hcalm => hcalm _ _ (hpanics hmany)⟩
  intro r hr
  obtain ⟨⟨shape, i⟩, harg, hfound⟩ := List.mem_filterMap.1 hr
  cases handle_of_mem_zipIdx harg
  cases hfound
  rfl

end Desk

end CellBridge
