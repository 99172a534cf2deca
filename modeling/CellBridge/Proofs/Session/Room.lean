import CellBridge.Proofs.Call.Copies
import CellBridge.Proofs.Conversion.Nesting
import CellBridge.Proofs.Session.CacheKey

/-!
# Sessions with more room

The room of its catalog bounds how deep the rules of a bridge may nest conversions.  A call looks up
its candidates without converting anything, so that the room matters for attempts alone, and there
only to conversions that would not end: `covers_attempt`.  `covers_invokeMember` passes this on to
the whole call, since what never ends is the outcome of the call as well.

A bridge with more room answers every call in the same way, unless the call does not end at all,
`perform_withRoom`.  So sessions in which every call ends are sessions of the bridge with any larger
room, `sessionAfter_withRoom`.
-/

namespace CellBridge

section Defs

/-- The call does not end. -/
def Answer.Endless : Answer → Prop
  | .value result => result = .error .diverged
  | .object result => result = .error .diverged
  | .report result => result = .error .diverged

/-- If the first step ends, the second one does the same. -/
def Step.EndsAlike
    {α : Type}
    (step step' : Step α)
    (s : Session) : Prop :=
  step' s = step s ∨ (step s).1 = .error .diverged

/-- The bridge whose conversions have this room. -/
def Bridge.withRoom
    (b : Bridge)
    (room : Nat) : Bridge :=
  { b with catalog := b.catalog.withRoom room }

end Defs

theorem Catalog.coversCatalog_withRoom
    {c : Catalog}
    (hc : c.Relays)
    {room : Nat}
    (hroom : c.room ≤ room) :
    Gap.endless.CoversCatalog id c (c.withRoom room) := by
  refine ⟨fun r hr t v => covers_read hc hr hroom t v, fun r hr o => covers_write hc hr hroom o, ?_⟩
  intro t
  rw [Option.map_id]
  rfl

namespace Candidate

section Building

variable (c : Catalog) (room : Nat)

theorem routes_withRoom
    (m : Method)
    (i : Nat)
    (shapes : List Shape) :
    routes (c.withRoom room) m i shapes = routes c m i shapes := by
  induction shapes generalizing i with
  | nil =>
      rfl
  | cons s shapes ih =>
      rw [routes, routes, ih]
      rfl

theorem build_withRoom
    (shapes : List Shape) :
    build (c.withRoom room) shapes = build c shapes := by
  funext m order
  rw [build, build, routes_withRoom]
  rfl

end Building

section Attempts

variable {c : Catalog} {room : Nat} {cand : Candidate}

/-- One attempt with more room.  The body is the same. -/
theorem covers_attempt
    (hc : c.Relays)
    (hroom : c.room ≤ room)
    (hcand : cand.Draws c)
    (receiver : Option Object)
    (args : List Value)
    (mode : ResultMode) :
    Gap.endless.Covers (cand.attempt c receiver args mode)
      (cand.attempt (c.withRoom room) receiver args mode) := by
  have hcovers := Catalog.coversCatalog_withRoom hc hroom
  have hcopied := CopiedBy.refl cand
  refine covers_guarded ?_ _
  refine (covers_convertArguments hcovers hcand hcopied args).bind fun converted => ?_
  exact Gap.Covers.bind_right _ fun o => covers_convertResult hcovers hcand hcopied mode o

/-- An attempt that does not end is the last one, so that the attempts are covered one by one. -/
theorem covers_attemptAll
    (hc : c.Relays)
    (hroom : c.room ≤ room)
    (receiver : Option Object)
    (args : List Value)
    (mode : ResultMode)
    (cands : List Candidate)
    (hcands : ∀ cand ∈ cands, cand.Draws c) :
    Gap.endless.Covers (attemptAll c receiver args mode cands)
      (attemptAll (c.withRoom room) receiver args mode cands) := by
  induction cands with
  | nil =>
      exact Gap.Covers.refl _
  | cons cand cands ih =>
      have hattempt := covers_attempt hc hroom (hcands cand List.mem_cons_self) receiver args mode
      have hrest := ih fun x hx => hcands x (List.mem_cons_of_mem cand hx)
      rw [attemptAll, attemptAll, map_eq_pure_bind, map_eq_pure_bind]
      refine covers_tryCatch (hattempt.bind_left _) rfl fun f => ?_
      split
      · exact Gap.Covers.refl _
      · exact hrest
      · exact Gap.Covers.refl _

end Attempts

end Candidate

section Members

variable {c : Catalog} {room : Nat}

theorem buildAll_withRoom
    (c : Catalog)
    (room : Nat) :
    buildAll (c.withRoom room) = buildAll c := by
  funext shapes methods
  rw [buildAll, Candidate.build_withRoom]
  rfl

/-- Candidates are looked up without regard to the room. -/
theorem resolve_withRoom
    (c : Catalog)
    (room : Nat) :
    resolve (c.withRoom room) = resolve c := by
  funext r t member shapes staticsOnly
  rw [resolve, resolve, buildAll_withRoom]

/-- Calls of a member with more room. -/
theorem covers_invokeMember
    (hc : c.Relays)
    (hroom : c.room ≤ room)
    (t : Ty)
    (member : String)
    (receiver : Option Object)
    (args : List Value)
    (mode : ResultMode)
    (cands : List Candidate)
    (hcands : ∀ cand ∈ cands, cand.Draws c) :
    Gap.endless.Covers (invokeMember c t member receiver args mode cands)
      (invokeMember (c.withRoom room) t member receiver args mode cands) := by
  refine covers_tryCatch ?_ rfl fun f => Gap.Covers.refl _
  exact (Candidate.covers_attemptAll hc hroom receiver args mode cands hcands).bind_left _

end Members

namespace Step

variable {α : Type} {s : Session}

theorem endsAlike_toStep
    {act act' : Action α}
    (h : Gap.endless.Covers act act')
    (s : Session) :
    EndsAlike act.toStep act'.toStep s := by
  rcases h s.world with heq | ⟨f, w', hrun, rfl⟩
  · refine Or.inl ?_
    rw [toStep_run, toStep_run, heq]
  · refine Or.inr ?_
    rw [toStep_run, hrun]

/-- What never ends is no failure, and absorbed by nothing. -/
theorem EndsAlike.absorb
    {step step' : Step Value}
    (h : step.EndsAlike step' s) :
    step.absorb.EndsAlike step'.absorb s := by
  rcases h with heq | hendless
  · refine Or.inl ?_
    rw [absorb_run, absorb_run, heq]
  · refine Or.inr ?_
    rw [absorb_run]
    cases hrun : step s with
    | mk result s' =>
        rw [hrun] at hendless
        cases hendless
        rfl

theorem EndsAlike.answer
    {step step' : Step α}
    {make : Except Fault α → Answer}
    (h : step.EndsAlike step' s)
    (hmake : (make (.error .diverged)).Endless) :
    Step.answer make step' s = Step.answer make step s ∨ (Step.answer make step s).1.Endless := by
  rcases h with heq | hendless
  · refine Or.inl ?_
    rw [Step.answer, Step.answer, heq]
  · refine Or.inr ?_
    rw [Step.answer, hendless]
    exact hmake

end Step

namespace Bridge

variable {b : Bridge} {room : Nat} {rs : List Request} {s : Session}

section Calls

variable (hb : b.catalog.Relays) (hroom : b.catalog.room ≤ room)
include hb hroom

theorem endsAlike_callMember
    (hs : b.Reached rs s)
    (t : Ty)
    (member : String)
    (receiver : Option Object)
    (args : List Value)
    (mode : ResultMode) :
    Step.EndsAlike (b.callMember t member receiver args mode)
      ((b.withRoom room).callMember t member receiver args mode) s := by
  have hcandidates : (b.withRoom room).candidates = b.candidates := by
    funext t member shapes staticsOnly
    rw [candidates, candidates, withRoom, resolve_withRoom]
  rw [Step.EndsAlike, callMember_run, callMember_run, hcandidates]
  cases hlookup : b.candidates t member (args.map Value.shape) receiver.isNone s with
  | mk result s' =>
      cases result with
      | error f =>
          exact Or.inl rfl
      | ok cands =>
          have hcands := hs.draws_of_lookup (r := ⟨t, member, _, receiver.isNone⟩) hlookup
          exact Step.endsAlike_toStep
            (covers_invokeMember hb hroom t member receiver args mode cands hcands) s'

theorem endsAlike_tryInvoke
    (hs : b.Reached rs s)
    (target : Target)
    (method : String)
    (args : List Value)
    (mode : ResultMode) :
    Step.EndsAlike (b.tryInvoke target method args mode)
      ((b.withRoom room).tryInvoke target method args mode) s := by
  cases target with
  | handle h =>
      rw [Step.EndsAlike, tryInvoke_handle_run, tryInvoke_handle_run]
      cases s.world.heap.resolve? h with
      | none =>
          exact Or.inl rfl
      | some o =>
          exact endsAlike_callMember hb hroom hs o.type method (some o) args mode
  | type name =>
      have hregistry : (b.withRoom room).registry = b.registry := rfl
      rw [Step.EndsAlike, tryInvoke_type_run, tryInvoke_type_run, hregistry]
      cases b.registry.lookup? name with
      | none =>
          exact Or.inl rfl
      | some d =>
          exact endsAlike_callMember hb hroom hs d.type method none args mode

theorem endsAlike_tryConstruct
    (hs : b.Reached rs s)
    (type : String)
    (args : List Value) :
    Step.EndsAlike (b.tryConstruct type args) ((b.withRoom room).tryConstruct type args) s := by
  have hregistry : (b.withRoom room).registry = b.registry := rfl
  rw [Step.EndsAlike, tryConstruct_run, tryConstruct_run, hregistry]
  cases b.registry.lookup? type with
  | none =>
      exact Or.inl rfl
  | some d =>
      exact endsAlike_callMember hb hroom hs d.type constructorName none args .object

theorem covers_toCell
    (o : Object) :
    Gap.endless.Covers (b.toCell o) ((b.withRoom room).toCell o) := by
  rw [toCell, toCell]
  split
  · exact Gap.Covers.refl _
  · show Gap.endless.Covers
      (Action.orFail _ (b.catalog.findByType? o.type) >>= _)
      (Action.orFail _ (b.catalog.findByType? o.type) >>= _)
    cases hrule : b.catalog.findByType? o.type with
    | none =>
        exact Gap.Covers.refl _
    | some rule =>
        have hr : rule ∈ b.catalog.rules := List.mem_of_find?_eq_some hrule
        exact covers_guarded (Catalog.covers_write hb hr hroom o) rule.name

theorem covers_toManaged
    (v : Value)
    (expected : Ty) :
    Gap.endless.Covers (b.toManaged v expected) ((b.withRoom room).toManaged v expected) := by
  rw [toManaged, toManaged]
  show Gap.endless.Covers
    (Action.orFail _ (b.catalog.findByShape? v.shape expected) >>= _)
    (Action.orFail _ (b.catalog.findByShape? v.shape expected) >>= _)
  cases hrule : b.catalog.findByShape? v.shape expected with
  | none =>
      exact Gap.Covers.refl _
  | some rule =>
      have hr : rule ∈ b.catalog.rules := List.mem_of_find?_eq_some hrule
      exact covers_guarded (Catalog.covers_read hb hr hroom expected v) rule.name

/-- With more room a bridge answers as before, and leaves the same session, unless the call does not
end. -/
theorem perform_withRoom
    (hs : b.Reached rs s)
    (call : HostCall) :
    (b.withRoom room).perform call s = b.perform call s ∨ (b.perform call s).1.Endless := by
  cases call with
  | invoke target method args mode =>
      exact (endsAlike_tryInvoke hb hroom hs target method args mode).absorb.answer rfl
  | construct type args =>
      exact (endsAlike_tryConstruct hb hroom hs type args).absorb.answer rfl
  | invokeStatic type method args mode =>
      exact (endsAlike_tryInvoke hb hroom hs (.type type) method args mode).absorb.answer rfl
  | toCell o =>
      exact (Step.endsAlike_toStep (covers_toCell hb hroom o) s).answer rfl
  | toManaged v expected =>
      exact (Step.endsAlike_toStep (covers_toManaged hb hroom v expected) s).answer rfl
  | collect reachable =>
      exact Or.inl rfl

/-- Sessions in which every call ends are the same with more room. -/
theorem sessionAfter_withRoom
    (hs : b.Reached rs s)
    (calls : List HostCall)
    (hends : ∀ (n : Nat) call, calls[n]? = some call →
      ¬ (b.perform call (b.sessionAfter s (calls.take n))).1.Endless) :
    (b.withRoom room).sessionAfter s calls = b.sessionAfter s calls := by
  induction calls generalizing rs s with
  | nil =>
      -- both folds are over no calls; left as they stand, what they fold would be compared
      show s = s
      rfl
  | cons call calls ih =>
      have hfirst := hends 0 call rfl
      rw [List.take_zero] at hfirst
      have hsame := (perform_withRoom hb hroom hs call).resolve_right hfirst
      rw [sessionAfter_cons, sessionAfter_cons, hsame]
      refine ih (hs.perform call) fun n later hlater => ?_
      have hlater' := hends (n + 1) later hlater
      rw [List.take_succ_cons, sessionAfter_cons] at hlater'
      exact hlater'

end Calls

end Bridge
end CellBridge
