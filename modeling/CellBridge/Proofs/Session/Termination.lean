import CellBridge.Proofs.Call.AddCalls
import CellBridge.Proofs.Conversion.EntryPoints
import CellBridge.Proofs.Heap.Sweep
import CellBridge.Proofs.Session.Overflow

/-!
# Rendering comes to an end

Rendering goes from collections to what they hold, so it ends as long as nothing contains itself.
Lists and sets are shared, and `add` may put anything that the host has a handle of into them,
themselves included.  This is the only way to make a cycle: `acyclic_iff` says that containment
stays free of cycles exactly as long as no call of `add` closes one, and that all calls return
until then.

The invariant is `World.Sound`; `settles_perform` is its step for one call on a bridge that looks
candidates up afresh, `Follows` carries it to bridges that remember them.
-/

namespace CellBridge

section Defs

/-- A call that the cells of a sheet make. -/
inductive CellCall where
  | invoke (target : Target) (method : String) (args : List Value) (mode : ResultMode)
  | construct (type : String) (args : List Value)
  | collect (reachable : List Handle)

def CellCall.toHost : CellCall → HostCall
  | .invoke target method args mode => .invoke target method args mode
  | .construct type args => .construct type args
  | .collect reachable => .collect reachable

/-- Does the call come back with a result? -/
def Answer.Returns : Answer → Prop
  | .value result => ∃ v, result = .ok v
  | .object result => ∃ o, result = .ok o
  | .report result => ∃ r, result = .ok r

namespace Bridge

/-- The bridge with the standard rules and the built-in classes. -/
def standard
    (config : BridgeConfig) : Bridge :=
  (empty config).withStandardRules.withBuiltins

/-- The call adds an object to a list or a set that the object leads to. -/
inductive ClosesCycle
    (b : Bridge)
    (w : World) : CellCall → Prop
  | add
      {h : Handle}
      {v : Value}
      {mode : ResultMode}
      {r o : Object}
      {w' : World}
      (hreceiver : w.heap.resolve? h = some r)
      (hmutable : r.type.isMutable = true)
      (hread : b.toManaged v .any w = (.ok o, w'))
      (hleads : w'.store.Leads o.id r.id) :
      ClosesCycle b w (.invoke (.handle h) "add" [v] mode)

/-- The session of a bridge, next to that of one that looks candidates up afresh. -/
def Follows
    (config : BridgeConfig)
    (s s₀ : Session) : Prop :=
  if config.cacheCandidates then
    ∃ rs, (standard config).Agrees rs s s₀ ∧ ∀ r ∈ rs, r.type.plain = true
  else
    s = s₀

/-- The session after calls of cells, from the empty heap on. -/
def cellSession
    (config : BridgeConfig)
    (ambient : UInt64)
    (calls : List CellCall) : Session :=
  (standard config).sessionAfter ((standard config).newSession ambient .empty)
    (calls.map CellCall.toHost)

end Bridge

/-- The result of a call that does not run for ever and ends abruptly only if a sum overflows, in a
world that is sound. -/
structure Settles
    (p : Except Fault Value × Session) : Prop where
  halts : p.1 ≠ .error .diverged
  calm : ∀ m, p.1 = .error (.panicked m) → .panicked m = Fault.overflow
  sound : p.2.world.Sound

end Defs

section Conversions

/-- A cycle of the heap brings no objects. -/
theorem Heap.resolve?_of_cycle
    {h : Heap}
    {reachable : List Handle}
    {handle : Handle}
    {o : Object}
    (ho : (h.cycle reachable).2.resolve? handle = some o) :
    h.resolve? handle = some o := by
  have hcycle : (h.cycle reachable).2.resolve? handle =
      (h.sweep (h.doomed reachable)).objects.get? handle := rfl
  rw [hcycle, Heap.sweep_objects, Table.get?_foldl_erase] at ho
  split at ho
  · cases ho
  · exact ho

end Conversions

section Steps

variable {s : Session}

/-- The result of an action that keeps the world sound. -/
theorem settles_toStep
    {act : Action Value}
    (hact : Ends World.Keeps act s.world fun _ _ => True)
    (hcalm : ∀ m, (act s.world).1 ≠ .error (.panicked m)) :
    Settles (act.toStep s) := by
  exact ⟨hact.halts, fun m h => absurd h (hcalm m), hact.leads⟩

theorem settles_error
    {f : Fault}
    (hf : f = .overflow ∨ ∃ e, f = .failed e)
    (hs : s.world.Sound) :
    Settles (.error f, s) := by
  rcases hf with rfl | ⟨e, rfl⟩
  · refine ⟨?_, fun m h => (Except.error.inj h).symm, hs⟩
    intro h
    cases h
  · refine ⟨?_, ?_, hs⟩
    · intro h
      cases h
    · intro m h
      cases h

/-- A result for the host: the failures are values. -/
theorem Settles.answer
    {step : Step Value}
    (h : Settles (step s)) :
    ((Step.answer .value step.absorb s).1.Returns ∨
        (Step.answer .value step.absorb s).1 = .value (.error .overflow)) ∧
      (Step.answer .value step.absorb s).2.world.Sound := by
  obtain ⟨hhalts, hcalm, hsound⟩ := h
  rw [Step.answer, absorb_run]
  cases hrun : step s with
  | mk result s' =>
      rw [hrun] at hhalts hcalm hsound
      cases result with
      | ok v =>
          exact ⟨Or.inl ⟨v, rfl⟩, hsound⟩
      | error f =>
          cases f with
          | failed e =>
              exact ⟨Or.inl ⟨e.toValue, rfl⟩, hsound⟩
          | panicked m =>
              exact ⟨Or.inr (congrArg (fun f => Answer.value (.error f)) (hcalm m rfl)), hsound⟩
          | diverged =>
              exact absurd rfl hhalts

end Steps

namespace Bridge

section Fresh

variable {config : BridgeConfig} {s : Session}

/-- A call of a member on a bridge that looks candidates up afresh. -/
theorem callMember_off_run
    (b : Bridge)
    (t : Ty)
    (member : String)
    (receiver : Option Object)
    (args : List Value)
    (mode : ResultMode)
    (s : Session) :
    (b.withCaching false).callMember t member receiver args mode s =
      match b.resolved ⟨t, member, args.map Value.shape, receiver.isNone⟩ with
      | .ok cands => (invokeMember b.catalog t member receiver args mode cands).toStep s
      | .error f => (.error f, s) := by
  have hoff := candidates_off b ⟨t, member, args.map Value.shape, receiver.isNone⟩ s
  rw [callMember_run, hoff]
  cases b.resolved ⟨t, member, args.map Value.shape, receiver.isNone⟩ <;> rfl

/-- The world after a call on a handle. -/
theorem perform_invoke_world
    (b : Bridge)
    {h : Handle}
    {r : Object}
    (hreceiver : s.world.heap.resolve? h = some r)
    {method : String}
    {args : List Value}
    {cands : List Candidate}
    (hres : b.resolved ⟨r.type, method, args.map Value.shape, false⟩ = .ok cands)
    (mode : ResultMode) :
    ((b.withCaching false).perform (.invoke (.handle h) method args mode) s).2.world =
      (invokeMember b.catalog r.type method (some r) args mode cands s.world).2 := by
  show (Step.absorb _ s).2.world = _
  rw [absorb_session, tryInvoke_handle_run, hreceiver]
  dsimp only
  rw [callMember_off_run, Option.isNone_some, hres]
  rfl

/-- The world after a constructor. -/
theorem perform_construct_world
    (b : Bridge)
    {type : String}
    {d : ClassDescriptor}
    (hd : b.registry.lookup? type = some d)
    {args : List Value}
    {cands : List Candidate}
    (hres : b.resolved ⟨d.type, constructorName, args.map Value.shape, true⟩ = .ok cands)
    (s : Session) :
    ((b.withCaching false).perform (.construct type args) s).2.world =
      (invokeMember b.catalog d.type constructorName none args .object cands s.world).2 := by
  have hd' : (b.withCaching false).registry.lookup? type = some d := hd
  show (Step.absorb _ s).2.world = _
  rw [absorb_session, tryConstruct_run, hd']
  dsimp only
  rw [callMember_off_run, Option.isNone_none, hres]
  rfl

/-- Calls of all members but `add` settle. -/
theorem settles_callMember
    (t : Ty)
    {member : String}
    (hmember : member ≠ "add")
    {receiver : Option Object}
    (args : List Value)
    (mode : ResultMode)
    (hs : s.world.Sound)
    (hreceiver : ∀ o, receiver = some o → Known o s.world) :
    Settles (((standard config).withCaching false).callMember t member receiver args mode s) := by
  rw [callMember_off_run]
  cases hres : (standard config).resolved ⟨t, member, args.map Value.shape, receiver.isNone⟩ with
  | error f =>
      exact settles_error (error_of_resolve hres) hs
  | ok cands =>
      have htame : ∀ cand ∈ cands, cand.Tame standardCatalog := by
        intro cand hcand
        obtain ⟨m, hm, -, order, hbuild⟩ := built_of_resolve hres hcand
        exact tame_of_build (tame_of_visible hmember hm) hbuild
      have hattempts := ends_attemptAll good_standardCatalog cands htame hreceiver args mode hs
      have hcall := ends_invokeMember_of t member receiver args mode cands hattempts
        fun w' hw' => hw'.sound.grows
      exact settles_toStep (hcall.mono (fun w' hw' => hw'.sound) fun _ _ _ h => h)
        (invokeMember_ne_panicked t member receiver args mode cands s.world)

/-- Calls of `add` on an object settle, unless they close a cycle. -/
theorem settles_callMember_add
    {h : Handle}
    {r : Object}
    (hr : s.world.heap.resolve? h = some r)
    (args : List Value)
    (mode : ResultMode)
    (hs : s.world.Sound)
    (hfree : ¬ (standard config).ClosesCycle s.world (.invoke (.handle h) "add" args mode)) :
    Settles
      (((standard config).withCaching false).callMember r.type "add" (some r) args mode s) := by
  rw [callMember_off_run, Option.isNone_some]
  cases hres : (standard config).resolved ⟨r.type, "add", args.map Value.shape, false⟩ with
  | error f =>
      exact settles_error (error_of_resolve hres) hs
  | ok cands =>
      refine settles_toStep ?_
        (invokeMember_ne_panicked r.type "add" (some r) args mode cands s.world)
      refine ends_invokeMember_add good_standardCatalog hs (hs.heap h r hr) hres ?_ mode
      rintro hmutable v rule o w' rfl hrule hread hleads
      exact hfree (.add hr hmutable (toManaged_run_ok.2 ⟨rule, hrule, hread⟩) hleads)

/-- Calls that name a type settle. -/
theorem settles_callNamed
    (name member : String)
    (args : List Value)
    (mode : ResultMode)
    (hs : s.world.Sound) :
    Settles
      (match (standard config).registry.lookup? name with
        | some d => ((standard config).withCaching false).callMember d.type member none args mode s
        | none => (.error (.failed (.unknownType name)), s)) := by
  cases hd : (standard config).registry.lookup? name with
  | none =>
      exact settles_error (Or.inr ⟨_, rfl⟩) hs
  | some d =>
      by_cases hmember : member = "add"
      · subst hmember
        have hvisible := visible_add_static (mem_classes_of_lookup? hd)
        have hres : (standard config).resolved ⟨d.type, "add", args.map Value.shape, true⟩ =
            .error (.failed (.unknownMember d.type.display "add")) := by
          show resolve standardCatalog builtinRegistry d.type "add" _ true = _
          rw [resolve, hvisible]
        dsimp only
        rw [callMember_off_run, Option.isNone_none, hres]
        exact settles_error (Or.inr ⟨_, rfl⟩) hs
      · refine settles_callMember d.type hmember args mode hs ?_
        intro o ho
        cases ho

/-- What every call does that does not close a cycle. -/
theorem settles_perform
    (call : CellCall)
    (hs : s.world.Sound)
    (hfree : ¬ (standard config).ClosesCycle s.world call) :
    ((((standard config).withCaching false).perform call.toHost s).1.Returns ∨
        (((standard config).withCaching false).perform call.toHost s).1 =
          .value (.error .overflow)) ∧
      (((standard config).withCaching false).perform call.toHost s).2.world.Sound := by
  cases call with
  | invoke target method args mode =>
      refine Settles.answer ?_
      cases target with
      | handle h =>
          rw [tryInvoke_handle_run]
          cases hr : s.world.heap.resolve? h with
          | none =>
              exact settles_error (Or.inr ⟨_, rfl⟩) hs
          | some r =>
              by_cases hmethod : method = "add"
              · subst hmethod
                exact settles_callMember_add hr args mode hs hfree
              · refine settles_callMember r.type hmethod args mode hs ?_
                intro o ho
                cases ho
                exact hs.heap h r hr
      | type name =>
          rw [tryInvoke_type_run]
          exact settles_callNamed name method args mode hs
  | construct type args =>
      refine Settles.answer ?_
      rw [tryConstruct_run]
      exact settles_callNamed type constructorName args .object hs
  | collect reachable =>
      refine ⟨Or.inl ⟨_, rfl⟩, hs.store, ?_⟩
      intro handle o ho
      exact hs.heap handle o (Heap.resolve?_of_cycle ho)

/-- What a call does that closes a cycle. -/
theorem tangles_perform
    {call : CellCall}
    (hs : s.world.Sound)
    (hcloses : (standard config).ClosesCycle s.world call) :
    ¬ (((standard config).withCaching false).perform call.toHost s).2.world.store.Acyclic := by
  cases hcloses with
  | @add h v mode r o w' hreceiver hmutable hread hleads =>
      obtain ⟨rule, hrule, hrun⟩ := toManaged_run_ok.1 hread
      obtain ⟨cands, hcands, hcall⟩ := ends_invokeMember_add_closing good_standardCatalog rfl hs
        (hs.heap h r hreceiver) hmutable hrule hrun hleads mode
      have hres : (standard config).resolved ⟨r.type, "add", [v].map Value.shape, false⟩ =
          .ok cands := hcands
      have hworld := perform_invoke_world (standard config) hreceiver hres mode
      show ¬ (((standard config).withCaching false).perform
        (.invoke (.handle h) "add" [v] mode) s).2.world.store.Acyclic
      rw [hworld]
      exact hcall.leads

end Fresh

section Remembering

variable {config : BridgeConfig} {s s₀ : Session}

theorem Follows.world
    (h : Follows config s s₀) :
    s.world = s₀.world := by
  rw [Follows] at h
  split at h
  · obtain ⟨rs, hagrees, -⟩ := h
    exact hagrees.world
  · rw [h]

theorem namesTell_of_plain
    {rs : List Request}
    (hrs : ∀ r ∈ rs, r.type.plain = true) :
    NamesTell rs := by
  have hnone : ∀ t : Ty, t.plain = true → t.ancestors = [] := by
    intro t ht
    cases t with
    | object c => cases ht
    | _ => rfl
  intro r hr r' hr' _
  rw [hnone r.type (hrs r hr), hnone r'.type (hrs r' hr')]

theorem plain_of_lookup?
    {name : String}
    {d : ClassDescriptor}
    (hd : builtinRegistry.lookup? name = some d) :
    d.type.plain = true := by
  have hmem := mem_classes_of_lookup? hd
  simp only [Builtin.classes, List.mem_cons, List.not_mem_nil, or_false] at hmem
  rcases hmem with rfl | rfl | rfl | rfl <;> rfl

/-- Calls are made on types without classes. -/
theorem plain_of_request?
    {call : CellCall}
    {w : World}
    (hs : w.Sound)
    {r : Request}
    (hr : (standard config).request? w call.toHost = some r) :
    r.type.plain = true := by
  have hnamed : ∀ name member args,
      (standard config).namedRequest? name member args = some r → r.type.plain = true := by
    intro name member args hname
    obtain ⟨d, hd, rfl⟩ := Option.map_eq_some_iff.1 hname
    exact plain_of_lookup? hd
  cases call with
  | invoke target method args mode =>
      cases target with
      | handle h =>
          obtain ⟨o, ho, rfl⟩ := Option.map_eq_some_iff.1 hr
          exact (hs.heap h o ho).plain
      | type name => exact hnamed name method args hr
  | construct type args => exact hnamed type constructorName args hr
  | collect reachable => cases hr

theorem follows_newSession
    (config : BridgeConfig)
    (ambient : UInt64) :
    Follows config ((standard config).newSession ambient .empty)
      ((standard config).newSession ambient .empty) := by
  rw [Follows]
  split
  · refine ⟨[], ⟨rfl, remembers_nil _, rfl⟩, ?_⟩
    intro r hr
    cases hr
  · rfl

/-- A call, with and without remembering. -/
theorem Follows.perform
    (h : Follows config s s₀)
    (call : CellCall)
    (hs : s₀.world.Sound) :
    ((standard config).perform call.toHost s).1 =
        (((standard config).withCaching false).perform call.toHost s₀).1 ∧
      Follows config ((standard config).perform call.toHost s).2
        (((standard config).withCaching false).perform call.toHost s₀).2 := by
  have hsame : (standard config).withCaching config.cacheCandidates = standard config := rfl
  rw [Follows] at h
  split at h
  · rename_i hcaches
    obtain ⟨rs, hagrees, hrs⟩ := h
    rw [hcaches] at hsame
    have hplain : ∀ r ∈ rs ++ ((standard config).request? s₀.world call.toHost).toList,
        r.type.plain = true := by
      intro r hr
      rcases List.mem_append.1 hr with hold | hnew
      · exact hrs r hold
      · exact plain_of_request? hs (Option.mem_toList.1 hnew)
    have hnext := hagrees.perform call.toHost (namesTell_of_plain hplain)
    rw [hsame] at hnext
    refine ⟨hnext.1, ?_⟩
    rw [Follows, if_pos hcaches]
    exact ⟨_, hnext.2, hplain⟩
  · rename_i hcaches
    subst h
    rw [Bool.not_eq_true] at hcaches
    rw [hcaches] at hsame
    rw [hsame]
    refine ⟨rfl, ?_⟩
    rw [Follows, hcaches]
    rfl

end Remembering

section Runs

variable {config : BridgeConfig} {ambient : UInt64} {calls : List CellCall} {n : Nat}

theorem cellSession_take_succ
    {call : CellCall}
    (hcall : calls[n]? = some call) :
    cellSession config ambient (calls.take (n + 1)) =
      ((standard config).perform call.toHost (cellSession config ambient (calls.take n))).2 := by
  have hhost : (calls.map CellCall.toHost)[n]? = some call.toHost := by
    rw [List.getElem?_map, hcall]
    rfl
  rw [cellSession, List.map_take, sessionAfter_take_succ _ _ hhost, cellSession, List.map_take]

theorem sound_newSession
    (config : BridgeConfig)
    (ambient : UInt64) :
    ((standard config).newSession ambient .empty).world.Sound := by
  refine ⟨Store.sound_empty, ?_⟩
  intro handle o ho
  cases ho

/-- The world is sound as long as no call closes a cycle. -/
theorem sound_cellSession
    (hfree : ∀ k, k < n → ∀ call, calls[k]? = some call →
      ¬ (standard config).ClosesCycle (cellSession config ambient (calls.take k)).world call) :
    ∃ s₀, Follows config (cellSession config ambient (calls.take n)) s₀ ∧ s₀.world.Sound := by
  induction n with
  | zero =>
      exact ⟨_, follows_newSession config ambient, sound_newSession config ambient⟩
  | succ n ih =>
      obtain ⟨s₀, hfollows, hs⟩ := ih fun k hk => hfree k (Nat.lt_succ_of_lt hk)
      cases hcall : calls[n]? with
      | none =>
          rw [List.take_add_one, hcall, Option.toList_none, List.append_nil]
          exact ⟨s₀, hfollows, hs⟩
      | some call =>
          have hnext := hfree n (Nat.lt_succ_self n) call hcall
          rw [hfollows.world] at hnext
          rw [cellSession_take_succ hcall]
          exact ⟨_, (hfollows.perform call hs).2, (settles_perform call hs hnext).2⟩

/-- An object that is known can be rendered. -/
theorem ends_toCell
    {w : World}
    {o : Object}
    (hs : w.Sound)
    (ho : Known o w) :
    Ends World.Renders ((standard config).toCell o) w fun _ _ => True := by
  rw [toCell]
  split
  · exact Ends.pure hs.renders trivial
  · refine (Ends.orFail (P := fun rule w' => w = w' ∧ rule ∈ standardCatalog.rules) _ hs.renders
      fun rule hrule => ⟨rfl, Catalog.mem_of_findByType? hrule⟩).bind ?_
    rintro rule _ - ⟨rfl, hrule⟩
    exact Ends.guarded _ (Catalog.ends_write good_standardCatalog.writes hrule hs ho)
      fun w' hw' => hw'.sound.renders

/-- The built-in methods want types of small rank. -/
theorem rank_target_of_visible
    {t : Ty}
    {member : String}
    {staticsOnly : Bool}
    {m : Method}
    (hm : m ∈ visibleMethods builtinRegistry t member staticsOnly)
    (i : Nat) :
    (m.target i).rank ≤ 5 := by
  have hsmall : ∀ d ∈ Builtin.classes, ∀ m ∈ d.constructors ++ d.methods,
      (∀ t ∈ m.fixed, t.rank ≤ 5) ∧ (m.rest.getD .any).rank ≤ 5 := by
    decide
  obtain ⟨d, hd, hdeclared⟩ := mem_visibleMethods hm
  have hmem : m ∈ d.constructors ++ d.methods := by
    rw [List.mem_append]
    exact hdeclared.imp id And.left
  obtain ⟨hfixed, hrest⟩ := hsmall d hd m hmem
  rw [Method.target]
  cases hi : m.fixed[i]? with
  | some t =>
      exact hfixed t (List.mem_of_getElem? hi)
  | none =>
      exact hrest

/-- It takes very many arguments for a call to overflow. -/
theorem length_of_overflows
    {call : HostCall}
    {s : Session}
    {args : List Value}
    (hargs : call.args? = some args)
    (hover : (standard config).Overflows call s) :
    2 ^ 31 ≤ args.length * 11 := by
  obtain ⟨r, hr, -, m, hm, -, hnot⟩ := hover
  rw [request?_eq] at hr
  obtain ⟨m', hm', rfl⟩ := Option.map_eq_some_iff.1 hr
  cases (args?_of_memberCall? hm').symm.trans hargs
  have hbound : ∀ r ∈ standardCatalog.rules, r.priority.toInt.natAbs ≤ 11 := by
    decide
  have hlength : m'.request.shapes.length = m'.args.length := List.length_map _
  by_contra hfew
  refine hnot (Method.fits_of_bounds (rank_target_of_visible hm) hbound ?_ ?_) <;> omega

/-- Nothing ever contains itself exactly if no call of `add` closes a cycle, and until then all
calls return and all objects behind handles can be rendered.  The one exception are calls with so
many arguments that the sum of the priorities overflows. -/
theorem acyclic_iff
    (config : BridgeConfig)
    (ambient : UInt64)
    (calls : List CellCall) :
    let b := standard config
    let after := fun n => cellSession config ambient (calls.take n)
    ((∀ n, (after n).world.store.Acyclic) ↔
        ∀ n call, calls[n]? = some call → ¬ b.ClosesCycle (after n).world call) ∧
      ((∀ n, (after n).world.store.Acyclic) →
        (∀ n call, calls[n]? = some call → (b.perform call.toHost (after n)).1.Returns ∨
          (b.perform call.toHost (after n)).1 = .value (.error .overflow) ∧
            b.Overflows call.toHost (after n) ∧
            ∃ args, call.toHost.args? = some args ∧ 2 ^ 31 ≤ args.length * 11) ∧
          ∀ n, WellFounded (Function.swap (after n).world.store.Holds) ∧
            ∀ h o, (after n).world.heap.resolve? h = some o →
              (b.toCell o (after n).world).1 ≠ .error .diverged) := by
  intro b after
  have hfree : (∀ n, (after n).world.store.Acyclic) →
      ∀ n call, calls[n]? = some call → ¬ b.ClosesCycle (after n).world call := by
    intro hacyclic n
    -- the first call that closes a cycle is made in a sound world
    induction n using Nat.strong_induction_on with
    | _ n ih =>
        intro call hcall hcloses
        obtain ⟨s₀, hfollows, hs⟩ := sound_cellSession ih
        have hnext := hacyclic (n + 1)
        simp only [after] at hnext hcloses
        rw [hfollows.world] at hcloses
        rw [cellSession_take_succ hcall, (hfollows.perform call hs).2.world] at hnext
        exact tangles_perform hs hcloses hnext
  have hsound : (∀ n call, calls[n]? = some call → ¬ b.ClosesCycle (after n).world call) →
      ∀ n, ∃ s₀, Follows config (after n) s₀ ∧ s₀.world.Sound := by
    intro hnone n
    exact sound_cellSession fun k _ => hnone k
  refine ⟨⟨hfree, ?_⟩, ?_⟩
  · intro hnone n
    obtain ⟨s₀, hfollows, hs⟩ := hsound hnone n
    rw [hfollows.world]
    exact hs.store.acyclic
  · intro hacyclic
    refine ⟨?_, ?_⟩
    · intro n call hcall
      obtain ⟨s₀, hfollows, hs⟩ := hsound (hfree hacyclic) n
      have hnone := hfree hacyclic n call hcall
      rw [hfollows.world] at hnone
      have hsettles := (settles_perform call hs hnone).1
      rw [← (hfollows.perform call hs).1] at hsettles
      refine hsettles.imp_right fun hanswer => ⟨hanswer, ?_⟩
      cases hargs : call.toHost.args? with
      | some args =>
          have hover := ((perform_panicked_iff hargs).1 hanswer).2
          exact ⟨hover, args, rfl, length_of_overflows hargs hover⟩
      | none =>
          cases call with
          | collect => cases hanswer
          | _ => cases hargs
    · intro n
      obtain ⟨s₀, hfollows, hs⟩ := hsound (hfree hacyclic) n
      rw [hfollows.world]
      refine ⟨hs.store.wellFounded, ?_⟩
      intro h o ho
      exact (ends_toCell hs (hs.heap h o ho)).halts

end Runs

section Divergence

variable {w w' : World} {o x : Object} {f : Fault}

/-- A fault of the only item is a fault of the list. -/
theorem list_toCell_run_error
    {cx : Conversions}
    (hlist : w.store.payload o = .list [x])
    {writer : Writer}
    (hwriter : cx.writer? x.type = some writer)
    (hx : writer x w = (.error f, w')) :
    Sequence.list.toCell cx o w = (.error f, w') := by
  have hitems : Sequence.itemsOf "a list" Payload.list? o w = (.ok [x], w) := by
    rw [Sequence.itemsOf, bind_run_ok (Action.payload_run o w), hlist]
    rfl
  have hlookup : Sequence.lookupWriter cx o.type.elementOrAny x.type w = (.ok writer, w) := by
    rw [Sequence.lookupWriter, hwriter]
    rfl
  have hwrite : Sequence.writeItems cx o.type.elementOrAny [x] w = (.error f, w') := by
    rw [Sequence.writeItems, Sequence.writeItemsFrom]
    dsimp only
    rw [map_eq_pure_bind, bind_assoc, bind_run_ok hlookup, pure_bind, bind_run_error hx]
  show (Sequence.itemsOf "a list" Payload.list? o >>= _) w = _
  rw [bind_run_ok hitems, bind_run_error hwrite]

/-- However deep conversions may be nested, it is not deep enough for a list that holds itself. -/
theorem list_toCell_diverges
    (htype : o.type = .list .any)
    (hself : w.store.payload o = .list [o])
    (n : Nat) :
    Sequence.list.toCell (standardCatalog.conversions n) o w = (.error .diverged, w) := by
  induction n with
  | zero =>
      have hwriter : (standardCatalog.conversions 0).writer? o.type =
          some fun _ => Action.diverge := by
        rw [htype]
        rfl
      exact list_toCell_run_error hself hwriter rfl
  | succ n ih =>
      have hwriter : (standardCatalog.conversions (n + 1)).writer? o.type =
          some (Sequence.list.toCell (standardCatalog.conversions n)) := by
        rw [htype]
        rfl
      exact list_toCell_run_error hself hwriter ih

theorem toCell_diverges
    (config : BridgeConfig)
    (htype : o.type = .list .any)
    (hself : w.store.payload o = .list [o]) :
    (standard config).toCell o w = (.error .diverged, w) := by
  have hwrite : standardCatalog.write Sequence.list o w = (.error .diverged, w) :=
    list_toCell_diverges htype hself (w.store.size + 1)
  have hguarded : Action.guarded "list" (standardCatalog.write Sequence.list o) w =
      (.error .diverged, w) := by
    rw [Action.guarded, tryCatch_run, hwrite]
    rfl
  have hrule : standardCatalog.findByType? (.list .any) = some Sequence.list := rfl
  have hcatalog : (standard config).catalog = standardCatalog := rfl
  rw [toCell, htype]
  dsimp only
  rw [hcatalog, hrule, bind_run_ok (Action.orFail_some_run _ Sequence.list w)]
  exact hguarded

/-- A list that is put into itself stays behind its handle, and cannot be rendered. -/
theorem list_contains_itself :
    let config : BridgeConfig := { cacheCandidates := false }
    let calls :=
      [CellCall.construct "List" [], .invoke (.handle ⟨1⟩) "add" [.handle ⟨1⟩] .simplest]
    let w := (cellSession config 1 calls).world
    ∃ o, w.heap.resolve? ⟨1⟩ = some o ∧ w.store.Holds o.id o.id ∧
      ((standard config).toCell o w).1 = .error .diverged := by
  intro config calls w
  let list : Object := ⟨.list .any, 0⟩
  let s₀ := (standard {}).newSession 1 .empty
  let s₁ := (((standard {}).withCaching false).perform (.construct "List" []) s₀).2
  have hconstruct : (standard {}).resolved ⟨.list .any, constructorName, [], true⟩ = .ok _ :=
    resolve_sorted rfl rfl rfl (by decide)
  have hadd : (standard {}).resolved ⟨.list .any, "add", [.handle], false⟩ = .ok _ :=
    resolve_sorted rfl rfl rfl (by decide)
  have hs₁ : s₁.world = _ := perform_construct_world (standard {}) rfl hconstruct s₀
  have hreceiver : s₁.world.heap.resolve? ⟨1⟩ = some list := by
    rw [hs₁]
    rfl
  have hw : w = _ := perform_invoke_world (standard {}) hreceiver hadd .simplest
  rw [hs₁] at hw
  have hresolve : w.heap.resolve? ⟨1⟩ = some list := by
    rw [hw]
    rfl
  have hself : w.store.payload list = .list [list] := by
    rw [hw]
    rfl
  have hmem : list ∈ w.store.contents list.id := by
    rw [contents_of_items? (congrArg Payload.items? hself)]
    exact List.mem_cons_self
  refine ⟨list, hresolve, ⟨list, hmem, rfl⟩, ?_⟩
  rw [toCell_diverges config rfl hself]

end Divergence

end Bridge

end CellBridge
