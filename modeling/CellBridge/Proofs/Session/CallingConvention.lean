import CellBridge.Proofs.Managed.Containment
import CellBridge.Proofs.Session.CacheKey

/-!
# How bodies are called

A body receives one argument for each of its parameters: every value of the host is converted by
the rule for its shape and the type at its place, and those that come after the fixed parameters of
a variadic method are packed into one array.  `Converts` and `Method.Receives` say this without
candidates, and `Candidate.Serves.receives` that candidates keep to it.  A method that is not static
also receives the object that the call is made on.

`Registry.Built` are the registries that are made class by class; only there are all constructors
static.  `bodies_called_by_convention` puts this together for every session that is reached.
-/

namespace CellBridge

section Defs

/-- Values are converted from left to right, each by the rule for its shape and the type at its
place. -/
inductive Converts
    (c : Catalog) : List Ty → List Value → World → List Object → World → Prop
  | nil
      (w : World) :
      Converts c [] [] w [] w
  | cons
      {t : Ty}
      {ts : List Ty}
      {v : Value}
      {vs : List Value}
      {r : Rule}
      {o : Object}
      {os : List Object}
      {w w₁ w₂ : World}
      (hrule : c.findByShape? v.shape t = some r)
      (hread : c.read r t v w = (.ok o, w₁))
      (hrest : Converts c ts vs w₁ os w₂) :
      Converts c (t :: ts) (v :: vs) w (o :: os) w₂

/-- What the body of a method receives for the values of a call, and the world it starts in. -/
inductive Method.Receives
    (c : Catalog)
    (m : Method)
    (args : List Value)
    (w : World) : List Object → World → Prop
  | plain
      {os : List Object}
      {w' : World}
      (hrest : m.rest = none)
      (hargs : Converts c m.params args w os w') :
      Receives c m args w os w'
  /-- All values behind the fixed parameters become one array. -/
  | packed
      {e : Ty}
      {firsts lasts : List Value}
      {os items : List Object}
      {array : Object}
      {w₁ w₂ w₃ : World}
      (hrest : m.rest = some e)
      (hsplit : args = firsts ++ lasts)
      (hfirsts : Converts c m.fixed firsts w os w₁)
      (hlasts : Converts c (List.replicate lasts.length e) lasts w₁ items w₂)
      (htype : array.type = .array e)
      (hitems : w₃.store.payload array = .array items) :
      Receives c m args w (os ++ [array]) w₃

/-- A class that is made method by method. -/
inductive ClassDescriptor.Built : ClassDescriptor → Prop
  | ofType
      (t : Ty) :
      Built (.ofType t)
  | withAlias
      {d : ClassDescriptor}
      (hd : Built d)
      (further : String) :
      Built (d.withAlias further)
  | withConstructor
      {d : ClassDescriptor}
      (hd : Built d)
      (m : Method) :
      Built (d.withConstructor m)
  | withMethod
      {d : ClassDescriptor}
      (hd : Built d)
      (m : Method) :
      Built (d.withMethod m)

/-- A registry that is made class by class. -/
inductive Registry.Built : Registry → Prop
  | empty :
      Built .empty
  | register
      {r : Registry}
      {d : ClassDescriptor}
      (hr : Built r)
      (hd : d.Built) :
      Built (r.register d)

end Defs

section Registries

/-- Constructors are made static. -/
theorem ClassDescriptor.Built.isStatic
    {d : ClassDescriptor}
    (hd : d.Built)
    {m : Method}
    (hm : m ∈ d.constructors) :
    m.isStatic = true := by
  induction hd with
  | ofType t =>
      cases hm
  | withAlias hd further ih =>
      exact ih hm
  | withConstructor hd m' ih =>
      rcases List.mem_append.1 hm with hold | hnew
      · exact ih hold
      · rw [List.mem_singleton.1 hnew]
  | withMethod hd m' ih =>
      exact ih hm

theorem Registry.Built.descriptor
    {r : Registry}
    (hr : r.Built)
    {name : String}
    {d : ClassDescriptor}
    (hd : r.named? name = some d) :
    d.Built := by
  induction hr with
  | empty =>
      cases hd
  | register hr hd' ih =>
      rw [named?, Registry.register, Table.get?_insert] at hd
      split at hd
      · cases hd
        exact hd'
      · exact ih hd

/-- Without a receiver only static methods are visible. -/
theorem Registry.Built.isStatic_of_visible
    {r : Registry}
    (hr : r.Built)
    {t : Ty}
    {member : String}
    {m : Method}
    (hm : m ∈ visibleMethods r t member true) :
    m.isStatic = true := by
  rw [visibleMethods] at hm
  split at hm
  · rw [constructorsOf, descriptorFor?] at hm
    cases hd : r.named? t.key with
    | none =>
        rw [hd] at hm
        cases hm
    | some d =>
        rw [hd] at hm
        exact (hr.descriptor hd).isStatic hm
  · simpa using (List.mem_filter.1 hm).2

theorem ClassDescriptor.Built.foldl_withMethod
    {d : ClassDescriptor}
    (hd : d.Built)
    (ms : List Method) :
    (ms.foldl ClassDescriptor.withMethod d).Built := by
  induction ms generalizing d with
  | nil =>
      exact hd
  | cons m ms ih =>
      exact ih (hd.withMethod m)

/-- The built-in classes are made like all others. -/
theorem Registry.Built.withBuiltins
    {r : Registry}
    (hr : r.Built) :
    r.withBuiltins.Built := by
  have hcollection : ∀ type further create methods,
      (Builtin.collectionClass type further create methods).Built := by
    intro type further create methods
    refine ClassDescriptor.Built.foldl_withMethod ?_ methods
    have halias := (ClassDescriptor.Built.ofType type).withAlias further
    exact ((halias.withConstructor _).withConstructor _).withConstructor _
  have hstring : Builtin.stringClass.Built :=
    ((((ClassDescriptor.Built.ofType _).withConstructor _).withMethod _).withMethod _).withMethod _
  have hdouble : Builtin.doubleClass.Built :=
    (((ClassDescriptor.Built.ofType _).withConstructor _).withMethod _).withMethod _
  exact (((hr.register (hcollection _ _ _ _)).register (hcollection _ _ _ _)).register
    hstring).register hdouble

end Registries

section Converting

variable {c : Catalog}

namespace Converts

variable {ts us : List Ty} {args : List Value} {os : List Object} {w w' : World}

theorem length_eq
    (h : Converts c ts args w os w') :
    ts.length = args.length ∧ os.length = args.length := by
  induction h with
  | nil w =>
      exact ⟨rfl, rfl⟩
  | cons hrule hread hrest ih =>
      exact ⟨congrArg Nat.succ ih.1, congrArg Nat.succ ih.2⟩

/-- A conversion goes through the first types and then through the others. -/
theorem split
    (h : Converts c (ts ++ us) args w os w') :
    ∃ firsts lasts os₁ os₂ w₁, args = firsts ++ lasts ∧ os = os₁ ++ os₂ ∧
      Converts c ts firsts w os₁ w₁ ∧ Converts c us lasts w₁ os₂ w' := by
  induction ts generalizing args os w with
  | nil =>
      exact ⟨[], args, [], os, w, rfl, rfl, .nil w, h⟩
  | cons t ts ih =>
      cases h with
      | @cons _ _ v vs r o os _ w₁ _ hrule hread hrest =>
          obtain ⟨firsts, lasts, os₁, os₂, w₂, rfl, rfl, hfirsts, hlasts⟩ := ih hrest
          exact ⟨v :: firsts, lasts, o :: os₁, os₂, w₂, rfl, rfl, .cons hrule hread hfirsts,
            hlasts⟩

end Converts

/-- Reading arguments by the rules for them. -/
theorem Candidate.converts_of_readArguments
    {args : List Value}
    {routes : List (Ty × Rule)}
    (hroutes : List.Forall₂ (fun v route => c.findByShape? v.shape route.1 = some route.2) args
      routes)
    {w w' : World}
    {os : List Object}
    (h : Candidate.readArguments c (args.zip routes) w = (.ok os, w')) :
    Converts c (routes.map Prod.fst) args w os w' := by
  induction hroutes generalizing w os with
  | nil =>
      cases h
      exact .nil _
  | cons hrule hrest ih =>
      rw [List.zip_cons_cons, Candidate.readArguments, bind_run_eq_ok] at h
      obtain ⟨o, w₁, hread, h⟩ := h
      obtain ⟨os, w₂, hmore, h⟩ := bind_run_eq_ok.1 h
      cases h
      exact .cons hrule hread (ih hmore)

end Converting

section Packing

variable {c : Catalog} {m : Method}

/-- The targets of the first arguments are the fixed parameters. -/
theorem Method.map_target_range
    {n : Nat}
    (hn : m.fixed.length ≤ n) :
    (List.range n).map m.target =
      m.fixed ++ List.replicate (n - m.fixed.length) (m.rest.getD .any) := by
  refine List.ext_getElem ?_ ?_
  · simp
    omega
  · intro i hi _
    rw [List.getElem_map, List.getElem_range, Method.target]
    by_cases hfixed : i < m.fixed.length
    · rw [List.getElem?_eq_getElem hfixed, List.getElem_append_left hfixed]
      rfl
    · rw [List.getElem?_eq_none (by omega), List.getElem_append_right (by omega),
        List.getElem_replicate]
      rfl

/-- A body takes as many arguments as it has parameters. -/
theorem Method.Receives.length_eq
    {args : List Value}
    {w w' : World}
    {os : List Object}
    (h : m.Receives c args w os w') :
    os.length = m.params.length := by
  cases h with
  | plain hrest hargs =>
      exact hargs.length_eq.2.trans hargs.length_eq.1.symm
  | packed hrest hsplit hfirsts hlasts htype hitems =>
      rw [List.length_append, hfirsts.length_eq.2, ← hfirsts.length_eq.1, Method.params, hrest,
        List.length_append]
      rfl

/-- What is read for the arguments of a candidate can be packed, and it is what the body of its
method should receive. -/
theorem Candidate.Serves.receives
    {cand : Candidate}
    {args : List Value}
    (hserves : cand.Serves c (args.map Value.shape) m)
    (harity : m.acceptsArity args.length = true)
    {w w' : World}
    {os : List Object}
    (hread : Candidate.readArguments c (args.zip (cand.targets.zip cand.rules)) w = (.ok os, w')) :
    ∃ os' w'', Candidate.packArguments cand.method os w' = (.ok os', w'') ∧
      m.Receives c args w os' w'' := by
  have htargets : (cand.targets.zip cand.rules).map Prod.fst = cand.targets := by
    refine List.map_fst_zip ?_
    have hrules := congrArg List.length hserves.rules
    rw [hserves.targets]
    simp only [List.length_map] at hrules ⊢
    omega
  have hconverts := Candidate.converts_of_readArguments hserves.routed hread
  rw [htargets, hserves.targets_eq] at hconverts
  rw [hserves.method, Candidate.packArguments]
  rw [Method.acceptsArity, Method.isVariadic] at harity
  cases hrest : m.rest with
  | none =>
      rw [hrest] at harity
      have hlength : args.length = m.fixed.length := by simpa using harity
      rw [Method.map_target_range (Nat.le_of_eq hlength.symm), hlength, Nat.sub_self] at hconverts
      refine ⟨os, w', rfl, .plain hrest ?_⟩
      rw [Method.params, hrest]
      exact hconverts
  | some e =>
      rw [hrest] at harity
      have hlength : m.fixed.length ≤ args.length := by simpa using harity
      rw [Method.map_target_range hlength, hrest] at hconverts
      obtain ⟨firsts, lasts, os₁, os₂, w₁, rfl, rfl, hfirsts, hlasts⟩ := hconverts.split
      have hos₁ : os₁.length = m.fixed.length :=
        hfirsts.length_eq.2.trans hfirsts.length_eq.1.symm
      have hcount : (firsts ++ lasts).length - m.fixed.length = lasts.length := by
        rw [List.length_append, hfirsts.length_eq.1, Nat.add_sub_cancel_left]
      rw [hcount] at hlasts
      dsimp only
      rw [if_neg (by simp [hos₁]), ← hos₁, List.take_left, List.drop_left]
      exact ⟨_, _, rfl, .packed hrest rfl hfirsts hlasts rfl (Store.payload_alloc _ _)⟩

end Packing

namespace Bridge

section Calls

/-- Every attempt of a call finds a target and a rule for each value, and packs what is read for
them.  Every body that is run receives one argument for each parameter: what the values are
converted to, those behind the fixed parameters as one array.  If its method is not static, then
it also receives the object behind the handle that the call is made on.  The catalog may have any
room for nested conversions, so that no body is left out for want of it. -/
theorem bodies_called_by_convention
    {b : Bridge}
    (hb : b.registry.Built)
    {rs : List Request}
    {s : Session}
    (hs : b.Reached rs s)
    {call : HostCall}
    {args : List Value}
    (hargs : call.args? = some args) :
    (∀ a ∈ b.attempts call s,
      a.candidate.targets.length = args.length ∧ a.candidate.rules.length = args.length ∧
        ∀ os w, Candidate.readArguments b.catalog
            (args.zip (a.candidate.targets.zip a.candidate.rules)) a.start = (.ok os, w) →
          ∃ os' w', Candidate.packArguments a.candidate.method os w = (.ok os', w')) ∧
    ∀ run ∈ b.bodyRuns call s,
      run.args.length = run.method.params.length ∧
      (∃ a ∈ b.attempts call s, a.candidate.method = run.method ∧
        run.method.Receives b.catalog args a.start run.args run.start) ∧
      (run.method.isStatic = false → ∃ h o, call.handle? = some h ∧
        s.world.heap.resolve? h = some o ∧ run.receiver = some o) := by
  refine ⟨?_, ?_⟩
  · intro a ha
    obtain ⟨m, hm, ha⟩ := mem_attempts.1 ha
    cases (args?_of_memberCall? hm).symm.trans hargs
    obtain ⟨q, -, method, -, harity, hserves⟩ := hs.serves_of_attempt ha
    have htargets := congrArg List.length hserves.targets
    have hrules := congrArg List.length hserves.rules
    rw [List.length_map, List.length_zipIdx, List.length_map] at htargets
    rw [List.length_map, List.length_map, List.length_zipIdx, List.length_map] at hrules
    refine ⟨htargets, hrules, ?_⟩
    intro os w hread
    obtain ⟨os', w', hpack, -⟩ := hserves.receives harity hread
    exact ⟨os', w', hpack⟩
  · intro run hrun
    obtain ⟨m, hm, hrun⟩ := mem_bodyRuns.1 hrun
    obtain ⟨a, ha, hrun⟩ := mem_memberRuns.1 hrun
    cases (args?_of_memberCall? hm).symm.trans hargs
    obtain ⟨q, hq, method, hvisible, harity, hserves⟩ := hs.serves_of_attempt ha
    obtain ⟨hmethod, hreceiver, hconvert⟩ := Candidate.bodyRun?_eq_some.1 hrun
    have hsame : run.method = method := hmethod.trans hserves.method
    obtain ⟨os, w, hread, hpack⟩ := bind_run_eq_ok.1 hconvert
    obtain ⟨os', w', hpack', hreceives⟩ := hserves.receives harity hread
    cases hpack.symm.trans hpack'
    rw [hsame]
    refine ⟨hreceives.length_eq, ⟨a, mem_attempts.2 ⟨m, hm, ha⟩, hserves.method, hreceives⟩, ?_⟩
    intro hinstance
    rw [hreceiver]
    cases hm' : m.receiver with
    | none =>
        have hstatics : q.staticsOnly = true := by
          rw [show q.staticsOnly = m.request.staticsOnly from
            congrArg CandidateKey.staticsOnly hq.key_eq, MemberCall.request, hm']
          rfl
        rw [visible, hstatics] at hvisible
        rw [hb.isStatic_of_visible hvisible] at hinstance
        cases hinstance
    | some o =>
        obtain ⟨h, hh, ho⟩ := resolve?_of_memberCall? hm hm'
        exact ⟨h, o, hh, ho, rfl⟩

/-- A list of a truth value and a text: the constructor receives both in one array. -/
theorem bodies_called_by_convention_list :
    let b := (Bridge.empty {}).withStandardRules.withBuiltins
    let s := b.newSession 0 .empty
    let call : HostCall := .construct "List" [.boolean true, .text "bolt"]
    ∃ run ∈ b.bodyRuns call s, run.method.params = [.array .any] ∧ run.args.length = 1 := by
  intro b s call
  have hres : b.resolved ⟨.list .any, constructorName, [.boolean, .text], true⟩ = .ok _ :=
    resolve_sorted rfl rfl rfl (List.pairwise_singleton _ _)
  have hlookup := lookup_new (s := s) rfl rfl hres
  let m : MemberCall :=
    { type := .list .any, member := constructorName, receiver := none,
      args := [.boolean true, .text "bolt"], mode := .object }
  have hcall : b.memberCall? s.world call = some m := rfl
  have hattempt := mem_memberAttempts_first (m := m) hlookup
  have hrun : ∃ run, run ∈ b.bodyRuns call s ∧ run.method.params = [.array .any] :=
    ⟨_, mem_bodyRuns.2 ⟨m, hcall, mem_memberRuns.2 ⟨_, hattempt, rfl⟩⟩, rfl⟩
  obtain ⟨run, hmem, hparams⟩ := hrun
  have hargs : call.args? = some [.boolean true, .text "bolt"] := rfl
  have hall := (bodies_called_by_convention (Registry.Built.empty.withBuiltins) (.start s.world)
    hargs).2 run hmem
  exact ⟨run, hmem, hparams, by rw [hall.1, hparams]; rfl⟩

end Calls

end Bridge
end CellBridge
