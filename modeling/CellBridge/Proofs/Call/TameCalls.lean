import CellBridge.Call.Invocation
import CellBridge.Proofs.Call.BuiltinBodies
import CellBridge.Proofs.Call.Resolution

/-!
# Calls of tame methods

With rules that read and write well, attempts with tame methods make new payloads, intern objects,
and end: `ends_attemptAll`.  A call ends as its attempts do: `ends_invokeMember_of`.  Which methods
a name can mean on the built-in classes is `mem_visibleMethods`.
-/

namespace CellBridge

/-- All rules of the catalog read and write well. -/
structure Catalog.Good
    (c : Catalog) : Prop where
  reads : ∀ r ∈ c.rules, r.ReadsWell
  writes : ∀ r ∈ c.rules, r.WritesWell

/-- A candidate with a tame method, for types without classes, with rules of the catalog. -/
structure Candidate.Tame
    (c : Catalog)
    (cand : Candidate) : Prop where
  method : cand.method.Tame
  routes : ∀ route ∈ cand.targets.zip cand.rules, route.1.plain = true ∧ route.2 ∈ c.rules
  returnRule : ∀ r, cand.returnRule = some r → r ∈ c.rules

/-- The rules of the candidate are rules of the catalog. -/
structure Candidate.Draws
    (c : Catalog)
    (cand : Candidate) : Prop where
  routes : ∀ route ∈ cand.targets.zip cand.rules, route.2 ∈ c.rules
  returnRule : ∀ r, cand.returnRule = some r → r ∈ c.rules

theorem good_standardCatalog :
    standardCatalog.Good := by
  refine ⟨?_, ?_⟩
  · intro r hr
    exact readsWell_of_standard (Catalog.mem_standardCatalog hr)
  · intro r hr
    exact writesWell_of_standard (Catalog.mem_standardCatalog hr)

section Registries

theorem mem_foldl_register
    (ds : List ClassDescriptor)
    {r : Registry}
    {name : String}
    {d : ClassDescriptor}
    (h : (ds.foldl Registry.register r).named? name = some d) :
    d ∈ ds ∨ r.named? name = some d := by
  induction ds generalizing r with
  | nil =>
      exact Or.inr h
  | cons d' ds ih =>
      rcases ih h with hrest | hfirst
      · exact Or.inl (List.mem_cons_of_mem d' hrest)
      · rw [Registry.named?, Registry.register, Table.get?_insert] at hfirst
        split at hfirst
        · cases hfirst
          exact Or.inl List.mem_cons_self
        · exact Or.inr hfirst

def builtinRegistry : Registry :=
  Registry.empty.withBuiltins

theorem mem_classes_of_named?
    {name : String}
    {d : ClassDescriptor}
    (h : builtinRegistry.named? name = some d) :
    d ∈ Builtin.classes := by
  rw [builtinRegistry, Registry.withBuiltins] at h
  rcases mem_foldl_register Builtin.classes h with hmem | hempty
  · exact hmem
  · simp [Registry.empty, Registry.named?] at hempty

theorem mem_classes_of_lookup?
    {name : String}
    {d : ClassDescriptor}
    (h : builtinRegistry.lookup? name = some d) :
    d ∈ Builtin.classes := by
  rw [Registry.lookup?, Option.or_eq_some_iff] at h
  rcases h with hname | ⟨-, halias⟩
  · exact mem_classes_of_named? hname
  · obtain ⟨name', -, hname'⟩ := Option.bind_eq_some_iff.1 halias
    exact mem_classes_of_named? hname'

theorem mem_foldl_addVisible
    {ms found : List Method}
    {m : Method}
    (h : m ∈ ms.foldl Registry.addVisible found) :
    m ∈ found ∨ m ∈ ms := by
  induction ms generalizing found with
  | nil =>
      exact Or.inl h
  | cons m' ms ih =>
      rcases ih h with hfound | hrest
      · rw [Registry.addVisible] at hfound
        split at hfound
        · exact Or.inl hfound
        · rcases List.mem_append.1 hfound with hold | hnew
          · exact Or.inl hold
          · rw [List.mem_singleton] at hnew
            exact Or.inr (hnew ▸ List.mem_cons_self)
      · exact Or.inr (List.mem_cons_of_mem m' hrest)

/-- What a name can mean on the built-in classes. -/
theorem mem_visibleMethods
    {t : Ty}
    {member : String}
    {staticsOnly : Bool}
    {m : Method}
    (h : m ∈ visibleMethods builtinRegistry t member staticsOnly) :
    ∃ d ∈ Builtin.classes, m ∈ d.constructors ∨ m ∈ d.methods ∧ m.name = member := by
  rw [visibleMethods] at h
  split at h
  · rw [Registry.constructorsOf, Registry.descriptorFor?] at h
    cases hd : builtinRegistry.named? t.key with
    | none =>
        rw [hd] at h
        cases h
    | some d =>
        rw [hd] at h
        exact ⟨d, mem_classes_of_named? hd, Or.inl h⟩
  · have hnamed := (List.mem_filter.1 h).1
    rcases mem_foldl_addVisible hnamed with hnil | hmem
    · cases hnil
    · obtain ⟨name, -, hdeclared⟩ := List.mem_flatMap.1 hmem
      rw [Registry.declaredBy] at hdeclared
      cases hd : builtinRegistry.named? name with
      | none =>
          rw [hd] at hdeclared
          cases hdeclared
      | some d =>
          rw [hd] at hdeclared
          obtain ⟨hm, hname⟩ := List.mem_filter.1 hdeclared
          exact ⟨d, mem_classes_of_named? hd, Or.inr ⟨hm, eq_of_beq hname⟩⟩

/-- All that a name other than `add` can mean is tame. -/
theorem tame_of_visible
    {t : Ty}
    {member : String}
    {staticsOnly : Bool}
    (hmember : member ≠ "add")
    {m : Method}
    (h : m ∈ visibleMethods builtinRegistry t member staticsOnly) :
    m.Tame := by
  obtain ⟨d, hd, hconstructor | ⟨hmethod, hname⟩⟩ := mem_visibleMethods h
  · exact Builtin.tame_of_constructor hd hconstructor
  · exact Builtin.tame_of_method hd hmethod (hname ▸ hmember)

end Registries

section Candidates

variable {c : Catalog}

theorem Method.Tame.target_plain
    {m : Method}
    (hm : m.Tame)
    (i : Nat) :
    (m.target i).plain = true := by
  rw [Method.target]
  cases hfixed : m.fixed[i]? with
  | some t =>
      exact hm.fixed t (List.mem_of_getElem? hfixed)
  | none =>
      cases hrest : m.rest with
      | some e =>
          exact hm.rest e hrest
      | none =>
          rfl

theorem mem_routes
    {m : Method}
    {shapes : List Shape}
    {i : Nat}
    {routes : List (Ty × Rule)}
    (h : Candidate.routes c m i shapes = .ok routes)
    {route : Ty × Rule}
    (hroute : route ∈ routes) :
    (∃ j, route.1 = m.target j) ∧ route.2 ∈ c.rules := by
  induction shapes generalizing i routes with
  | nil =>
      cases h
      cases hroute
  | cons s ss ih =>
      rw [Candidate.routes] at h
      split at h
      · cases h
      · rename_i r hr
        cases hrest : Candidate.routes c m (i + 1) ss with
        | error miss =>
            rw [hrest] at h
            cases h
        | ok rest =>
            rw [hrest] at h
            cases h
            rcases List.mem_cons.1 hroute with rfl | htail
            · exact ⟨⟨i, rfl⟩, Catalog.mem_of_findByShape? hr⟩
            · exact ih hrest htail

theorem build_eq_ok
    {shapes : List Shape}
    {m : Method}
    {order : Nat}
    {cand : Candidate}
    (h : Candidate.build c shapes m order = .ok cand) :
    ∃ routes, Candidate.routes c m 0 shapes = .ok routes ∧ cand.method = m ∧
      cand.targets.zip cand.rules = routes ∧ cand.returnRule = c.findByType? m.returns := by
  rw [Candidate.build] at h
  cases hroutes : Candidate.routes c m 0 shapes with
  | error miss =>
      rw [hroutes] at h
      cases h
  | ok routes =>
      rw [hroutes] at h
      dsimp only at h
      split at h
      · cases h
        exact ⟨routes, rfl, rfl, (List.zip_of_prod rfl rfl).symm, rfl⟩
      · cases h

theorem tame_of_build
    {shapes : List Shape}
    {m : Method}
    {order : Nat}
    {cand : Candidate}
    (hm : m.Tame)
    (h : Candidate.build c shapes m order = .ok cand) :
    cand.Tame c := by
  obtain ⟨routes, hroutes, hmethod, hzip, hreturn⟩ := build_eq_ok h
  refine ⟨hmethod ▸ hm, ?_, ?_⟩
  · intro route hroute
    obtain ⟨⟨j, hj⟩, hrule⟩ := mem_routes hroutes (hzip ▸ hroute)
    exact ⟨hj ▸ hm.target_plain j, hrule⟩
  · intro r hr
    exact Catalog.mem_of_findByType? (hreturn ▸ hr)

/-- Candidates are resolved with rules of the catalog. -/
theorem draws_of_resolve
    {r : Registry}
    {t : Ty}
    {member : String}
    {shapes : List Shape}
    {staticsOnly : Bool}
    {cands : List Candidate}
    {cand : Candidate}
    (h : resolve c r t member shapes staticsOnly = .ok cands)
    (hcand : cand ∈ cands) :
    cand.Draws c := by
  obtain ⟨m, -, -, order, hbuild⟩ := built_of_resolve h hcand
  obtain ⟨routes, hroutes, -, hzip, hreturn⟩ := build_eq_ok hbuild
  refine ⟨?_, ?_⟩
  · intro route hroute
    exact (mem_routes hroutes (hzip ▸ hroute)).2
  · intro rule hrule
    exact Catalog.mem_of_findByType? (hreturn ▸ hrule)

end Candidates

section Attempts

variable {c : Catalog} {w : World}

theorem ends_readArguments
    (hc : c.Good)
    (args : List (Value × Ty × Rule))
    (hargs : ∀ a ∈ args, a.2.1.plain = true ∧ a.2.2 ∈ c.rules)
    (hs : w.Sound) :
    Ends World.Grows (Candidate.readArguments c args) w fun os w' => ∀ o ∈ os, Known o w' := by
  induction args generalizing w with
  | nil =>
      refine Ends.pure hs.grows ?_
      intro o ho
      cases ho
  | cons a args ih =>
      obtain ⟨v, t, r⟩ := a
      obtain ⟨hplain, hr⟩ := hargs (v, t, r) List.mem_cons_self
      refine (Catalog.ends_read hc.reads hr hplain v hs).bind ?_
      intro o w₁ hw₁ ho
      refine (ih (fun b hb => hargs b (List.mem_cons_of_mem _ hb)) hw₁.sound).bind ?_
      intro os w₂ hw₂ hos
      refine Ends.pure hw₂.sound.grows ?_
      intro x hx
      rcases List.mem_cons.1 hx with rfl | hmem
      · exact hw₂.knows ho
      · exact hos x hmem

theorem ends_packArguments
    {m : Method}
    (hm : m.Tame)
    {args : List Object}
    (hargs : ∀ o ∈ args, Known o w)
    (hs : w.Sound) :
    Ends World.Grows (Candidate.packArguments m args) w fun os w' => ∀ o ∈ os, Known o w' := by
  rw [Candidate.packArguments]
  cases hrest : m.rest with
  | none =>
      exact Ends.pure hs.grows hargs
  | some e =>
      dsimp only
      split
      · exact Ends.panic _ hs.grows
      · have hdrop : ∀ o ∈ args.drop m.fixed.length, Known o w := by
          intro o ho
          exact hargs o (List.mem_of_mem_drop ho)
        refine (Ends.createArray hs (hm.rest e hrest) hdrop).bind ?_
        intro packed w₁ hw₁ hpacked
        refine Ends.pure hw₁.sound.grows ?_
        intro o ho
        rcases List.mem_append.1 ho with htake | hlast
        · exact hw₁.knows (hargs o (List.mem_of_mem_take htake))
        · rw [List.mem_singleton] at hlast
          exact hlast ▸ hpacked

theorem ends_convertArguments
    (hc : c.Good)
    {cand : Candidate}
    (hcand : cand.Tame c)
    (args : List Value)
    (hs : w.Sound) :
    Ends World.Grows (cand.convertArguments c args) w fun os w' => ∀ o ∈ os, Known o w' := by
  have hroutes : ∀ a ∈ args.zip (cand.targets.zip cand.rules),
      a.2.1.plain = true ∧ a.2.2 ∈ c.rules := by
    intro a ha
    exact hcand.routes a.2 (List.of_mem_zip ha).2
  refine (ends_readArguments hc _ hroutes hs).bind ?_
  intro os w₁ hw₁ hos
  exact ends_packArguments hcand.method hos hw₁.sound

/-- A result goes back to the host without any change of the store. -/
theorem ends_convertResult
    (hc : c.Good)
    {cand : Candidate}
    (hreturn : ∀ r, cand.returnRule = some r → r ∈ c.rules)
    (mode : ResultMode)
    {o : Object}
    (hs : w.Sound)
    (ho : Known o w) :
    Ends World.Renders (cand.convertResult c mode o) w fun _ _ => True := by
  refine (Ends.payload o hs.renders).bind ?_
  rintro _ w₁ - ⟨rfl, rfl⟩
  split
  · exact Ends.pure hs.renders trivial
  · exact Ends.pure hs.renders trivial
  · refine (Ends.intern hs ho).bind ?_
    intro h w₂ hw₂ _
    exact Ends.pure hw₂.sound.renders trivial
  · have hrule : ∀ r, ((c.findByType? o.type).or cand.returnRule) = some r → r ∈ c.rules := by
      intro r hr
      rcases Option.or_eq_some_iff.1 hr with hfound | ⟨-, hdeclared⟩
      · exact Catalog.mem_of_findByType? hfound
      · exact hreturn r hdeclared
    refine (Ends.orFail (P := fun r w' => w₁ = w' ∧ r ∈ c.rules) _ hs.renders
      fun r hr => ⟨rfl, hrule r hr⟩).bind ?_
    rintro r _ - ⟨rfl, hr⟩
    exact Catalog.ends_write hc.writes hr hs ho

theorem ends_attempt
    (hc : c.Good)
    {cand : Candidate}
    (hcand : cand.Tame c)
    {receiver : Option Object}
    (hreceiver : ∀ o, receiver = some o → Known o w)
    (args : List Value)
    (mode : ResultMode)
    (hs : w.Sound) :
    Ends World.Grows (cand.attempt c receiver args mode) w fun _ _ => True := by
  refine Ends.guarded _ ?_ fun w' hw' => hw'.sound.grows
  refine (ends_convertArguments hc hcand args hs).bind ?_
  intro os w₁ hw₁ hos
  have hreceiver₁ : ∀ o, receiver = some o → Known o w₁ := by
    intro o ho
    exact hw₁.knows (hreceiver o ho)
  refine (hcand.method.body receiver os w₁ hw₁.sound hreceiver₁ hos).bind ?_
  intro o w₂ hw₂ ho
  refine (ends_convertResult hc hcand.returnRule mode hw₂.sound ho).mono ?_ fun _ _ _ h => h
  intro w' hw'
  exact hw'.grows

/-- The first attempt, and those that follow where it fails. -/
theorem ends_attemptAll_cons
    {R : World → World → Prop}
    [IsTrans World R]
    {cand : Candidate}
    {cands : List Candidate}
    {receiver : Option Object}
    {args : List Value}
    {mode : ResultMode}
    (hfirst : Ends R (cand.attempt c receiver args mode) w fun _ _ => True)
    (hrest : ∀ w', R w w' →
      Ends R (Candidate.attemptAll c receiver args mode cands) w' fun _ _ => True)
    (hrefl : ∀ w', R w w' → R w' w') :
    Ends R (Candidate.attemptAll c receiver args mode (cand :: cands)) w fun _ _ => True := by
  have hsome : Ends R (some <$> cand.attempt c receiver args mode) w fun _ _ => True := by
    rw [map_eq_pure_bind]
    refine hfirst.bind ?_
    intro v w₁ hw₁ _
    exact Ends.pure (hrefl w₁ hw₁) trivial
  refine hsome.tryCatch ?_
  intro f w₁ hw₁ hf
  split
  · exact Ends.fail _ (hrefl w₁ hw₁)
  · exact hrest w₁ hw₁
  · exact Ends.of_error (throw_run f w₁) hf (hrefl w₁ hw₁)

theorem ends_attemptAll
    (hc : c.Good)
    (cands : List Candidate)
    (hcands : ∀ cand ∈ cands, cand.Tame c)
    {receiver : Option Object}
    (hreceiver : ∀ o, receiver = some o → Known o w)
    (args : List Value)
    (mode : ResultMode)
    (hs : w.Sound) :
    Ends World.Grows (Candidate.attemptAll c receiver args mode cands) w fun _ _ => True := by
  induction cands generalizing w with
  | nil =>
      exact Ends.pure hs.grows trivial
  | cons cand cands ih =>
      have hfirst := ends_attempt hc (hcands cand List.mem_cons_self) hreceiver args mode hs
      refine ends_attemptAll_cons hfirst ?_ fun w₁ hw₁ => hw₁.sound.grows
      intro w₁ hw₁
      refine ih (fun x hx => hcands x (List.mem_cons_of_mem cand hx)) ?_ hw₁.sound
      intro o ho
      exact hw₁.knows (hreceiver o ho)

/-- A call of a member ends as its attempts do. -/
theorem ends_invokeMember_of
    {R : World → World → Prop}
    [IsTrans World R]
    (t : Ty)
    (member : String)
    (receiver : Option Object)
    (args : List Value)
    (mode : ResultMode)
    (cands : List Candidate)
    (hattempts : Ends R (Candidate.attemptAll c receiver args mode cands) w fun _ _ => True)
    (hrefl : ∀ w', R w w' → R w' w') :
    Ends R (invokeMember c t member receiver args mode cands) w fun _ _ => True := by
  have hinvoke : Ends R (CellBridge.invoke c receiver args mode cands) w fun _ _ => True := by
    refine hattempts.bind ?_
    intro v w₁ hw₁ _
    cases v with
    | some v =>
        exact Ends.pure (hrefl w₁ hw₁) trivial
    | none =>
        exact Ends.fail _ (hrefl w₁ hw₁)
  refine hinvoke.tryCatch ?_
  intro f w₁ hw₁ hf
  split
  · exact Ends.fail _ (hrefl w₁ hw₁)
  · exact Ends.of_error (throw_run f w₁) hf (hrefl w₁ hw₁)

end Attempts

section Faults

variable {c : Catalog} {w : World}

theorem guarded_ne_panicked
    {α : Type}
    (what : String)
    (act : Action α)
    (w : World)
    (m : Option String) :
    (Action.guarded what act w).1 ≠ .error (.panicked m) := by
  rw [Action.guarded, tryCatch_run]
  cases act w with
  | mk result w' =>
      cases result with
      | ok a =>
          intro h
          cases h
      | error f =>
          cases f <;> intro h <;> cases h

theorem attemptAll_ne_panicked
    (receiver : Option Object)
    (args : List Value)
    (mode : ResultMode)
    (cands : List Candidate)
    (w : World)
    (m : Option String) :
    (Candidate.attemptAll c receiver args mode cands w).1 ≠ .error (.panicked m) := by
  induction cands generalizing w with
  | nil =>
      intro h
      cases h
  | cons cand cands ih =>
      have hattempt := guarded_ne_panicked cand.method.display
        (do
          let converted ← cand.convertArguments c args
          let o ← cand.method.body receiver converted
          cand.convertResult c mode o) w
      rw [Candidate.attemptAll, tryCatch_run, map_eq_pure_bind, bind_run]
      change ∀ m, (cand.attempt c receiver args mode w).1 ≠ .error (.panicked m) at hattempt
      cases hrun : cand.attempt c receiver args mode w with
      | mk result w' =>
          rw [hrun] at hattempt
          cases result with
          | ok v =>
              intro h
              cases h
          | error f =>
              cases f with
              | failed e =>
                  cases e with
                  | notFound h =>
                      intro heq
                      cases heq
                  | _ =>
                      exact ih w'
              | panicked m' =>
                  exact absurd rfl (hattempt m')
              | diverged =>
                  intro h
                  cases h

/-- A call of a member never ends abruptly. -/
theorem invokeMember_ne_panicked
    (t : Ty)
    (member : String)
    (receiver : Option Object)
    (args : List Value)
    (mode : ResultMode)
    (cands : List Candidate)
    (w : World)
    (m : Option String) :
    (invokeMember c t member receiver args mode cands w).1 ≠ .error (.panicked m) := by
  have hattempts := attemptAll_ne_panicked (c := c) receiver args mode cands w
  rw [invokeMember, tryCatch_run, CellBridge.invoke, bind_run]
  cases hrun : Candidate.attemptAll c receiver args mode cands w with
  | mk result w' =>
      rw [hrun] at hattempts
      cases result with
      | ok v =>
          cases v <;> intro h <;> cases h
      | error f =>
          cases f with
          | failed e =>
              cases e <;> intro h <;> cases h
          | panicked m' =>
              exact absurd rfl (hattempts m')
          | diverged =>
              intro h
              cases h

end Faults

end CellBridge
