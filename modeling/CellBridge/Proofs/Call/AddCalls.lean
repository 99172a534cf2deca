import CellBridge.Proofs.Call.TameCalls

/-!
# Calls of `add`

`add` is the one built-in method that changes an object that is there already.  It keeps
containment free of cycles exactly if the object that it adds does not lead back to the receiver:
`ends_attempt_add` for one direction, `ends_attempt_add_closing` for the other.

`Store.Inserts` says what lists and sets have in common, and `add_run` that both methods do it.
-/

namespace CellBridge

section Defs

/-- Are objects of the type changed in place? -/
def Ty.isMutable : Ty → Bool
  | .list _ => true
  | .set _ => true
  | _ => false

/-- What `add` means on objects of a type. -/
def addMethod? : Ty → Option Method
  | .list _ => some Builtin.listAdd
  | .set _ => some Builtin.setAdd
  | _ => none

/-- The payload is that of the first object with the second one put into it. -/
structure Store.Inserts
    (s : Store)
    (r o : Object)
    (p : Payload) : Prop where
  kind : ∀ t : Ty, t.Fits (s.payload r) → t.Fits p
  items : ∀ y ∈ p.items?.getD [], y ∈ s.contents r.id ∨ y = o
  keeps : ∀ y ∈ s.contents r.id, y ∈ p.items?.getD []
  puts : s.Leads o.id r.id → o ∈ p.items?.getD []

/-- Something in the second world contains itself. -/
def World.Tangles
    (_w w' : World) : Prop :=
  ¬ w'.store.Acyclic

instance : IsTrans World World.Tangles where
  trans _ _ _ _ h := h

end Defs

section Insertions

variable {s : Store} {r o : Object}

theorem Store.inserts_list
    {items : List Object}
    (hlist : s.payload r = .list items) :
    s.Inserts r o (.list (items ++ [o])) := by
  have hcontents : s.contents r.id = items := contents_of_items? (congrArg Payload.items? hlist)
  refine ⟨?_, ?_, ?_, ?_⟩
  · intro t ht
    rw [hlist] at ht
    cases t with
    | list e => rfl
    | array e => exact ht
    | set e => exact ht
    | _ => cases ht
  · intro y hy
    rw [hcontents]
    simpa [Payload.items?] using hy
  · intro y hy
    rw [hcontents] at hy
    exact List.mem_append_left [o] hy
  · intro _
    exact List.mem_append_right items List.mem_cons_self

/-- An object that equals another one is the same, or holds nothing. -/
theorem Store.contents_of_valueEq
    {x : Object}
    (ho : s.Knows o)
    (heq : s.valueEq x o = true) :
    x.id = o.id ∨ s.contents o.id = [] := by
  rw [Store.valueEq, Bool.or_eq_true] at heq
  rcases heq with hid | hvalue
  · exact Or.inl (eq_of_beq hid)
  · refine Or.inr ?_
    have hempty : (s.payload o).items? = none → s.contents o.id = [] := by
      intro hnone
      show ((s.payload o).items?).getD [] = []
      rw [hnone]
      rfl
    have hfits := ho.fits
    -- collections compare by identity alone
    cases htype : o.type with
    | array e =>
        rw [htype] at hvalue
        cases hx : x.type <;> rw [hx] at hvalue <;> cases hvalue
    | list e =>
        rw [htype] at hvalue
        cases hx : x.type <;> rw [hx] at hvalue <;> cases hvalue
    | set e =>
        rw [htype] at hvalue
        cases hx : x.type <;> rw [hx] at hvalue <;> cases hvalue
    | _ =>
        rw [htype] at hfits
        exact hempty hfits

/-- A set takes in every object that leads to it. -/
theorem Store.inserts_set
    {items : List Object}
    (hs : s.Sound)
    (ho : s.Knows o)
    (hset : s.payload r = .set items) :
    s.Inserts r o (.set (s.insertItem items o)) := by
  have hcontents : s.contents r.id = items := contents_of_items? (congrArg Payload.items? hset)
  have hmem : ∀ y, y ∈ s.insertItem items o ↔ y ∈ items ∨ y = o ∧ s.hasEqual items o = false := by
    intro y
    rw [Store.insertItem]
    cases s.hasEqual items o <;> simp
  refine ⟨?_, ?_, ?_, ?_⟩
  · intro t ht
    rw [hset] at ht
    cases t with
    | set e => rfl
    | array e => exact ht
    | list e => exact ht
    | _ => cases ht
  · intro y hy
    rw [hcontents]
    rcases (hmem y).1 hy with hold | ⟨hnew, -⟩
    · exact Or.inl hold
    · exact Or.inr hnew
  · intro y hy
    rw [hcontents] at hy
    exact (hmem y).2 (Or.inl hy)
  · intro hleads
    refine (hmem o).2 (Or.inr ⟨rfl, ?_⟩)
    by_contra hequal
    rw [Bool.not_eq_false, Store.hasEqual, List.any_eq_true] at hequal
    obtain ⟨x, hx, heq⟩ := hequal
    rw [← hcontents] at hx
    rcases Store.contents_of_valueEq ho heq with hid | hempty
    · -- the set holds the object already, which leads back to it
      exact hs.acyclic r.id (Relation.TransGen.head' ⟨x, hx, hid⟩ hleads)
    · rcases Relation.ReflTransGen.cases_head hleads with hid | ⟨k, ⟨y, hy, -⟩, -⟩
      · rw [← hid, hempty] at hx
        cases hx
      · rw [hempty] at hy
        cases hy

end Insertions

section Bodies

variable {w : World} {r o : Object}

/-- The body of `add` on a list. -/
theorem listAdd_run
    {items : List Object}
    (hlist : w.store.payload r = .list items) :
    Builtin.listAdd.body (some r) [o] w =
      Builtin.boolResult true { w with store := w.store.replace r (.list (items ++ [o])) } := by
  have hitems : Builtin.thisList (some r) w = (.ok (r, items), w) := by
    show (Action.payload r >>= fun p => Action.orFail _ p.list? >>= fun os => pure (r, os)) w = _
    rw [bind_run_ok (Action.payload_run r w), hlist]
    rfl
  show (Builtin.thisList (some r) >>= _) w = _
  rw [bind_run_ok hitems]
  rfl

/-- The body of `add` on a set. -/
theorem setAdd_run
    {items : List Object}
    (hset : w.store.payload r = .set items) :
    Builtin.setAdd.body (some r) [o] w =
      Builtin.boolResult (!w.store.hasEqual items o)
        { w with store := w.store.replace r (.set (w.store.insertItem items o)) } := by
  have hitems : Builtin.thisSet (some r) w = (.ok (r, items), w) := by
    show (Action.payload r >>= fun p => Action.orFail _ p.set? >>= fun os => pure (r, os)) w = _
    rw [bind_run_ok (Action.payload_run r w), hset]
    rfl
  show (Builtin.thisSet (some r) >>= _) w = _
  rw [bind_run_ok hitems]
  rfl

/-- What `add` does on any receiver that has it. -/
theorem add_run
    (hs : w.Sound)
    (hr : Known r w)
    (ho : Known o w)
    {m : Method}
    (hm : addMethod? r.type = some m) :
    ∃ b p, w.store.Inserts r o p ∧
      m.body (some r) [o] w =
        Builtin.boolResult b { w with store := w.store.replace r p } := by
  have hfits := hr.fits
  cases htype : r.type with
  | list e =>
      rw [htype] at hm hfits
      cases hm
      cases hp : w.store.payload r with
      | list items =>
          exact ⟨true, _, Store.inserts_list hp, listAdd_run hp⟩
      | _ =>
          rw [hp] at hfits
          cases hfits
  | set e =>
      rw [htype] at hm hfits
      cases hm
      cases hp : w.store.payload r with
      | set items =>
          exact ⟨_, _, Store.inserts_set hs.store ho hp, setAdd_run hp⟩
      | _ =>
          rw [hp] at hfits
          cases hfits
  | _ =>
      rw [htype] at hm
      cases hm

/-- Adding an object that does not lead to the receiver. -/
theorem ends_add
    (hs : w.Sound)
    (hr : Known r w)
    (ho : Known o w)
    {m : Method}
    (hm : addMethod? r.type = some m)
    (hfree : ¬ w.store.Leads o.id r.id) :
    Ends World.Keeps (m.body (some r) [o]) w Known := by
  obtain ⟨b, p, hinserts, hrun⟩ := add_run hs hr ho hm
  have hsound : ({ w with store := w.store.replace r p } : World).Sound := by
    refine ⟨hs.store.insert hr ho hinserts.kind hinserts.items hfree, ?_⟩
    intro handle x hx
    exact (hs.heap handle x hx).replace hr.bound hinserts.kind
  exact Ends.of_eq hrun (Builtin.ends_boolResult b hsound) fun w' hw' => hw'.sound

/-- Adding an object that leads to the receiver. -/
theorem ends_add_closing
    (hs : w.Sound)
    (hr : Known r w)
    (ho : Known o w)
    {m : Method}
    (hm : addMethod? r.type = some m)
    (hleads : w.store.Leads o.id r.id) :
    Ends World.Tangles (m.body (some r) [o]) w fun x w' =>
      x.type = .bool ∧ ∃ b, w'.store.payload x = .bool b := by
  obtain ⟨b, p, hinserts, hrun⟩ := add_run hs hr ho hm
  have htangled : ¬ (w.store.replace r p).Acyclic :=
    Store.not_acyclic_insert hr.bound hinserts.keeps (hinserts.puts hleads) hleads
  refine Ends.of_run (hrun.trans (Action.create_run _ _ _)) ?_
    ⟨rfl, b, Store.payload_alloc _ _⟩
  intro hacyclic
  exact htangled ((Store.extends_alloc .bool (.bool b)).acyclic hacyclic)

end Bodies

section Resolution

variable {c : Catalog}

/-- The resolution of a name with one visible method. -/
theorem resolve_one
    {reg : Registry}
    {t : Ty}
    {member : String}
    {staticsOnly : Bool}
    {m : Method}
    (hvisible : visibleMethods reg t member staticsOnly = [m])
    (shapes : List Shape) :
    resolve c reg t member shapes staticsOnly =
      if m.acceptsArity shapes.length then
        match Candidate.build c shapes m 0 with
        | .ok cand => .ok [cand]
        | .error (.missed miss) =>
            .error (.failed (.noCompatibleConverter miss.shape miss.target.display))
        | .error .overflowed => .error .overflow
      else
        .error (.failed (.noSuccessfulOverload t.display member shapes.length 0)) := by
  rw [resolve, hvisible]
  dsimp only
  rw [buildAll, List.zipIdx_singleton]
  cases harity : m.acceptsArity shapes.length with
  | false =>
      rw [List.filter_cons_of_neg (by simp [harity])]
      rfl
  | true =>
      rw [List.filter_cons_of_pos (by simp [harity])]
      cases hbuild : Candidate.build c shapes m 0 with
      | error setback =>
          rw [List.filter_nil, List.map_singleton, hbuild]
          cases setback <;> rfl
      | ok cand =>
          rw [List.filter_nil, List.map_singleton, hbuild]
          exact congrArg Except.ok (List.mergeSort_singleton cand)

/-- A name with one visible method has one candidate, if all arguments can be read and all sums
fit. -/
theorem resolve_one_ok
    {reg : Registry}
    {t : Ty}
    {member : String}
    {staticsOnly : Bool}
    {m : Method}
    (hvisible : visibleMethods reg t member staticsOnly = [m])
    {shapes : List Shape}
    {routes : List (Ty × Rule)}
    (harity : m.acceptsArity shapes.length = true)
    (hfits : m.Fits c shapes)
    (hroutes : Candidate.routes c m 0 shapes = .ok routes) :
    ∃ cand, resolve c reg t member shapes staticsOnly = .ok [cand] ∧ cand.method = m ∧
      cand.targets.zip cand.rules = routes ∧ cand.returnRule = c.findByType? m.returns := by
  have hresolve := resolve_one (c := c) hvisible shapes
  rw [harity, if_pos rfl] at hresolve
  have hruled : m.firstMiss? c shapes = none := by
    cases hmiss : m.firstMiss? c shapes with
    | none =>
        rfl
    | some arg =>
        rw [routes_eq_error hmiss] at hroutes
        cases hroutes
  obtain ⟨cand, hbuild, -⟩ := build_serves hruled hfits 0
  obtain ⟨routes', hroutes', hmethod, hzip, hreturn⟩ := build_eq_ok hbuild
  rw [hroutes] at hroutes'
  cases hroutes'
  rw [hbuild] at hresolve
  exact ⟨cand, hresolve, hmethod, hzip, hreturn⟩

theorem visible_add
    {t : Ty}
    (hplain : t.plain = true) :
    visibleMethods builtinRegistry t "add" false = (addMethod? t).toList := by
  cases t with
  | object d => cases hplain
  | _ => rfl

/-- Static methods of that name there are none. -/
theorem visible_add_static
    {d : ClassDescriptor}
    (hd : d ∈ Builtin.classes) :
    visibleMethods builtinRegistry d.type "add" true = [] := by
  simp only [Builtin.classes, List.mem_cons, List.not_mem_nil, or_false] at hd
  rcases hd with rfl | rfl | rfl | rfl <;> rfl

theorem isSome_addMethod?
    (t : Ty) :
    (addMethod? t).isSome = t.isMutable := by
  cases t <;> rfl

theorem signature_of_addMethod?
    {t : Ty}
    {m : Method}
    (hm : addMethod? t = some m) :
    m.rest = none ∧ m.returns = .bool ∧ m.target 0 = .any ∧
      ∀ n, m.acceptsArity n = (n == 1) := by
  cases t with
  | list e =>
      cases hm
      exact ⟨rfl, rfl, rfl, fun _ => rfl⟩
  | set e =>
      cases hm
      exact ⟨rfl, rfl, rfl, fun _ => rfl⟩
  | _ => cases hm

/-- A call of `add` has one candidate. -/
theorem resolve_add
    {t : Ty}
    (hplain : t.plain = true)
    {m : Method}
    (hm : addMethod? t = some m)
    {s : Shape}
    {rule : Rule}
    (hrule : c.findByShape? s .any = some rule) :
    ∃ cand, resolve c builtinRegistry t "add" [s] false = .ok [cand] ∧ cand.method = m ∧
      cand.targets.zip cand.rules = [(.any, rule)] ∧ cand.returnRule = c.findByType? .bool := by
  obtain ⟨-, hreturns, htarget, harity⟩ := signature_of_addMethod? hm
  have hvisible : visibleMethods builtinRegistry t "add" false = [m] := by
    rw [visible_add hplain, hm]
    rfl
  have hroutes : Candidate.routes c m 0 [s] = .ok [(.any, rule)] := by
    rw [Candidate.routes, htarget, hrule]
    rfl
  have hone : m.acceptsArity [s].length = true := harity 1
  have hfits : m.Fits c [s] := by
    refine fits_of_length_le_one (Nat.le_refl 1) ?_
    rw [htarget]
    decide
  rw [← hreturns]
  exact resolve_one_ok hvisible hone hfits hroutes

/-- A call of `add` has a candidate only on lists and sets, with one argument that can be read. -/
theorem of_resolve_add
    {t : Ty}
    (hplain : t.plain = true)
    {shapes : List Shape}
    {cands : List Candidate}
    (h : resolve c builtinRegistry t "add" shapes false = .ok cands) :
    ∃ m s rule, addMethod? t = some m ∧ shapes = [s] ∧ c.findByShape? s .any = some rule := by
  have hvisible := visible_add hplain
  cases hm : addMethod? t with
  | none =>
      rw [hm] at hvisible
      rw [resolve, hvisible] at h
      cases h
  | some m =>
      rw [hm] at hvisible
      obtain ⟨-, -, htarget, harity⟩ := signature_of_addMethod? hm
      rw [resolve_one hvisible, harity] at h
      split at h
      · rename_i hlength
        obtain ⟨s, rfl⟩ := List.length_eq_one_iff.1 (eq_of_beq hlength)
        refine ⟨m, s, ?_⟩
        cases hrule : c.findByShape? s .any with
        | some rule =>
            exact ⟨rule, rfl, rfl, rfl⟩
        | none =>
            rw [Candidate.build, Candidate.routes, htarget, hrule] at h
            cases h
      · cases h

end Resolution

section Attempts

variable {c : Catalog} {w : World} {cand : Candidate}

/-- An attempt for a method that is not variadic: all arguments reach the body. -/
theorem attempt_of_routes
    (hrest : cand.method.rest = none)
    {routes : List (Ty × Rule)}
    (hzip : cand.targets.zip cand.rules = routes)
    (receiver : Option Object)
    (args : List Value)
    (mode : ResultMode) :
    cand.attempt c receiver args mode =
      Action.guarded cand.method.display
        (do
          let os ← Candidate.readArguments c (args.zip routes)
          let result ← cand.method.body receiver os
          cand.convertResult c mode result) := by
  have hpack : ∀ os, Candidate.packArguments cand.method os = pure os := by
    intro os
    rw [Candidate.packArguments, hrest]
  rw [Candidate.attempt, Candidate.convertArguments, hzip]
  simp [hpack]

/-- An attempt with one argument, for a method that is not variadic. -/
theorem attempt_unary
    (hrest : cand.method.rest = none)
    {t : Ty}
    {rule : Rule}
    (hzip : cand.targets.zip cand.rules = [(t, rule)])
    (receiver : Option Object)
    (v : Value)
    (mode : ResultMode) :
    cand.attempt c receiver [v] mode =
      Action.guarded cand.method.display
        (do
          let o ← c.read rule t v
          let result ← cand.method.body receiver [o]
          cand.convertResult c mode result) := by
  rw [attempt_of_routes hrest hzip]
  simp [Candidate.readArguments]

/-- A truth value goes back to the host whatever the store is like. -/
theorem ends_convertResult_bool
    (hbool : c.findByType? .bool = some Scalar.boolean)
    (mode : ResultMode)
    {o : Object}
    (htype : o.type = .bool)
    {b : Bool}
    (hpayload : w.store.payload o = .bool b)
    (hw : ¬ w.store.Acyclic) :
    Ends World.Tangles (cand.convertResult c mode o) w fun _ _ => True := by
  refine (Ends.payload o hw).bind ?_
  rintro _ w₁ - ⟨rfl, rfl⟩
  rw [hpayload, htype]
  cases mode with
  | object =>
      refine (Ends.of_run (P := fun _ _ => True) (Action.intern_run o w₁) hw trivial).bind ?_
      intro h w₂ hw₂ _
      exact Ends.pure hw₂ trivial
  | simplest =>
      have hwrite : c.write Scalar.boolean o w₁ = (.ok (.boolean b), w₁) := by
        show (Action.payload o >>= fun p => Action.orFail _ (p.bool?.map Value.boolean)) w₁ = _
        rw [bind_run_ok (Action.payload_run o w₁), hpayload]
        rfl
      show Ends World.Tangles
        (Action.orFail _ ((c.findByType? .bool).or cand.returnRule) >>= fun r => c.write r o) w₁ _
      rw [hbool]
      exact Ends.of_run hwrite hw trivial

variable {r : Object} {m : Method} {rule : Rule} {v : Value}

/-- An attempt to add an object that does not lead to the receiver. -/
theorem ends_attempt_add
    (hc : c.Good)
    (hs : w.Sound)
    (hr : Known r w)
    (hm : addMethod? r.type = some cand.method)
    (hzip : cand.targets.zip cand.rules = [(.any, rule)])
    (hrule : rule ∈ c.rules)
    (hreturn : ∀ r, cand.returnRule = some r → r ∈ c.rules)
    (hfree : ∀ o w', c.read rule .any v w = (.ok o, w') → ¬ w'.store.Leads o.id r.id)
    (mode : ResultMode) :
    Ends World.Keeps (cand.attempt c (some r) [v] mode) w fun _ _ => True := by
  rw [attempt_unary (signature_of_addMethod? hm).1 hzip]
  refine Ends.guarded _ ?_ fun w' hw' => hw'
  have hany : Ty.any.plain = true := rfl
  have hread := (Catalog.ends_read hc.reads hrule hany v hs).and_run hfree
  have hknown : Ends World.Keeps (c.read rule .any v) w fun o w' =>
      Known r w' ∧ Known o w' ∧ ¬ w'.store.Leads o.id r.id := by
    refine hread.mono (fun w' hw' => hw'.sound) ?_
    intro o w' hw' ho
    exact ⟨hw'.knows hr, ho⟩
  refine hknown.bind ?_
  rintro o w₁ hw₁ ⟨hr₁, ho₁, hfree₁⟩
  refine (ends_add hw₁ hr₁ ho₁ hm hfree₁).bind ?_
  intro result w₂ hw₂ hresult
  refine (ends_convertResult hc hreturn mode hw₂ hresult).mono ?_ fun _ _ _ h => h
  intro w' hw'
  exact hw'.sound

/-- An attempt to add an object that leads to the receiver. -/
theorem ends_attempt_add_closing
    (hc : c.Good)
    (hbool : c.findByType? .bool = some Scalar.boolean)
    (hs : w.Sound)
    (hr : Known r w)
    (hm : addMethod? r.type = some cand.method)
    (hzip : cand.targets.zip cand.rules = [(.any, rule)])
    (hrule : rule ∈ c.rules)
    {o : Object}
    {w₁ : World}
    (hrun : c.read rule .any v w = (.ok o, w₁))
    (hleads : w₁.store.Leads o.id r.id)
    (mode : ResultMode) :
    Ends World.Tangles (cand.attempt c (some r) [v] mode) w fun _ _ => True := by
  rw [attempt_unary (signature_of_addMethod? hm).1 hzip]
  refine Ends.guarded _ ?_ fun w' hw' => hw'
  have hany : Ty.any.plain = true := rfl
  have hread := Catalog.ends_read hc.reads hrule hany v hs
  have hgrows : w.Grows w₁ := by
    have hlead := hread.leads
    rw [hrun] at hlead
    exact hlead
  have ho : Known o w₁ := by
    have hgive := hread.gives o
    rw [hrun] at hgive
    exact hgive rfl
  refine Ends.of_eq (R := World.Tangles) (bind_run_ok hrun) ?_ fun w' hw' => hw'
  refine (ends_add_closing hgrows.sound (hgrows.knows hr) ho hm hleads).bind ?_
  rintro result w₂ hw₂ ⟨htype, b, hpayload⟩
  exact ends_convertResult_bool hbool mode htype hpayload hw₂

end Attempts

section Calls

variable {c : Catalog} {w : World} {r : Object} {v : Value} {cands : List Candidate}

/-- A call that adds an object that does not lead to the receiver. -/
theorem ends_invokeMember_add
    (hc : c.Good)
    (hs : w.Sound)
    (hr : Known r w)
    {args : List Value}
    (hcands : resolve c builtinRegistry r.type "add" (args.map Value.shape) false = .ok cands)
    (hfree : r.type.isMutable = true → ∀ v rule o w', args = [v] →
      c.findByShape? v.shape .any = some rule → c.read rule .any v w = (.ok o, w') →
        ¬ w'.store.Leads o.id r.id)
    (mode : ResultMode) :
    Ends World.Keeps (invokeMember c r.type "add" (some r) args mode cands) w fun _ _ => True := by
  obtain ⟨m, s, rule, hm, hshapes, hrule⟩ := of_resolve_add hr.plain hcands
  obtain ⟨v, rfl, rfl⟩ := List.map_eq_singleton_iff.1 hshapes
  obtain ⟨cand, hcand, rfl, hzip, hreturn⟩ := resolve_add hr.plain hm hrule
  have hone : cands = [cand] := Except.ok.inj (hcands.symm.trans hcand)
  subst hone
  have hmutable : r.type.isMutable = true := by
    rw [← isSome_addMethod?, hm]
    rfl
  have hfirst := ends_attempt_add hc hs hr hm hzip (Catalog.mem_of_findByShape? hrule)
    (fun x hx => Catalog.mem_of_findByType? (hreturn ▸ hx))
    (fun o w' => hfree hmutable v rule o w' rfl hrule) mode
  refine ends_invokeMember_of _ _ _ _ _ _ ?_ fun w' hw' => hw'
  refine ends_attemptAll_cons hfirst ?_ fun w' hw' => hw'
  intro w' hw'
  exact Ends.pure hw' trivial

/-- A call that adds an object that leads to the receiver. -/
theorem ends_invokeMember_add_closing
    (hc : c.Good)
    (hbool : c.findByType? .bool = some Scalar.boolean)
    (hs : w.Sound)
    (hr : Known r w)
    (hmutable : r.type.isMutable = true)
    {rule : Rule}
    (hrule : c.findByShape? v.shape .any = some rule)
    {o : Object}
    {w₁ : World}
    (hrun : c.read rule .any v w = (.ok o, w₁))
    (hleads : w₁.store.Leads o.id r.id)
    (mode : ResultMode) :
    ∃ cands, resolve c builtinRegistry r.type "add" [v.shape] false = .ok cands ∧
      Ends World.Tangles (invokeMember c r.type "add" (some r) [v] mode cands) w
        fun _ _ => True := by
  rw [← isSome_addMethod?] at hmutable
  obtain ⟨m, hm⟩ := Option.isSome_iff_exists.1 hmutable
  obtain ⟨cand, hcand, rfl, hzip, -⟩ := resolve_add hr.plain hm hrule
  refine ⟨[cand], hcand, ?_⟩
  have hfirst := ends_attempt_add_closing hc hbool hs hr hm hzip
    (Catalog.mem_of_findByShape? hrule) hrun hleads mode
  refine ends_invokeMember_of _ _ _ _ _ _ ?_ fun w' hw' => hw'
  refine ends_attemptAll_cons hfirst ?_ fun w' hw' => hw'
  intro w' hw'
  exact Ends.pure hw' trivial

end Calls

end CellBridge
