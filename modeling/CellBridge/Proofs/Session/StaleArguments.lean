import CellBridge.Proofs.Session.ArgumentEffects

/-!
# Stale arguments stop a call

An argument with a stale handle in it is refused by every candidate that does not hand it through,
so no body is run: `Candidate.GuardsAt.refuses_attempt` for one attempt, `bodyRuns_stale` for all of
them.  `stale_argument_refused` is the statement for a call of the host.  The candidates may
be those of a namesake of the type, and `stale_argument_reaches_namesake` shows that then the
methods of the type itself decide nothing.
-/

namespace CellBridge

section Defs

/-- No method that a call can mean hands the argument at position `i` through. -/
def Bridge.Guards
    (b : Bridge)
    (rs : List Request)
    (w : World)
    (call : HostCall)
    (i : Nat) : Prop :=
  ∀ r, b.request? w call = some r → ∀ q, b.CanAnswer rs r q → ∀ m ∈ b.visible q,
    m.acceptsArity r.shapes.length = true → (m.target i).handsThrough = false

/-- The rules of the catalog are type sound and refuse stale values. -/
structure Catalog.Strict
    (c : Catalog) : Prop where
  typed : ∀ r ∈ c.rules, r.ReadsTyped
  refuses : ∀ r ∈ c.rules, r.Refuses

/-- The candidate has a rule for each argument, and wants no cell value at position `i`. -/
structure Candidate.GuardsAt
    (c : Catalog)
    (args : List Value)
    (i : Nat)
    (cand : Candidate) : Prop where
  routed : List.Forall₂ (fun v route => c.findByShape? v.shape route.1 = some route.2) args
    (cand.targets.zip cand.rules)
  guarded : ∀ route, (cand.targets.zip cand.rules)[i]? = some route →
    route.1.handsThrough = false

end Defs

theorem strict_standardCatalog :
    standardCatalog.Strict := by
  refine ⟨readsTyped_standardCatalog, ?_⟩
  intro r hr
  exact refuses_of_standard (Catalog.mem_standardCatalog hr)

section Attempts

variable {c : Catalog} {args : List Value} {i : Nat} {v : Value} {w : World}

/-- Reading arguments fails at a stale one, if not before. -/
theorem Candidate.refuses_readArguments
    (hc : c.Strict)
    {routes : List (Ty × Rule)}
    (hroutes : List.Forall₂ (fun v route => c.findByShape? v.shape route.1 = some route.2) args
      routes)
    (hguarded : ∀ route, routes[i]? = some route → route.1.handsThrough = false)
    (hv : args[i]? = some v)
    (hregular : v.Regular)
    (hstale : v.Stale w.heap) :
    (Candidate.readArguments c (args.zip routes)).Refuses w := by
  induction hroutes generalizing i w with
  | nil =>
      cases hv
  | @cons v' route args routes hrule hrest ih =>
      cases i with
      | zero =>
          cases hv
          have hexpected := hguarded route rfl
          refine (Catalog.refuses_read hc.refuses hc.typed hrule hexpected hregular hstale).bind ?_
          intro o w₁ _ hnone
          exact hnone.elim
      | succ i =>
          refine (Catalog.ends_readTyped hc.typed hrule (w.supplies_true v')).bind ?_
          intro o w₁ hw₁ _
          refine (ih (i := i) hguarded hv (hstale.adds hw₁)).bind ?_
          intro os w₂ _ hnone
          exact hnone.elim

theorem Candidate.GuardsAt.refuses_convertArguments
    (hc : c.Strict)
    {cand : Candidate}
    (hcand : cand.GuardsAt c args i)
    (hv : args[i]? = some v)
    (hregular : v.Regular)
    (hstale : v.Stale w.heap) :
    (cand.convertArguments c args).Refuses w := by
  refine (Candidate.refuses_readArguments hc hcand.routed hcand.guarded hv hregular hstale).bind ?_
  intro os w₁ _ hnone
  exact hnone.elim

/-- An attempt fails, and no body is run. -/
theorem Candidate.GuardsAt.refuses_attempt
    (hc : c.Strict)
    {cand : Candidate}
    (hcand : cand.GuardsAt c args i)
    (hv : args[i]? = some v)
    (hregular : v.Regular)
    (hstale : v.Stale w.heap)
    (receiver : Option Object)
    (mode : ResultMode) :
    (cand.attempt c receiver args mode).Refuses w ∧ cand.bodyRun? c receiver args w = none := by
  have hconvert := hcand.refuses_convertArguments hc hv hregular hstale
  refine ⟨?_, ?_⟩
  · refine Ends.guarded _ ?_ fun w' _ => .refl w'
    exact hconvert.bind fun _ _ _ hnone => hnone.elim
  · cases hrun : cand.bodyRun? c receiver args w with
    | none =>
        rfl
    | some run =>
        obtain ⟨-, -, hok⟩ := Candidate.bodyRun?_eq_some.1 hrun
        exact (hconvert.gives run.args (congrArg Prod.fst hok)).elim

variable {cands : List Candidate} {receiver : Option Object} {mode : ResultMode}

/-- All attempts start in worlds that have new payloads at most. -/
theorem adds_of_attempt
    (hc : c.Strict)
    (hcands : ∀ cand ∈ cands, cand.GuardsAt c args i)
    (hv : args[i]? = some v)
    (hregular : v.Regular)
    (hstale : v.Stale w.heap) :
    ∀ a ∈ Candidate.attempts c receiver args mode cands w,
      a.candidate ∈ cands ∧ w.Adds a.start := by
  refine Candidate.forall_attempts (.refl w) ?_
  intro cand hcand w₁ hw₁ f w₂ hattempt
  have hleads := ((hcands cand hcand).refuses_attempt hc hv hregular (hstale.adds hw₁) receiver
    mode).1.leads
  rw [hattempt] at hleads
  exact trans_of World.Adds hw₁ hleads

end Attempts

namespace Bridge

section Calls

variable {b : Bridge} {rs : List Request} {s : Session} {call : HostCall} {args : List Value}
  {i : Nat} {v : Value}

/-- The candidates that a lookup gives want no cell value where none of the methods does. -/
theorem guardsAt_of_lookup
    (hs : b.Reached rs s)
    {m : MemberCall}
    (hm : b.memberCall? s.world call = some m)
    (hguards : b.Guards rs s.world call i)
    {cands : List Candidate}
    {s' : Session}
    (hlookup : b.lookup m.request s = (.ok cands, s')) :
    s'.world = s.world ∧ ∀ cand ∈ cands, cand.GuardsAt b.catalog m.args i := by
  obtain ⟨hworld, q, hq, hserves⟩ := hs.serves_of_lookup hlookup
  refine ⟨hworld, ?_⟩
  intro cand hcand
  obtain ⟨method, hvisible, harity, hserves⟩ := hserves cand hcand
  have hserves' : cand.Serves b.catalog (m.args.map Value.shape) method := hserves
  have hrequest : b.request? s.world call = some m.request := by
    rw [request?_eq, hm]
    rfl
  have hguarded := hguards m.request hrequest q hq method hvisible harity
  refine ⟨hserves'.routed, ?_⟩
  intro route hroute
  have htarget : cand.targets[i]? = some route.1 := (List.getElem?_zip_eq_some.1 hroute).1
  rw [hserves'.targets_eq, List.getElem?_map] at htarget
  obtain ⟨j, hj, hroute⟩ := Option.map_eq_some_iff.1 htarget
  obtain ⟨hi, rfl⟩ := List.getElem?_eq_some_iff.1 hj
  rw [List.getElem_range] at hroute
  rw [← hroute]
  exact hguarded

/-- No body is run. -/
theorem bodyRuns_stale
    (hc : b.catalog.Strict)
    (hs : b.Reached rs s)
    (hargs : call.args? = some args)
    (hv : args[i]? = some v)
    (hregular : v.Regular)
    (hstale : v.Stale s.world.heap)
    (hguards : b.Guards rs s.world call i) :
    b.bodyRuns call s = [] := by
  refine List.eq_nil_iff_forall_not_mem.2 ?_
  intro run hrun
  obtain ⟨m, hm, hrun⟩ := mem_bodyRuns.1 hrun
  obtain ⟨a, ha, hrun⟩ := mem_memberRuns.1 hrun
  obtain ⟨cands, s', hlookup, hattempt⟩ := mem_memberAttempts.1 ha
  cases (args?_of_memberCall? hm).symm.trans hargs
  obtain ⟨hworld, hcands⟩ := guardsAt_of_lookup hs hm hguards hlookup
  rw [hworld] at hattempt
  obtain ⟨hmem, hadds⟩ := adds_of_attempt hc hcands hv hregular hstale a hattempt
  have hnone := ((hcands a.candidate hmem).refuses_attempt hc hv hregular (hstale.adds hadds)
    m.receiver m.mode).2
  cases hrun.symm.trans hnone

/-- A call with a stale argument that no method hands through runs no body.  The heap stays as it
is, and so does everything in the store.  The answer is an error value, unless the call overflows
before any argument is looked at. -/
theorem stale_argument_refused
    (hb : b.catalog = standardCatalog)
    (hs : b.Reached rs s)
    (hargs : call.args? = some args)
    (hv : args[i]? = some v)
    (hregular : v.Regular)
    (hstale : v.Stale s.world.heap)
    (hguards : b.Guards rs s.world call i) :
    b.bodyRuns call s = [] ∧
      ∃ result s', b.perform call s = (.value result, s') ∧
        s'.world.heap = s.world.heap ∧ s.world.store.Extends s'.world.store ∧
        ((∃ e, result = .ok (.error e)) ∨ b.Overflows call s ∧ result = .error .overflow) := by
  have hc : b.catalog.Strict := hb ▸ strict_standardCatalog
  have hnone := bodyRuns_stale hc hs hargs hv hregular hstale hguards
  obtain ⟨result, s', hperform, hadds, hresult⟩ := perform_of_no_body hc.typed hs hargs hnone
  exact ⟨hnone, result, s', hperform, hadds.heap, hadds.growth, hresult⟩

/-- A list is made of a row whose last cell is a handle that leads nowhere. -/
theorem stale_argument_refused_row :
    let b := (Bridge.empty {}).withStandardRules.withBuiltins
    let s := b.newSession 1 .empty
    let v : Value := .array (Value.gridOfRows [[.text "bolt", .handle ⟨9⟩]])
    b.bodyRuns (.construct "List" [v]) s = [] ∧
      ∃ e s', b.perform (.construct "List" [v]) s = (.value (.ok (.error e)), s') ∧
        s'.world.heap = s.world.heap ∧ s.world.store.Extends s'.world.store := by
  intro b s v
  have hregular : v.Regular := by
    refine .grid ?_
    intro row hrow c hc
    cases List.mem_singleton.1 hrow
    simp only [List.mem_cons, List.not_mem_nil, or_false] at hc
    rcases hc with rfl | rfl <;> exact .plain rfl
  have hcell : v.HasCell (.handle ⟨9⟩) := by
    refine ⟨_, rfl, [.text "bolt", .handle ⟨9⟩], List.mem_singleton.2 rfl, ?_⟩
    exact List.mem_cons_of_mem _ List.mem_cons_self
  have hstale : v.Stale s.world.heap := ⟨⟨9⟩, .cell hcell .here, rfl⟩
  have hguards : b.Guards [] s.world (.construct "List" [v]) 0 := by
    intro r hr q hq
    have hrequest : r = ⟨.list .any, constructorName, [.array], true⟩ := by
      cases hr
      rfl
    subst hrequest
    rcases hq with rfl | ⟨-, hmem, -⟩
    · decide
    · cases hmem
  have hfits : ¬ b.Overflows (.construct "List" [v]) s := by
    rintro ⟨r, hr, -, m, hm, -, hover⟩
    cases hr
    have hrank : ∀ m ∈ b.visible ⟨.list .any, constructorName, [.array], true⟩,
        (m.target 0).rank < 2 ^ 32 := by
      decide
    exact hover (fits_of_length_le_one (Nat.le_refl 1) (hrank m hm))
  have hargs : (HostCall.construct "List" [v]).args? = some [v] := rfl
  have hv : [v][0]? = some v := rfl
  obtain ⟨hnone, result, s', hperform, hheap, hgrowth, ⟨e, rfl⟩ | ⟨hover, -⟩⟩ :=
    stale_argument_refused rfl (.start s.world) hargs hv hregular hstale hguards
  · exact ⟨hnone, e, s', hperform, hheap, hgrowth⟩
  · exact absurd hover hfits

end Calls

section Ports

/-- The session with a port of each side, behind the handles one and two. -/
def harbourSession : Session :=
  let heap := (harbour.newSession 1 .empty).world.heap
  let left := heap.intern { type := .object (port leftSide), id := 0 }
  let right := left.2.intern { type := .object (port rightSide), id := 1 }
  { world := { store := { payloads := #[.record [], .record []] }, heap := right.2 }
    cache := .empty }

/-- A port takes the handle nine, which leads nowhere. -/
def takeNine
    (port : Handle) : HostCall :=
  .invoke (.handle port) "take" [.handle ⟨9⟩] .simplest

/-- The method of a port on the right side wants an object.  After a call on a port of the left
side, whose method takes any cell value, it is that method which answers, for the right side too. -/
theorem stale_argument_reaches_namesake :
    let s := (harbour.perform (takeNine ⟨1⟩) harbourSession).2
    harbour.catalog = standardCatalog ∧ harbour.Reached [takeAt leftSide] s ∧
      s.world.heap.resolve? ⟨9⟩ = none ∧
      harbour.request? s.world (takeNine ⟨2⟩) = some (takeAt rightSide) ∧
      (∀ m ∈ harbour.visible (takeAt rightSide), (m.target 0).handsThrough = false) ∧
      (harbour.perform (takeNine ⟨2⟩) s).1 = .value (.ok (.text "left")) ∧
      harbour.bodyRuns (takeNine ⟨2⟩) s ≠ [] := by
  intro s
  let call : Object → MemberCall := fun o =>
    { type := o.type, member := "take", receiver := some o, args := [.handle ⟨9⟩],
      mode := .simplest }
  let left := call { type := .object (port leftSide), id := 0 }
  let right := call { type := .object (port rightSide), id := 1 }
  have hleft : harbour.memberCall? harbourSession.world (takeNine ⟨1⟩) = some left := rfl
  have hs : s = _ :=
    congrArg Prod.snd (perform_found hleft (lookup_new rfl rfl resolved_harbour_left))
  have hright : harbour.memberCall? s.world (takeNine ⟨2⟩) = some right := by
    rw [hs]
    rfl
  have hknown : s.cache.get? right.request.key = some [takingLeft] := by
    rw [hs]
    rfl
  have hlookup := lookup_known (b := harbour) rfl hknown
  have hreached := (Reached.start (b := harbour) harbourSession.world).perform (takeNine ⟨1⟩)
  refine ⟨rfl, hreached, ?_, ?_, by decide, ?_, ?_⟩
  · rw [hs]
    rfl
  · rw [request?_eq, hright]
    rfl
  · rw [perform_found hright hlookup, hs]
    rfl
  · have hrun : takingLeft.bodyRun? harbour.catalog right.receiver right.args s.world = some _ :=
      rfl
    exact List.ne_nil_of_mem (mem_bodyRuns.2 ⟨right, hright, mem_memberRuns.2
      ⟨_, mem_memberAttempts_first hlookup, hrun⟩⟩)

end Ports

end Bridge

end CellBridge
