import CellBridge.Proofs.Session.RenderedResults

/-!
# Results in the simplest form and the bridge

The result of a body in the simplest form and an object that the bridge is asked for go different
ways.  The former gives handles that are carried as cell values and the absence of a value without
any rule, and falls back to the rule for the declared type; the latter always takes the rule for the
type of the object, under its name.

With the standard rules both come to the same for a well-formed object (`convertResult_eq_toCell`):
there is a rule for its type, an object that carries a handle is of a type whose rule gives that
handle (`writeCell_of_carried`), and the name of a rule counts for nothing where the rule succeeds.
-/

namespace CellBridge

variable {classes : Set ManagedClass} {o : Object} {w : World}

section Carried

/-- A cell value that is handed through comes out again. -/
theorem tagged_toCell_run
    (cs : Conversions)
    {v : Value}
    (hpayload : w.store.payload o = .tagged v) :
    Reference.tagged.toCell cs o w = (.ok v, w) := by
  show (do
    Action.orFail (.conversion "object is not a host value") (← Action.payload o).tagged?) w = _
  rw [bind_run_ok (Action.payload_run o w), hpayload]
  rfl

/-- The rule for an object that suits its tag and carries a handle gives this handle. -/
theorem writeCell_of_carried
    (hsuits : o.type.Matches (w.store.payload o))
    {handle : Handle}
    (hcarried : Reference.carriedHandle? (w.store.payload o) = some handle)
    (n : Nat) :
    writeCell n o w = (.ok (.handle handle), w) := by
  have hboxing := Reference.writeHandle_of_carried hcarried
  -- What carries a handle is a cell value, which few tags match.
  have hpayload : w.store.payload o = .tagged (.handle handle) := by
    obtain ⟨v, htagged, hhandle⟩ := Option.bind_eq_some_iff.1 hcarried
    cases hp : w.store.payload o <;> rw [hp] at htagged <;> cases htagged
    cases v <;> cases hhandle
    rfl
  rw [hpayload] at hsuits
  rw [writeCell]
  cases htype : o.type with
  | any =>
      exact hboxing
  | tagged =>
      exact tagged_toCell_run _ hpayload
  | object c =>
      rw [htype] at hsuits
      rw [writerRule]
      cases henum : c.isSubclassOf .enumRoot with
      | true =>
          cases hsuits henum
      | false =>
          exact hboxing
  | _ =>
      rw [htype] at hsuits
      cases hsuits

end Carried

namespace Bridge

variable {b : Bridge}

section Conversions

/-- The name of a rule counts for nothing where the rule succeeds. -/
theorem toCell_eq_writeCell
    (hb : b.catalog = standardCatalog)
    {v : Value}
    {w' : World}
    (h : b.toCell o w = (.ok v, w')) :
    writeCell (w.store.size + 1) o w = b.toCell o w := by
  rw [h]
  rw [toCell_standard hb] at h
  exact Action.guarded_run_ok.1 h

/-- The result of a body is converted as the bridge converts it, whatever type the method
declares. -/
theorem convertResult_eq_toCell
    (hb : b.catalog = standardCatalog)
    (hclasses : DeterminedByName classes)
    (ho : w.store.WellFormed classes o)
    (cand : Candidate) :
    cand.convertResult b.catalog .simplest o w = b.toCell o w := by
  obtain ⟨v, heap, hcell⟩ := (shows_toCell hb hclasses ho.acyclic ho.within).run_ok ho.suits
  rw [← toCell_eq_writeCell hb hcell, hb]
  cases hcarried : Reference.carriedHandle? (w.store.payload o) with
  | none =>
      exact Candidate.convertResult_simplest_run cand hcarried
  | some handle =>
      rw [writeCell_of_carried ho.suits.self.payload hcarried]
      exact Candidate.convertResult_carried _ cand _ hcarried

end Conversions

section Calls

/-- With the standard rules, a call in the simplest form of which a body gives a well-formed object
answers what the bridge makes of this object in the world that the body leaves, and leaves the world
that this makes.  That holds whatever type the method declares, since the result of a body is
converted for every candidate as the bridge converts it. -/
theorem simplest_result_is_toCell
    (hb : b.catalog = standardCatalog)
    (hclasses : DeterminedByName classes) :
    (∀ o w, w.store.WellFormed classes o →
      (∃ v heap, b.toCell o w = (.ok v, { w with heap := heap })) ∧
        ∀ cand : Candidate, cand.convertResult b.catalog .simplest o w = b.toCell o w) ∧
    ∀ call s m, b.memberCall? s.world call = some m → m.mode = .simplest →
      ∀ run ∈ b.bodyRuns call s, ∀ o w, run.result = (.ok o, w) → w.store.WellFormed classes o →
        (b.perform call s).1 = .value (b.toCell o w).1 ∧
          (b.perform call s).2.world = (b.toCell o w).2 := by
  constructor
  · intro o w ho
    exact ⟨(shows_toCell hb hclasses ho.acyclic ho.within).run_ok ho.suits,
      convertResult_eq_toCell hb hclasses ho⟩
  · intro call s m hm hmode run hrun o w hresult ho
    obtain ⟨m', hm', hrun'⟩ := mem_bodyRuns.1 hrun
    obtain rfl : m = m' := Option.some.inj (hm.symm.trans hm')
    obtain ⟨a, ha, hbody⟩ := mem_memberRuns.1 hrun'
    obtain ⟨v, heap, hcell⟩ := (shows_toCell hb hclasses ho.acyclic ho.within).run_ok ho.suits
    have hconvert := convertResult_eq_toCell hb hclasses ho a.candidate
    rw [hcell] at hconvert ⊢
    rw [← hmode] at hconvert
    have hattempt := Candidate.attempt_run_ok.2 ⟨run, o, w, hbody, hresult, hconvert⟩
    obtain ⟨hvalue, hworld, -⟩ := runMember_of_attempt ha hattempt
    rw [perform_memberCall hm, Step.answer, absorb_session, absorb_ok hvalue]
    exact ⟨rfl, hworld⟩

/-- The cupboard of a room comes out of a call as it does alone, with the same handles given to what
is in it. -/
theorem simplest_result_is_toCell_room :
    let b := (Bridge.empty {}).withStandardRules.withClass room
    let s := b.newSession 0 Store.cupboardStore
    let call : HostCall := .invokeStatic "Room" "cupboard" [] .simplest
    (∃ v heap, b.toCell Store.cupboard s.world = (.ok v, { s.world with heap := heap })) ∧
      (b.perform call s).1 = .value (b.toCell Store.cupboard s.world).1 ∧
        (b.perform call s).2.world = (b.toCell Store.cupboard s.world).2 := by
  intro b s call
  obtain ⟨halone, hcalls⟩ := simplest_result_is_toCell (b := b) rfl Store.determinedByName_cupboard
  have hcall : b.memberCall? s.world call = some ⟨room.type, "cupboard", none, [], .simplest⟩ := by
    rfl
  have hres : b.resolved (MemberCall.request ⟨room.type, "cupboard", none, [], .simplest⟩) =
      .ok _ :=
    resolve_sorted rfl rfl rfl (by decide)
  have hrun := mem_bodyRuns_first hcall (lookup_new (s := s) rfl rfl hres) rfl
  exact ⟨(halone Store.cupboard s.world Store.wellFormed_cupboard).1,
    hcalls call s _ hcall rfl _ hrun Store.cupboard s.world rfl Store.wellFormed_cupboard⟩

end Calls

end Bridge

end CellBridge
