import CellBridge.Proofs.Call.ArgumentReading
import CellBridge.Proofs.Session.Overflow

/-!
# Arguments have no effects

What the bridge reads with the standard rules leaves the heap as it is, and every payload that was
there, whether it succeeds or fails.  So a call of which no attempt comes past its arguments changes
nothing but the remembered candidates, and creates payloads that nothing refers to.

The sessions are those that the bridge can come to from any world whatever: candidates that are
remembered then have the rules of the catalog, `routed_of_lookup`.
-/

namespace CellBridge

namespace Bridge

variable {b : Bridge} {rs : List Request} {s : Session} {m : MemberCall}

section Reading

/-- Reading a value adds payloads at most, whatever becomes of it. -/
theorem ends_toManaged
    (hc : ∀ r ∈ b.catalog.rules, r.ReadsTyped)
    (v : Value)
    (expected : Ty)
    (w : World) :
    Ends World.Adds (b.toManaged v expected) w fun _ _ => True := by
  rw [toManaged]
  cases hrule : b.catalog.findByShape? v.shape expected with
  | none =>
      exact Ends.bind (P := fun _ _ => False) (Ends.fail _ (.refl w)) fun _ _ _ hno => hno.elim
  | some r =>
      refine (Ends.pure (a := r) (P := fun a _ => a = r) (.refl w) rfl).bind ?_
      rintro _ w₁ _ rfl
      refine Ends.guarded _ ?_ fun w' _ => .refl w'
      have hread := Catalog.ends_readTyped hc hrule (w₁.supplies_true v)
      exact hread.mono (fun _ h => h) fun _ _ _ _ => trivial

end Reading

section Calls

/-- A lookup leaves the world as it is, and gives candidates with the rules for the arguments. -/
theorem routed_of_lookup
    (hs : b.Reached rs s)
    {cands : List Candidate}
    {s' : Session}
    (hlookup : b.lookup m.request s = (.ok cands, s')) :
    s'.world = s.world ∧ ∀ cand ∈ cands, cand.Routed b.catalog m.args := by
  obtain ⟨hworld, q, -, hserves⟩ := hs.serves_of_lookup hlookup
  refine ⟨hworld, ?_⟩
  intro cand hcand
  obtain ⟨method, -, -, hcandidate⟩ := hserves cand hcand
  have hcandidate' : cand.Serves b.catalog (m.args.map Value.shape) method := hcandidate
  exact hcandidate'.routed

/-- A call of a member that runs no body fails or overflows, with new payloads at most. -/
theorem runMember_of_no_body
    (hc : ∀ r ∈ b.catalog.rules, r.ReadsTyped)
    (hs : b.Reached rs s)
    (hnone : b.memberRuns m s = []) :
    ∃ f s', b.runMember m s = (.error f, s') ∧ s.world.Adds s'.world ∧
      ((∃ e, f = .failed e) ∨ b.LookupOverflows m.request s ∧ f = .overflow) := by
  rw [memberRuns, List.filterMap_eq_nil_iff, memberAttempts] at hnone
  rw [runMember_run]
  cases hlookup : b.lookup m.request s with
  | mk result s' =>
      rw [hlookup] at hnone
      cases result with
      | error f =>
          obtain ⟨rfl, ⟨rfl, hover⟩ | hfailed⟩ := lookup_error hlookup
          · exact ⟨_, _, rfl, .refl _, Or.inr ⟨hover, rfl⟩⟩
          · exact ⟨f, _, rfl, .refl _, Or.inl hfailed⟩
      | ok cands =>
          obtain ⟨hworld, hcands⟩ := routed_of_lookup hs hlookup
          obtain ⟨e, w', hinvoke, hadds⟩ :=
            invokeMember_run_of_unconverted hc hcands hnone m.type m.member
          refine ⟨.failed e, { s' with world := w' }, ?_, hworld ▸ hadds, Or.inl ⟨e, rfl⟩⟩
          dsimp only
          rw [toStep_run, hinvoke]

/-- A call that runs no body gives an error value to the host or overflows, with new payloads at
most. -/
theorem perform_of_no_body
    (hc : ∀ r ∈ b.catalog.rules, r.ReadsTyped)
    (hs : b.Reached rs s)
    {call : HostCall}
    {args : List Value}
    (hargs : call.args? = some args)
    (hnone : b.bodyRuns call s = []) :
    ∃ result s', b.perform call s = (.value result, s') ∧ s.world.Adds s'.world ∧
      ((∃ e, result = .ok (.error e)) ∨ b.Overflows call s ∧ result = .error .overflow) := by
  cases hm : b.memberCall? s.world call with
  | none =>
      obtain ⟨e, hperform⟩ := perform_unknown hargs hm
      exact ⟨_, s, hperform, .refl _, Or.inl ⟨e, rfl⟩⟩
  | some m =>
      rw [bodyRuns, hm] at hnone
      rw [perform_memberCall hm, Step.answer, absorb_run]
      obtain ⟨_, s', hrun, hadds, ⟨e, rfl⟩ | ⟨hover, rfl⟩⟩ := runMember_of_no_body hc hs hnone
      · rw [hrun]
        exact ⟨_, s', rfl, hadds, Or.inl ⟨e.toCellError, rfl⟩⟩
      · rw [hrun]
        exact ⟨_, s', rfl, hadds, Or.inr ⟨(overflows_iff hm).2 hover, rfl⟩⟩

/-- An attempt that fails while its arguments are converted runs no body. -/
theorem bodyRuns_of_unconverted
    {call : HostCall}
    {args : List Value}
    (hargs : call.args? = some args)
    (hfail : ∀ a ∈ b.attempts call s, ∃ f w',
      a.candidate.convertArguments b.catalog args a.start = (.error f, w')) :
    b.bodyRuns call s = [] := by
  refine List.eq_nil_iff_forall_not_mem.2 ?_
  intro run hrun
  obtain ⟨m, hm, hrun⟩ := mem_bodyRuns.1 hrun
  obtain ⟨a, ha, hrun⟩ := mem_memberRuns.1 hrun
  cases (args?_of_memberCall? hm).symm.trans hargs
  obtain ⟨f, w', hconvert⟩ := hfail a (mem_attempts.2 ⟨m, hm, ha⟩)
  cases (Candidate.bodyRun?_eq_some.1 hrun).2.2.symm.trans hconvert

/-- With the standard rules, reading a value leaves the heap and all payloads as they are, whether
it succeeds or fails.  A call of which every attempt fails while its arguments are converted leaves
them as they are, too.  It gives an error value, unless it overflows before any attempt is made. -/
theorem reading_has_no_effects
    (hb : b.catalog = standardCatalog) :
    (∀ v expected w, (b.toManaged v expected w).2.heap = w.heap ∧
      w.store.Extends (b.toManaged v expected w).2.store) ∧
    ∀ rs s, b.Reached rs s → ∀ call args, call.args? = some args →
      (∀ a ∈ b.attempts call s, ∃ f w',
        a.candidate.convertArguments b.catalog args a.start = (.error f, w')) →
      ∃ result s', b.perform call s = (.value result, s') ∧
        s'.world.heap = s.world.heap ∧ s.world.store.Extends s'.world.store ∧
        ((∃ e, result = .ok (.error e)) ∨ b.Overflows call s ∧ result = .error .overflow) := by
  have hc : ∀ r ∈ b.catalog.rules, r.ReadsTyped := hb ▸ readsTyped_standardCatalog
  constructor
  · intro v expected w
    have hadds := (ends_toManaged hc v expected w).leads
    exact ⟨hadds.heap, hadds.growth⟩
  · intro rs s hs call args hargs hfail
    obtain ⟨result, s', hperform, hadds, hresult⟩ :=
      perform_of_no_body hc hs hargs (bodyRuns_of_unconverted hargs hfail)
    exact ⟨result, s', hperform, hadds.heap, hadds.growth, hresult⟩

end Calls

section Dial

/-! A dial that is set by a row of numbers, called with a row in which a truth value stands. -/

def dial : ClassDescriptor :=
  (ClassDescriptor.ofType (.object (.root "Dial"))).withMethod
    (.staticMethod "set" [.list .int] .void fun _ _ => Action.panic (some "no dial"))

def mixedRow : Value :=
  .array (Value.gridOfRow [.number (.ofInt 1), .boolean true])

/-- The number is read before the truth value is refused; nothing of this is left in the heap. -/
theorem reading_has_no_effects_dial :
    let b := (Bridge.empty {}).withStandardRules.withClass dial
    let s := b.newSession 0 .empty
    let call : HostCall := .invokeStatic "Dial" "set" [mixedRow] .simplest
    ((b.toManaged mixedRow (.list .int) s.world).2.heap = s.world.heap ∧
      s.world.store.Extends (b.toManaged mixedRow (.list .int) s.world).2.store) ∧
    ∃ e s', b.perform call s = (.value (.ok (.error e)), s') ∧
      s'.world.heap = s.world.heap ∧ s.world.store.Extends s'.world.store := by
  intro b s call
  let m : MemberCall := ⟨dial.type, "set", none, [mixedRow], .simplest⟩
  have hm : b.memberCall? s.world call = some m := rfl
  have hres : b.resolved m.request = .ok _ :=
    resolve_sorted rfl rfl rfl (List.pairwise_singleton _ _)
  have hlookup := lookup_new (s := s) rfl rfl hres
  obtain ⟨hread, hcalls⟩ := reading_has_no_effects (b := b) rfl
  have hfail : ∀ a ∈ b.attempts call s, ∃ f w',
      a.candidate.convertArguments b.catalog [mixedRow] a.start = (.error f, w') := by
    intro a ha
    obtain ⟨m', hm', ha⟩ := mem_attempts.1 ha
    obtain rfl : m = m' := Option.some.inj (hm.symm.trans hm')
    rw [memberAttempts, hlookup] at ha
    dsimp only at ha
    rw [Candidate.attempts_singleton, List.mem_singleton] at ha
    subst ha
    exact ⟨_, _, rfl⟩
  refine ⟨hread mixedRow (.list .int) s.world, ?_⟩
  obtain ⟨result, s', hperform, hheap, hgrowth, ⟨e, rfl⟩ | ⟨hover, -⟩⟩ :=
    hcalls [] s (.start s.world) call _ rfl hfail
  · exact ⟨e, s', hperform, hheap, hgrowth⟩
  · have hlooks := (overflows_iff hm).1 hover
    cases hlookup.symm.trans (lookup_of_overflows hlooks)

end Dial

end Bridge

end CellBridge
