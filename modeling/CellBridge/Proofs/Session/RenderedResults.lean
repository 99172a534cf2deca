import CellBridge.Proofs.Call.Results
import CellBridge.Proofs.Conversion.Rendering
import CellBridge.Proofs.Session.CacheKey

/-!
# Results that can be rendered

With the standard rules, a well-formed object is always rendered (`Shows.run_ok`), and so is the
result of a body, in both result modes: `convertResult_of_wellFormed`.

A body that gives a well-formed object therefore ends its call.  `Bridge.rendering_succeeds` says so
for every attempt of every call: the answer is the converted result, and no other overload is
tried after it.
-/

namespace CellBridge

/-- The result of a body can be converted if it is well-formed, and only the heap changes. -/
theorem Candidate.convertResult_of_wellFormed
    {classes : Set ManagedClass}
    (hclasses : DeterminedByName classes)
    (cand : Candidate)
    (mode : ResultMode)
    {o : Object}
    {w : World}
    (ho : w.store.WellFormed classes o) :
    ∃ v heap, cand.convertResult standardCatalog mode o w = (.ok v, { w with heap := heap }) := by
  cases hcarried : Reference.carriedHandle? (w.store.payload o) with
  | some handle =>
      exact ⟨.handle handle, w.heap, convertResult_carried _ cand mode hcarried⟩
  | none =>
      cases mode with
      | object =>
          by_cases htype : o.type = .void
          · exact ⟨.empty, w.heap, convertResult_nothing _ cand .object hcarried htype⟩
          · exact ⟨_, _, convertResult_object_intern standardCatalog cand hcarried htype⟩
      | simplest =>
          rw [convertResult_simplest_run cand hcarried]
          exact (Store.shows_writeCell hclasses (Store.shallow_of_free ho.acyclic).succ
            ho.within).run_ok ho.suits

namespace Bridge

/-- Well-formed objects are rendered.  A call in which a body gives one ends with it: the result is
converted, in the mode of the call, and this is the last attempt. -/
theorem rendering_succeeds
    {b : Bridge}
    (hb : b.catalog = standardCatalog)
    {classes : Set ManagedClass}
    (hclasses : DeterminedByName classes) :
    (∀ o w, w.store.WellFormed classes o →
      ∃ v heap, b.toCell o w = (.ok v, { w with heap := heap })) ∧
    ∀ m s, ∀ a ∈ b.memberAttempts m s, ∀ run o w,
      a.candidate.bodyRun? b.catalog m.receiver m.args a.start = some run →
      run.result = (.ok o, w) → w.store.WellFormed classes o →
        ∃ v heap,
          a.candidate.convertResult b.catalog m.mode o w = (.ok v, { w with heap := heap }) ∧
            (b.runMember m s).1 = .ok v ∧ (b.runMember m s).2.world = { w with heap := heap } ∧
              ∃ earlier, b.memberAttempts m s = earlier ++ [a] := by
  constructor
  · intro o w ho
    exact (shows_toCell hb hclasses ho.acyclic ho.within).run_ok ho.suits
  · intro m s a ha run o w hrun hresult ho
    obtain ⟨v, heap, hconvert⟩ := a.candidate.convertResult_of_wellFormed hclasses m.mode ho
    rw [← hb] at hconvert
    have hattempt := Candidate.attempt_run_ok.2 ⟨run, o, w, hrun, hresult, hconvert⟩
    exact ⟨v, heap, hconvert, runMember_of_attempt ha hattempt⟩

section Room

/-! A room whose cupboard can be asked for.  A second overload is there, but never tried. -/

def room : ClassDescriptor :=
  ((ClassDescriptor.ofType (.object (.root "Room"))).withMethod
    (.staticMethod "cupboard" [] (.list .any) fun _ _ => pure Store.cupboard)).withMethod
    (.staticMethod "cupboard" [] .int fun _ _ => Action.panic (some "no cupboard"))

/-- The cupboard is rendered, alone and as the result of a call. -/
theorem rendering_succeeds_room :
    let b := (Bridge.empty {}).withStandardRules.withClass room
    let m : MemberCall := ⟨room.type, "cupboard", none, [], .simplest⟩
    let s := b.newSession 0 Store.cupboardStore
    (∃ v heap, b.toCell Store.cupboard s.world = (.ok v, { s.world with heap := heap })) ∧
      ∃ a ∈ b.memberAttempts m s, ∃ v heap,
        a.candidate.convertResult b.catalog m.mode Store.cupboard s.world =
            (.ok v, { s.world with heap := heap }) ∧
          (b.runMember m s).1 = .ok v ∧ (b.runMember m s).2.world = { s.world with heap := heap } ∧
            ∃ earlier, b.memberAttempts m s = earlier ++ [a] := by
  intro b m s
  have hres : b.resolved m.request = .ok _ := resolve_sorted rfl rfl rfl (by decide)
  have hattempt := mem_memberAttempts_first (m := m) (lookup_new (s := s) rfl rfl hres)
  obtain ⟨halone, hcalls⟩ := rendering_succeeds (b := b) rfl Store.determinedByName_cupboard
  exact ⟨halone Store.cupboard s.world Store.wellFormed_cupboard, _, hattempt,
    hcalls m s _ hattempt _ Store.cupboard s.world rfl rfl Store.wellFormed_cupboard⟩

end Room

end Bridge

end CellBridge
