import CellBridge.Proofs.Session.CacheKey

/-!
# Calls that overflow

Ranks and priorities are summed while the candidates of a call are looked up, outside of any guard.
A lookup overflows if some visible method takes the arguments and does not fit, unless the
candidates are remembered.  The call ends there, with the session as it was: `perform_of_overflows`.
Calls of members end abruptly in no other way, `runMember_panicked_iff`.
-/

namespace CellBridge

namespace Bridge

section Defs

/-- The candidates of a request are not remembered, and to look them up calls for a sum that does
not fit. -/
def LookupOverflows
    (b : Bridge)
    (r : Request)
    (s : Session) : Prop :=
  (b.config.cacheCandidates = true → s.cache.get? r.key = none) ∧
    ∃ m ∈ b.visible r, m.Takes b.catalog r.shapes ∧ ¬ m.Fits b.catalog r.shapes

/-- The call makes a request whose lookup overflows. -/
def Overflows
    (b : Bridge)
    (call : HostCall)
    (s : Session) : Prop :=
  ∃ r, b.request? s.world call = some r ∧ b.LookupOverflows r s

end Defs

variable {b : Bridge} {r : Request} {s s' : Session} {f : Fault}

section Lookups

theorem lookup_of_overflows
    (h : b.LookupOverflows r s) :
    b.lookup r s = (.error .overflow, s) := by
  obtain ⟨hnew, hover⟩ := h
  have hres : b.resolved r = .error .overflow := resolve_eq_overflow_iff.2 hover
  rw [lookup_run, hres]
  cases hon : b.config.cacheCandidates with
  | false =>
      rfl
  | true =>
      rw [hnew hon]

/-- A lookup that does not succeed leaves the session as it is.  It fails, or it overflows. -/
theorem lookup_error
    (h : b.lookup r s = (.error f, s')) :
    s' = s ∧ (f = .overflow ∧ b.LookupOverflows r s ∨ ∃ e, f = .failed e) := by
  have hcase : b.resolved r = .error f ∧ s' = s ∧
      (b.config.cacheCandidates = true → s.cache.get? r.key = none) := by
    rw [lookup_run] at h
    split at h
    · cases h
    · cases h
    · rename_i hknown hnew
      obtain ⟨hres, rfl⟩ := Prod.mk.inj h
      refine ⟨hres, rfl, fun hon => ?_⟩
      cases hget : s.cache.get? r.key with
      | none =>
          rfl
      | some known =>
          exact (hknown known hon hget).elim
  obtain ⟨hres, rfl, hnew⟩ := hcase
  refine ⟨rfl, ?_⟩
  rcases error_of_resolve hres with rfl | hfailed
  · exact Or.inl ⟨rfl, hnew, resolve_eq_overflow_iff.1 hres⟩
  · exact Or.inr hfailed

end Lookups

section Calls

variable {m : MemberCall} {call : HostCall}

theorem runMember_of_overflows
    (h : b.LookupOverflows m.request s) :
    b.runMember m s = (.error .overflow, s) := by
  rw [runMember_run, lookup_of_overflows h]

/-- A call of a member ends abruptly exactly if it overflows. -/
theorem runMember_panicked_iff
    {message : Option String} :
    (b.runMember m s).1 = .error (.panicked message) ↔
      .panicked message = Fault.overflow ∧ b.LookupOverflows m.request s := by
  constructor
  · intro h
    rw [runMember_run] at h
    cases hlookup : b.lookup m.request s with
    | mk result s' =>
        rw [hlookup] at h
        cases result with
        | ok cands =>
            exact absurd h (invokeMember_ne_panicked m.type m.member m.receiver m.args m.mode cands
              s'.world message)
        | error f =>
            obtain ⟨-, ⟨rfl, hover⟩ | ⟨e, rfl⟩⟩ := lookup_error hlookup
            · exact ⟨(Except.error.inj h).symm, hover⟩
            · cases h
  · rintro ⟨hmessage, hover⟩
    rw [hmessage, runMember_of_overflows hover]

theorem overflows_iff
    (hm : b.memberCall? s.world call = some m) :
    b.Overflows call s ↔ b.LookupOverflows m.request s := by
  rw [Overflows, request?_eq, hm]
  simp

/-- A call that overflows has no answer, and leaves the session as it is. -/
theorem perform_of_overflows
    (h : b.Overflows call s) :
    b.perform call s = (.value (.error .overflow), s) := by
  obtain ⟨r, hr, hover⟩ := h
  rw [request?_eq] at hr
  obtain ⟨m, hm, rfl⟩ := Option.map_eq_some_iff.1 hr
  rw [perform_memberCall hm, Step.answer, absorb_run, runMember_of_overflows hover]

/-- A call of a member has no answer for the reason of an abrupt end exactly if it overflows. -/
theorem perform_panicked_iff
    {args : List Value}
    (hargs : call.args? = some args)
    {message : Option String} :
    (b.perform call s).1 = .value (.error (.panicked message)) ↔
      .panicked message = Fault.overflow ∧ b.Overflows call s := by
  cases hm : b.memberCall? s.world call with
  | none =>
      obtain ⟨e, hperform⟩ := perform_unknown hargs hm
      rw [hperform, Overflows, request?_eq, hm]
      simp
  | some m =>
      rw [overflows_iff hm, ← runMember_panicked_iff, perform_memberCall hm, Step.answer,
        absorb_run]
      cases b.runMember m s with
      | mk result s' =>
          cases result with
          | ok v =>
              simp
          | error f =>
              cases f <;> simp

end Calls

end Bridge
end CellBridge
