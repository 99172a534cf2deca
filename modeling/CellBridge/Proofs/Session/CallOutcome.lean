import CellBridge.Proofs.Call.Fallback
import CellBridge.Proofs.Session.MemberCalls

/-!
# The outcome of a call

Once the candidates of a call are known, the call tries them in order until one decides, and gives
what that one gives.  `CallOutcome` says which attempts are made, in which worlds they start, what
the answer is and which world is left, and `runMember_outcome` that every call comes out so.
-/

namespace CellBridge

open Candidate

/-- The answer to a call with the given candidates, and the world that it leaves. -/
inductive CallOutcome
    (c : Catalog)
    (m : MemberCall)
    (cands : List Candidate)
    (w : World) : Except Fault Value × World → Prop
  /-- The candidates up to some one are tried, each in the world that its predecessor left.  All but
  the last fail, but not for a handle that leads nowhere; the last gives a value, or meets such a
  handle, or never ends.  Its result is the answer, and any others might stand behind it. -/
  | decided
      (before : List Candidate)
      (cand : Candidate)
      (after : List Candidate)
      (split : cands = before ++ cand :: after)
      (tried : attempts c m.receiver m.args m.mode cands w =
        inTurn c m.receiver m.args m.mode (before ++ [cand]) w)
      (falls : Falls c m.receiver m.args m.mode before w)
      (decides : Decides (resultAfter c m.receiver m.args m.mode before w cand))
      (others : ∀ others,
        invokeMember c m.type m.member m.receiver m.args m.mode (before ++ cand :: others) w =
          invokeMember c m.type m.member m.receiver m.args m.mode cands w) :
      CallOutcome c m cands w
        (resultAfter c m.receiver m.args m.mode before w cand,
          worldAfter c m.receiver m.args m.mode (before ++ [cand]) w)
  /-- All candidates are tried, each in the world that its predecessor left.  All fail, none for a
  handle that leads nowhere, and the answer is that no overload succeeded. -/
  | exhausted
      (tried : attempts c m.receiver m.args m.mode cands w =
        inTurn c m.receiver m.args m.mode cands w)
      (falls : Falls c m.receiver m.args m.mode cands w) :
      CallOutcome c m cands w
        (.error (.failed
          (.noSuccessfulOverload m.type.display m.member m.args.length cands.length)),
          worldAfter c m.receiver m.args m.mode cands w)

/-- Trying candidates comes out so. -/
theorem invokeMember_outcome
    (c : Catalog)
    (m : MemberCall)
    (cands : List Candidate)
    (w : World) :
    CallOutcome c m cands w
      (invokeMember c m.type m.member m.receiver m.args m.mode cands w) := by
  rcases falls_or_decides c m.receiver m.args m.mode cands w with hfalls |
    ⟨before, cand, after, rfl, hfalls, hdecides⟩
  · rw [invokeMember_of_falls m.type m.member hfalls]
    exact .exhausted (attempts_of_falls hfalls) hfalls
  · have hlast := invokeMember_of_decides m.type m.member hfalls hdecides
    have hworld : worldAfter c m.receiver m.args m.mode (before ++ [cand]) w =
        (cand.attempt c m.receiver m.args m.mode
          (worldAfter c m.receiver m.args m.mode before w)).2 := by
      simp [worldAfter_append]
    have hdecided := CallOutcome.decided before cand after rfl
      (attempts_of_decides hfalls hdecides) hfalls hdecides
      (fun others => (hlast others).trans (hlast after).symm)
    rw [hlast]
    rw [hworld] at hdecided
    exact hdecided

namespace Bridge

/-- A call whose candidates are found comes out as trying them in order does; only the world changes
after they are found.  The catalog may have any room for nested conversions, and a candidate is
without an end only if its conversions or its body are, in the room there is. -/
theorem runMember_outcome
    {b : Bridge}
    {m : MemberCall}
    {s s' : Session}
    {cands : List Candidate}
    (hcands : b.lookup m.request s = (.ok cands, s')) :
    CallOutcome b.catalog m cands s'.world ((b.runMember m s).1, (b.runMember m s).2.world) ∧
      (b.runMember m s).2.cache = s'.cache := by
  rw [runMember_run, hcands]
  exact ⟨invokeMember_outcome b.catalog m cands s'.world, rfl⟩

section Gauge

/-! A gauge reads whole numbers only to refuse them, and gives doubles back. -/

/-- The class of gauges, with a method for either kind of number. -/
def gauge : ClassDescriptor :=
  ((ClassDescriptor.ofType (.object (.root "Gauge"))).withMethod
    (.staticMethod "read" [.int] .double fun _ _ =>
      Action.fail (.invocationFailure "too coarse"))).withMethod
    (.staticMethod "read" [.double] .double fun _ args =>
      Action.orFail (.invocationFailure "no argument") args.head?)

/-- Reading a number on a gauge has two candidates. -/
theorem runMember_outcome_gauge :
    let b := (Bridge.empty {}).withStandardRules.withClass gauge
    let m : MemberCall := ⟨gauge.type, "read", none, [.number (.ofInt 3)], .simplest⟩
    let s := b.newSession 0 .empty
    ∃ cands s', b.lookup m.request s = (.ok cands, s') ∧ cands.length = 2 ∧
      CallOutcome b.catalog m cands s'.world ((b.runMember m s).1, (b.runMember m s).2.world) ∧
        (b.runMember m s).2.cache = s'.cache := by
  intro b m s
  refine ⟨_, _, rfl, ?_, runMember_outcome rfl⟩
  exact List.length_mergeSort _

end Gauge

end Bridge
end CellBridge
