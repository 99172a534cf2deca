import CellBridge.Call.Invocation
import CellBridge.Proofs.Conversion.ActionRuns

/-!
# Attempts and the bodies they run

A call makes its attempts one after the other; `attempts` lists them, each with the world that it
starts in.  An attempt whose arguments can be converted runs one body, `bodyRun?`; it goes on from
there as `attempt_of_bodyRun` says, and without a run it fails: `attempt_of_none`.

`attemptAll_run_ok` ties the list to the program: what a call gives is what one of its attempts
gives.  `forall_attempts` carries an invariant of the world from attempt to attempt.
-/

namespace CellBridge

section Defs

/-- A body at work: the method, what the body is given, and the world that it starts in. -/
structure BodyRun where
  method : Method
  receiver : Option Object
  args : List Object
  start : World

/-- What the body gives, and the world that it leaves. -/
def BodyRun.result
    (run : BodyRun) : Except Fault Object × World :=
  run.method.body run.receiver run.args run.start

/-- A candidate and the world in which it is tried. -/
structure Attempt where
  candidate : Candidate
  start : World

namespace Candidate

/-- Does the fault of one candidate pass the call on to the next? -/
def passesOn : Fault → Bool
  | .failed (.notFound _) => false
  | .failed _ => true
  | _ => false

/-- The attempts that a call makes. -/
def attempts
    (c : Catalog)
    (receiver : Option Object)
    (args : List Value)
    (mode : ResultMode) : List Candidate → World → List Attempt
  | [], _ => []
  | cand :: rest, w =>
      { candidate := cand, start := w } ::
        match cand.attempt c receiver args mode w with
        | (.ok _, _) => []
        | (.error f, w') => if passesOn f then attempts c receiver args mode rest w' else []

/-- The run of the body, if the arguments can be converted. -/
def bodyRun?
    (c : Catalog)
    (receiver : Option Object)
    (args : List Value)
    (cand : Candidate)
    (w : World) : Option BodyRun :=
  match cand.convertArguments c args w with
  | (.ok os, w') =>
      some { method := cand.method, receiver := receiver, args := os, start := w' }
  | (.error _, _) => none

end Candidate

end Defs

namespace Action

section Endings

variable {α β : Type} {what : String} {act : Action α} {next : α → Action β} {w w' : World}

/-- What comes after a success is guarded as if it stood alone. -/
theorem guarded_bind_ok
    {a : α}
    (h : act w = (.ok a, w')) :
    guarded what (act >>= next) w = guarded what (next a) w' := by
  rw [guarded, guarded, tryCatch_run, tryCatch_run, bind_run_ok h]

/-- Nothing comes after a fault. -/
theorem guarded_bind_error
    {f : Fault}
    (h : act w = (.error f, w')) :
    ∃ f', guarded what (act >>= next) w = (.error f', w') := by
  rw [guarded, tryCatch_run, bind_run_error h]
  cases f <;> exact ⟨_, rfl⟩

/-- A failure passes the guard as it is. -/
theorem guarded_bind_failed
    {e : BridgeError}
    (h : act w = (.error (.failed e), w')) :
    guarded what (act >>= next) w = (.error (.failed e), w') := by
  rw [guarded, tryCatch_run, bind_run_error h]
  rfl

end Endings

end Action

namespace Candidate

variable {c : Catalog} {receiver : Option Object} {args : List Value} {mode : ResultMode}

section Single

variable {cand : Candidate} {w : World}

theorem bodyRun?_eq_some
    {run : BodyRun} :
    cand.bodyRun? c receiver args w = some run ↔
      run.method = cand.method ∧ run.receiver = receiver ∧
        cand.convertArguments c args w = (.ok run.args, run.start) := by
  rw [bodyRun?]
  obtain ⟨method, receiver', os, start⟩ := run
  cases cand.convertArguments c args w with
  | mk result w' =>
      cases result with
      | ok os' =>
          constructor
          · intro h
            cases h
            exact ⟨rfl, rfl, rfl⟩
          · rintro ⟨rfl, rfl, h⟩
            cases h
            rfl
      | error f =>
          constructor
          · intro h
            cases h
          · rintro ⟨-, -, h⟩
            cases h

/-- An attempt with a run is the body and the conversion of its result. -/
theorem attempt_of_bodyRun
    {run : BodyRun}
    (mode : ResultMode)
    (h : cand.bodyRun? c receiver args w = some run) :
    cand.attempt c receiver args mode w =
      Action.guarded cand.method.display
        (run.method.body run.receiver run.args >>= cand.convertResult c mode) run.start := by
  obtain ⟨hmethod, hreceiver, hconvert⟩ := bodyRun?_eq_some.1 h
  rw [hmethod, hreceiver]
  exact Action.guarded_bind_ok hconvert

/-- An attempt without a run fails where the conversion of the arguments does. -/
theorem attempt_of_none
    (mode : ResultMode)
    (h : cand.bodyRun? c receiver args w = none) :
    ∃ f, cand.attempt c receiver args mode w = (.error f, (cand.convertArguments c args w).2) := by
  rw [bodyRun?] at h
  cases hconvert : cand.convertArguments c args w with
  | mk result w' =>
      rw [hconvert] at h
      cases result with
      | ok os =>
          cases h
      | error f =>
          exact Action.guarded_bind_error hconvert

/-- Where the arguments cannot be converted no body is run, and the attempt fails alike. -/
theorem attempt_of_failed
    (mode : ResultMode)
    {e : BridgeError}
    {w' : World}
    (h : cand.convertArguments c args w = (.error (.failed e), w')) :
    cand.bodyRun? c receiver args w = none ∧
      cand.attempt c receiver args mode w = (.error (.failed e), w') := by
  refine ⟨?_, Action.guarded_bind_failed h⟩
  rw [bodyRun?, h]

/-- An attempt succeeds if its body gives an object and the object can be converted. -/
theorem attempt_run_ok
    {v : Value}
    {w' : World} :
    cand.attempt c receiver args mode w = (.ok v, w') ↔
      ∃ run o w₁, cand.bodyRun? c receiver args w = some run ∧ run.result = (.ok o, w₁) ∧
        cand.convertResult c mode o w₁ = (.ok v, w') := by
  cases hrun : cand.bodyRun? c receiver args w with
  | none =>
      obtain ⟨f, hattempt⟩ := attempt_of_none mode hrun
      rw [hattempt]
      constructor
      · intro h
        cases h
      · rintro ⟨run, o, w₁, hsome, -⟩
        cases hsome
  | some run =>
      rw [attempt_of_bodyRun mode hrun, Action.guarded_run_ok, bind_run_eq_ok]
      constructor
      · rintro ⟨o, w₁, hresult, hconvert⟩
        exact ⟨run, o, w₁, rfl, hresult, hconvert⟩
      · rintro ⟨run', o, w₁, hsome, hresult, hconvert⟩
        cases hsome
        exact ⟨o, w₁, hresult, hconvert⟩

end Single

section All

variable {cands : List Candidate} {w w' : World}

/-- The first attempt decides, unless its fault passes the call on. -/
theorem attemptAll_cons_run
    (cand : Candidate)
    (cands : List Candidate)
    (w : World) :
    attemptAll c receiver args mode (cand :: cands) w =
      match cand.attempt c receiver args mode w with
      | (.ok v, w') => (.ok (some v), w')
      | (.error f, w') =>
          if passesOn f then attemptAll c receiver args mode cands w' else (.error f, w') := by
  rw [attemptAll, tryCatch_run, map_eq_pure_bind, bind_run]
  cases cand.attempt c receiver args mode w with
  | mk result w' =>
      cases result with
      | ok v =>
          rfl
      | error f =>
          cases f with
          | failed e =>
              cases e <;> rfl
          | _ =>
              rfl

/-- What a call gives is what one of its attempts gives. -/
theorem attemptAll_run_ok
    {v : Value} :
    attemptAll c receiver args mode cands w = (.ok (some v), w') ↔
      ∃ a ∈ attempts c receiver args mode cands w,
        a.candidate.attempt c receiver args mode a.start = (.ok v, w') := by
  induction cands generalizing w with
  | nil =>
      constructor
      · intro h
        cases h
      · rintro ⟨a, ha, -⟩
        cases ha
  | cons cand cands ih =>
      rw [attemptAll_cons_run, attempts]
      simp only [List.mem_cons, or_and_right, exists_or, exists_eq_left]
      cases cand.attempt c receiver args mode w with
      | mk result w₁ =>
          cases result with
          | ok v' =>
              constructor
              · intro h
                cases h
                exact Or.inl rfl
              · rintro (h | ⟨a, ha, -⟩)
                · cases h
                  rfl
                · cases ha
          | error f =>
              have hfailed : ¬ ((.error f, w₁) : Except Fault Value × World) = (.ok v, w') := by
                intro h
                cases h
              dsimp only
              split
              · rw [ih]
                exact (or_iff_right hfailed).symm
              · constructor
                · intro h
                  cases h
                · rintro (h | ⟨a, ha, -⟩)
                  · exact absurd h hfailed
                  · cases ha

/-- An attempt that succeeds is the last one. -/
theorem attempts_eq_of_ok
    {a : Attempt}
    (ha : a ∈ attempts c receiver args mode cands w)
    {v : Value}
    (hok : a.candidate.attempt c receiver args mode a.start = (.ok v, w')) :
    ∃ earlier, attempts c receiver args mode cands w = earlier ++ [a] := by
  induction cands generalizing w with
  | nil =>
      cases ha
  | cons cand cands ih =>
      rw [attempts] at ha ⊢
      rcases List.mem_cons.1 ha with rfl | hlater
      · rw [hok]
        exact ⟨[], rfl⟩
      · cases hattempt : cand.attempt c receiver args mode w with
        | mk result w₁ =>
            rw [hattempt] at hlater
            cases result with
            | ok v' =>
                cases hlater
            | error f =>
                dsimp only at hlater ⊢
                split at hlater
                · rename_i hpasses
                  obtain ⟨earlier, heq⟩ := ih hlater
                  rw [if_pos hpasses, heq]
                  exact ⟨{ candidate := cand, start := w } :: earlier, rfl⟩
                · cases hlater

/-- What holds of the world at first, and after every attempt that passes the call on, holds at the
start of each attempt. -/
theorem forall_attempts
    {P : World → Prop}
    (hw : P w)
    (hstep : ∀ cand ∈ cands, ∀ w, P w → ∀ f w',
      cand.attempt c receiver args mode w = (.error f, w') → P w') :
    ∀ a ∈ attempts c receiver args mode cands w, a.candidate ∈ cands ∧ P a.start := by
  induction cands generalizing w with
  | nil =>
      intro a ha
      cases ha
  | cons cand cands ih =>
      intro a ha
      rw [attempts] at ha
      rcases List.mem_cons.1 ha with rfl | hlater
      · exact ⟨List.mem_cons_self, hw⟩
      · cases hattempt : cand.attempt c receiver args mode w with
        | mk result w₁ =>
            rw [hattempt] at hlater
            cases result with
            | ok v =>
                cases hlater
            | error f =>
                dsimp only at hlater
                split at hlater
                · have hw₁ := hstep cand List.mem_cons_self w hw f w₁ hattempt
                  obtain ⟨hmem, hstart⟩ :=
                    ih hw₁ (fun cand' h => hstep cand' (List.mem_cons_of_mem cand h)) a hlater
                  exact ⟨List.mem_cons_of_mem cand hmem, hstart⟩
                · cases hlater

/-- A candidate without others is tried once. -/
theorem attempts_singleton
    (cand : Candidate)
    (w : World) :
    attempts c receiver args mode [cand] w = [{ candidate := cand, start := w }] := by
  rw [attempts]
  cases cand.attempt c receiver args mode w with
  | mk result w' =>
      cases result with
      | ok v =>
          rfl
      | error f =>
          exact congrArg _ (ite_self [])

/-- Only candidates of the call are tried. -/
theorem candidate_mem_of_attempt
    {a : Attempt}
    (ha : a ∈ attempts c receiver args mode cands w) :
    a.candidate ∈ cands := by
  exact (forall_attempts (P := fun _ => True) trivial (fun _ _ _ _ _ _ _ => trivial) a ha).1

end All

end Candidate

/-- A call of a member gives what one of its attempts gives. -/
theorem invokeMember_run_ok
    {c : Catalog}
    {t : Ty}
    {member : String}
    {receiver : Option Object}
    {args : List Value}
    {mode : ResultMode}
    {cands : List Candidate}
    {w w' : World}
    {v : Value} :
    invokeMember c t member receiver args mode cands w = (.ok v, w') ↔
      ∃ a ∈ Candidate.attempts c receiver args mode cands w,
        a.candidate.attempt c receiver args mode a.start = (.ok v, w') := by
  rw [← Candidate.attemptAll_run_ok, invokeMember, tryCatch_run, invoke, bind_run]
  cases Candidate.attemptAll c receiver args mode cands w with
  | mk result w₁ =>
      cases result with
      | ok found =>
          cases found with
          | none =>
              constructor <;> intro h <;> cases h
          | some v' =>
              constructor <;> intro h <;> cases h <;> rfl
      | error f =>
          cases f with
          | failed e =>
              cases e <;> constructor <;> intro h <;> cases h
          | _ =>
              constructor <;> intro h <;> cases h

end CellBridge
