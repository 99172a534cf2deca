import CellBridge.Proofs.Call.Attempts
import CellBridge.Proofs.Call.TameCalls

/-!
# Fallback from candidate to candidate

A call tries its candidates in order, each in the world that the one before it left.  The attempts
go on as long as they fail (`Falls`), and stop with the first one that `Decides`: it gives a value,
meets a handle that leads nowhere, or never ends.

* `falls_or_decides`: either all candidates fail, or some first one decides.
* `attempts_eq`: the attempts of a call are those up to the one that decides.
* `invokeMember_of_decides`: that one gives the answer, whatever stands behind it.
* `invokeMember_of_falls`: without one the answer is that no overload succeeded.
-/

namespace CellBridge
namespace Candidate

section Defs

variable (c : Catalog) (receiver : Option Object) (args : List Value) (mode : ResultMode)

/-- The world after one attempt with each of the candidates. -/
def worldAfter
    (cands : List Candidate)
    (w : World) : World :=
  cands.foldl (fun w cand => (cand.attempt c receiver args mode w).2) w

/-- One attempt with each of the candidates, each in the world that its predecessor left. -/
def inTurn
    (cands : List Candidate)
    (w : World) : List Attempt :=
  cands.mapIdx fun i cand =>
    { candidate := cand, start := worldAfter c receiver args mode (cands.take i) w }

/-- The result of the attempt with a candidate that follows on others. -/
def resultAfter
    (before : List Candidate)
    (w : World)
    (cand : Candidate) : Except Fault Value :=
  (cand.attempt c receiver args mode (worldAfter c receiver args mode before w)).1

/-- A failure, but not that a handle leads nowhere. -/
def IsSetback
    (result : Except Fault Value) : Prop :=
  ∃ e, result = .error (.failed e) ∧ ∀ h, e ≠ .notFound h

/-- A value, or a handle that leads nowhere, or no end at all. -/
def Decides
    (result : Except Fault Value) : Prop :=
  (∃ v, result = .ok v) ∨ (∃ h, result = .error (.failed (.notFound h))) ∨
    result = .error .diverged

/-- The candidates fail one after the other, each in the world that its predecessor left. -/
def Falls
    (cands : List Candidate)
    (w : World) : Prop :=
  ∀ i cand, cands[i]? = some cand →
    IsSetback (resultAfter c receiver args mode (cands.take i) w cand)

end Defs

variable {c : Catalog} {receiver : Option Object} {args : List Value} {mode : ResultMode}
  {cand : Candidate} {cands before after : List Candidate} {w : World}

section Worlds

@[simp] theorem worldAfter_nil :
    worldAfter c receiver args mode [] w = w := by
  rfl

@[simp] theorem worldAfter_cons :
    worldAfter c receiver args mode (cand :: cands) w =
      worldAfter c receiver args mode cands (cand.attempt c receiver args mode w).2 := by
  rfl

theorem worldAfter_append :
    worldAfter c receiver args mode (before ++ after) w =
      worldAfter c receiver args mode after (worldAfter c receiver args mode before w) := by
  exact List.foldl_append

/-- The first candidate starts in the world of the call, the others in the world that it left. -/
@[simp] theorem inTurn_cons :
    inTurn c receiver args mode (cand :: cands) w =
      { candidate := cand, start := w } ::
        inTurn c receiver args mode cands (cand.attempt c receiver args mode w).2 := by
  simp [inTurn, List.mapIdx_cons]

@[simp] theorem resultAfter_nil :
    resultAfter c receiver args mode [] w cand = (cand.attempt c receiver args mode w).1 := by
  rfl

@[simp] theorem falls_nil :
    Falls c receiver args mode [] w := by
  simp [Falls]

/-- Candidates fail in turn if the first one does and then the others do. -/
theorem falls_cons :
    Falls c receiver args mode (cand :: cands) w ↔
      IsSetback (cand.attempt c receiver args mode w).1 ∧
        Falls c receiver args mode cands (cand.attempt c receiver args mode w).2 := by
  constructor
  · intro h
    refine ⟨h 0 cand rfl, ?_⟩
    intro i next hnext
    exact h (i + 1) next hnext
  · rintro ⟨hfirst, hrest⟩ i next hnext
    cases i with
    | zero =>
        cases hnext
        exact hfirst
    | succ i =>
        exact hrest i next hnext

end Worlds

section Results

/-- An attempt decides or fails; it never ends abruptly. -/
theorem decides_or_isSetback
    (c : Catalog)
    (receiver : Option Object)
    (args : List Value)
    (mode : ResultMode)
    (cand : Candidate)
    (w : World) :
    Decides (cand.attempt c receiver args mode w).1 ∨
      IsSetback (cand.attempt c receiver args mode w).1 := by
  have hcalm := guarded_ne_panicked cand.method.display
    (do
      let converted ← cand.convertArguments c args
      let o ← cand.method.body receiver converted
      cand.convertResult c mode o) w
  change ∀ m, (cand.attempt c receiver args mode w).1 ≠ .error (.panicked m) at hcalm
  cases hresult : (cand.attempt c receiver args mode w).1 with
  | ok v =>
      exact Or.inl (Or.inl ⟨v, rfl⟩)
  | error f =>
      cases f with
      | failed e =>
          cases e with
          | notFound h =>
              exact Or.inl (Or.inr (Or.inl ⟨h, rfl⟩))
          | _ =>
              exact Or.inr ⟨_, rfl, by simp⟩
      | panicked m =>
          exact absurd hresult (hcalm m)
      | diverged =>
          exact Or.inl (Or.inr (Or.inr rfl))

/-- A setback passes the call on to the next candidate. -/
theorem IsSetback.passesOn
    {f : Fault}
    (h : IsSetback (.error f)) :
    passesOn f = true := by
  obtain ⟨e, heq, hne⟩ := h
  cases heq
  cases e with
  | notFound h =>
      exact absurd rfl (hne h)
  | _ =>
      rfl

/-- A result that decides ends the attempts. -/
theorem Decides.not_passesOn
    {f : Fault}
    (h : Decides (.error f)) :
    passesOn f = false := by
  rcases h with ⟨v, heq⟩ | ⟨h, heq⟩ | heq <;> cases heq <;> rfl

end Results

section Attempts

/-- Either the candidates fail one after the other, or some first one decides. -/
theorem falls_or_decides
    (c : Catalog)
    (receiver : Option Object)
    (args : List Value)
    (mode : ResultMode)
    (cands : List Candidate)
    (w : World) :
    Falls c receiver args mode cands w ∨
      ∃ before cand after, cands = before ++ cand :: after ∧
        Falls c receiver args mode before w ∧
          Decides (resultAfter c receiver args mode before w cand) := by
  induction cands generalizing w with
  | nil =>
      exact Or.inl falls_nil
  | cons first cands ih =>
      rcases decides_or_isSetback c receiver args mode first w with hdecides | hsetback
      · exact Or.inr ⟨[], first, cands, rfl, falls_nil, hdecides⟩
      · rcases ih (first.attempt c receiver args mode w).2 with hfalls |
          ⟨before, cand, after, rfl, hfalls, hdecides⟩
        · exact Or.inl (falls_cons.2 ⟨hsetback, hfalls⟩)
        · exact Or.inr
            ⟨first :: before, cand, after, rfl, falls_cons.2 ⟨hsetback, hfalls⟩, hdecides⟩

/-- Candidates that fail pass the call on to those behind them. -/
theorem attemptAll_append_of_falls
    (h : Falls c receiver args mode before w)
    (rest : List Candidate) :
    attemptAll c receiver args mode (before ++ rest) w =
      attemptAll c receiver args mode rest (worldAfter c receiver args mode before w) := by
  induction before generalizing w with
  | nil =>
      rfl
  | cons first before ih =>
      obtain ⟨hfirst, hbefore⟩ := falls_cons.1 h
      rw [List.cons_append, attemptAll_cons_run, worldAfter_cons, ← ih hbefore]
      cases hrun : first.attempt c receiver args mode w with
      | mk result w' =>
          rw [hrun] at hfirst
          obtain ⟨e, rfl, hne⟩ := hfirst
          have hpasses : passesOn (.failed e) = true := IsSetback.passesOn ⟨e, rfl, hne⟩
          simp [hpasses]

/-- Candidates that fail are tried in turn, and then those behind them. -/
theorem attempts_append_of_falls
    (h : Falls c receiver args mode before w)
    (rest : List Candidate) :
    attempts c receiver args mode (before ++ rest) w =
      inTurn c receiver args mode before w ++
        attempts c receiver args mode rest (worldAfter c receiver args mode before w) := by
  induction before generalizing w with
  | nil =>
      rfl
  | cons first before ih =>
      obtain ⟨hfirst, hbefore⟩ := falls_cons.1 h
      rw [List.cons_append, attempts, inTurn_cons, worldAfter_cons, List.cons_append, ← ih hbefore]
      cases hrun : first.attempt c receiver args mode w with
      | mk result w' =>
          rw [hrun] at hfirst
          obtain ⟨e, rfl, hne⟩ := hfirst
          have hpasses : passesOn (.failed e) = true := IsSetback.passesOn ⟨e, rfl, hne⟩
          simp [hpasses]

theorem inTurn_append :
    inTurn c receiver args mode (before ++ after) w =
      inTurn c receiver args mode before w ++
        inTurn c receiver args mode after (worldAfter c receiver args mode before w) := by
  induction before generalizing w with
  | nil =>
      rfl
  | cons first before ih =>
      simp [ih]

/-- The attempts of a call go up to the candidate that decides. -/
theorem attempts_of_decides
    (hfalls : Falls c receiver args mode before w)
    (hdecides : Decides (resultAfter c receiver args mode before w cand)) :
    attempts c receiver args mode (before ++ cand :: after) w =
      inTurn c receiver args mode (before ++ [cand]) w := by
  rw [attempts_append_of_falls hfalls, inTurn_append, inTurn_cons, attempts]
  rw [resultAfter] at hdecides
  cases hrun : cand.attempt c receiver args mode (worldAfter c receiver args mode before w) with
  | mk result w' =>
      rw [hrun] at hdecides
      cases result with
      | ok v =>
          rfl
      | error f =>
          simp [Decides.not_passesOn hdecides, inTurn]

/-- Candidates that all fail are all tried. -/
theorem attempts_of_falls
    (hfalls : Falls c receiver args mode cands w) :
    attempts c receiver args mode cands w = inTurn c receiver args mode cands w := by
  have hall := attempts_append_of_falls hfalls []
  simpa [attempts] using hall

end Attempts

end Candidate

section Members

open Candidate

variable {c : Catalog} {receiver : Option Object} {args : List Value} {mode : ResultMode}
  {cand : Candidate} {cands before : List Candidate} {w : World}

/-- The candidate that decides gives the answer, whatever stands behind it. -/
theorem invokeMember_of_decides
    (t : Ty)
    (member : String)
    (hfalls : Falls c receiver args mode before w)
    (hdecides : Decides (resultAfter c receiver args mode before w cand))
    (after : List Candidate) :
    invokeMember c t member receiver args mode (before ++ cand :: after) w =
      cand.attempt c receiver args mode (worldAfter c receiver args mode before w) := by
  rw [invokeMember, tryCatch_run, invoke, bind_run, attemptAll_append_of_falls hfalls,
    attemptAll_cons_run]
  rw [resultAfter] at hdecides
  cases hrun : cand.attempt c receiver args mode (worldAfter c receiver args mode before w) with
  | mk result w' =>
      rw [hrun] at hdecides
      rcases hdecides with ⟨v, heq⟩ | ⟨h, heq⟩ | heq <;> cases heq <;> rfl

/-- The first candidate gives the answer, if it succeeds. -/
theorem invokeMember_of_first
    (t : Ty)
    (member : String)
    {v : Value}
    {w' : World}
    (hok : cand.attempt c receiver args mode w = (.ok v, w'))
    (after : List Candidate) :
    invokeMember c t member receiver args mode (cand :: after) w = (.ok v, w') := by
  have hdecides : Decides (resultAfter c receiver args mode [] w cand) :=
    Or.inl ⟨v, congrArg Prod.fst hok⟩
  exact (invokeMember_of_decides t member falls_nil hdecides after).trans hok

/-- Where all candidates fail, the answer counts them. -/
theorem invokeMember_of_falls
    (t : Ty)
    (member : String)
    (hfalls : Falls c receiver args mode cands w) :
    invokeMember c t member receiver args mode cands w =
      (.error (.failed (.noSuccessfulOverload t.display member args.length cands.length)),
        worldAfter c receiver args mode cands w) := by
  have hnone : attemptAll c receiver args mode cands w =
      (.ok none, worldAfter c receiver args mode cands w) := by
    simpa [attemptAll] using attemptAll_append_of_falls hfalls []
  rw [invokeMember, tryCatch_run, invoke, bind_run, hnone]
  rfl

end Members

end CellBridge
