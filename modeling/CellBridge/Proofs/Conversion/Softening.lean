import CellBridge.Proofs.Conversion.Gaps

/-!
# Failures in the place of panics

`Softens act act'` says that the second action does what the first one does, except that in some
places it fails where the first one ends abruptly, after the same effects.  Where this is a matter
of conversions that call each other, it is a matter of a gap, `Gap.panics`.

A guard closes the gap: guarded actions differ in the message of a failure at most,
`Softens.guarded`.
-/

namespace CellBridge

section Defs

/-- A failure of invocation in the place of a panic, in the same world. -/
def Gap.panics : Gap where
  allows f w p := ∃ m text, f = .panicked m ∧ p = (.error (.failed (.invocationFailure text)), w)
  bind := by
    rintro α β _ w w₀ act next ⟨m, text, rfl, hfail⟩
    exact ⟨m, text, rfl, bind_run_error hfail⟩

/-- The second action fails in some places where the first one ends abruptly, and otherwise does
what the first one does. -/
abbrev Softens
    {α : Type}
    (act act' : Action α) : Prop :=
  Gap.panics.Covers act act'

/-- The second action fails wherever the first one ends abruptly, and otherwise does what the first
one does. -/
def Calms
    {α : Type}
    (act act' : Action α) : Prop :=
  ∀ w, match act w with
    | (.error (.panicked _), w') =>
        ∃ text, act' w = (.error (.failed (.invocationFailure text)), w')
    | outcome => act' w = outcome

/-- Two endings that the host cannot tell apart, except by the message of a failure. -/
inductive SameEnding
    {α : Type} : Except Fault α → Except Fault α → Prop
  | same
      (result : Except Fault α) :
      SameEnding result result
  | failed
      (text text' : String) :
      SameEnding (.error (.failed (.invocationFailure text)))
        (.error (.failed (.invocationFailure text')))

end Defs

section Actions

variable {α : Type} {act act' act'' : Action α}

/-- An action that fails wherever another one ends abruptly fails in some of these places. -/
theorem Calms.softens
    (h : Calms act act') :
    Softens act act' := by
  intro w
  have hw := h w
  cases hrun : act w with
  | mk result w' =>
      rw [hrun] at hw
      cases result with
      | ok a =>
          exact Or.inl hw
      | error f =>
          cases f with
          | panicked m =>
              obtain ⟨text, hw⟩ := hw
              exact Or.inr ⟨_, w', rfl, m, text, rfl, hw⟩
          | _ =>
              exact Or.inl hw

theorem Softens.trans
    (h : Softens act act')
    (h' : Softens act' act'') :
    Softens act act'' := by
  intro w
  rcases h w with heq | ⟨_, w', hpanic, m, text, rfl, hfail⟩
  · have hw := h' w
    rw [heq] at hw
    exact hw
  · rcases h' w with heq | ⟨_, w'', hpanic', m', text', rfl, -⟩
    · exact Or.inr ⟨_, w', hpanic, m, text, rfl, heq.trans hfail⟩
    · rw [hfail] at hpanic'
      cases hpanic'

/-- Under a guard, a panic and the failure in its place come to the same. -/
theorem Softens.guarded
    (h : Softens act act')
    (what : String)
    (w : World) :
    SameEnding (Action.guarded what act w).1 (Action.guarded what act' w).1 ∧
      (Action.guarded what act' w).2 = (Action.guarded what act w).2 := by
  rw [Action.guarded, Action.guarded, tryCatch_run, tryCatch_run]
  rcases h w with heq | ⟨_, w', hpanic, m, text, rfl, hfail⟩
  · rw [heq]
    exact ⟨.same _, rfl⟩
  · rw [hpanic, hfail]
    exact ⟨.failed _ text, rfl⟩

end Actions

end CellBridge
