import CellBridge.Proofs.Call.Attempts
import CellBridge.Proofs.Call.TameCalls
import CellBridge.Proofs.Conversion.StaleHandles

/-!
# Reading arguments adds payloads at most

Rules that read type-soundly leave the heap and all payloads as they are, whether they succeed or
fail, and so does the conversion of arguments as a whole: `Candidate.Routed.ends_convertArguments`.

An attempt whose arguments cannot be converted ends there.  If this happens to every attempt of a
call, the call fails, and the world has new payloads at most: `invokeMember_run_of_unconverted`.
-/

namespace CellBridge

section Defs

/-- The candidate has for each argument the rule that the catalog finds. -/
def Candidate.Routed
    (c : Catalog)
    (args : List Value)
    (cand : Candidate) : Prop :=
  List.Forall₂ (fun v route => c.findByShape? v.shape route.1 = some route.2) args
    (cand.targets.zip cand.rules)

end Defs

variable {c : Catalog} {args : List Value} {w : World}

/-- Creating an object adds a payload. -/
theorem ends_create
    (t : Ty)
    (p : Payload) :
    Ends World.Adds (Action.create t p) w fun _ _ => True := by
  exact Ends.of_run (Action.create_run t p w) ⟨rfl, Store.extends_alloc t p⟩ trivial

namespace Candidate

section Arguments

/-- Arguments are read one after the other, each by its rule. -/
theorem ends_readArguments
    (hc : ∀ r ∈ c.rules, r.ReadsTyped)
    {routes : List (Ty × Rule)}
    (hroutes : List.Forall₂ (fun v route => c.findByShape? v.shape route.1 = some route.2) args
      routes) :
    Ends World.Adds (readArguments c (args.zip routes)) w fun _ _ => True := by
  induction hroutes generalizing w with
  | nil =>
      exact Ends.pure (.refl w) trivial
  | @cons v route args routes hrule hrest ih =>
      refine (Catalog.ends_readTyped hc hrule (w.supplies_true v)).bind ?_
      intro o w₁ _ _
      refine ih.bind ?_
      intro os w₂ _ _
      exact Ends.pure (.refl w₂) trivial

/-- At most an array for the further arguments is created. -/
theorem ends_packArguments
    (m : Method)
    (os : List Object) :
    Ends World.Adds (packArguments m os) w fun _ _ => True := by
  rw [packArguments]
  split
  · exact Ends.pure (.refl w) trivial
  · rename_i e _
    split
    · exact Ends.panic _ (.refl w)
    · have hpacked : Ends World.Adds (Action.createArray e (os.drop m.fixed.length)) w
          fun _ _ => True :=
        ends_create (.array e) _
      refine hpacked.bind ?_
      intro packed w₁ _ _
      exact Ends.pure (.refl w₁) trivial

theorem Routed.ends_convertArguments
    (hc : ∀ r ∈ c.rules, r.ReadsTyped)
    {cand : Candidate}
    (hcand : cand.Routed c args) :
    Ends World.Adds (cand.convertArguments c args) w fun _ _ => True := by
  refine (ends_readArguments hc hcand).bind ?_
  intro os w₁ _ _
  exact ends_packArguments cand.method os

end Arguments

section Attempts

variable {receiver : Option Object} {mode : ResultMode}

/-- An attempt that comes to no body fails, with new payloads at most. -/
theorem Routed.refuses_attempt
    (hc : ∀ r ∈ c.rules, r.ReadsTyped)
    {cand : Candidate}
    (hcand : cand.Routed c args)
    (hnone : cand.bodyRun? c receiver args w = none) :
    (cand.attempt c receiver args mode).Refuses w := by
  have hconvert := hcand.ends_convertArguments (w := w) hc
  have hrefuses : (cand.convertArguments c args).Refuses w := by
    refine ⟨hconvert.halts, hconvert.leads, fun os hos => ?_⟩
    rw [bodyRun?, ← Prod.eta (cand.convertArguments c args w), hos] at hnone
    cases hnone
  refine Ends.guarded _ ?_ fun w' _ => .refl w'
  exact hrefuses.bind fun _ _ _ hno => hno.elim

/-- Attempts that come to no body add payloads at most. -/
theorem ends_attemptAll_of_unconverted
    (hc : ∀ r ∈ c.rules, r.ReadsTyped)
    {cands : List Candidate}
    (hcands : ∀ cand ∈ cands, cand.Routed c args)
    (hnone : ∀ a ∈ attempts c receiver args mode cands w,
      a.candidate.bodyRun? c receiver args a.start = none) :
    Ends World.Adds (attemptAll c receiver args mode cands) w fun _ _ => True := by
  induction cands generalizing w with
  | nil =>
      exact Ends.pure (.refl w) trivial
  | cons cand cands ih =>
      have hfirst : (cand.attempt c receiver args mode).Refuses w :=
        (hcands cand List.mem_cons_self).refuses_attempt hc
          (hnone ⟨cand, w⟩ List.mem_cons_self)
      rw [attempts] at hnone
      cases hattempt : cand.attempt c receiver args mode w with
      | mk result w₁ =>
          have hleads := hfirst.leads
          have hrun : attemptAll c receiver args mode (cand :: cands) w = _ :=
            attemptAll_cons_run cand cands w
          rw [hattempt] at hrun hnone hleads
          cases result with
          | ok v =>
              exact (hfirst.gives v (congrArg Prod.fst hattempt)).elim
          | error f =>
              dsimp only at hrun hnone hleads
              split at hrun
              case isTrue hpasses =>
                rw [if_pos hpasses] at hnone
                have hrest := ih (w := w₁) (fun x hx => hcands x (List.mem_cons_of_mem cand hx))
                  fun a ha => hnone a (List.mem_cons_of_mem _ ha)
                exact Ends.of_eq hrun hrest fun w₂ hw₂ => trans_of World.Adds hleads hw₂
              case isFalse =>
                refine Ends.of_error hrun ?_ hleads
                rintro rfl
                exact hfirst.halts (congrArg Prod.fst hattempt)

end Attempts

end Candidate

/-- A call of a member that comes to no body fails, with new payloads at most. -/
theorem invokeMember_run_of_unconverted
    (hc : ∀ r ∈ c.rules, r.ReadsTyped)
    {cands : List Candidate}
    (hcands : ∀ cand ∈ cands, cand.Routed c args)
    {receiver : Option Object}
    {mode : ResultMode}
    (hnone : ∀ a ∈ Candidate.attempts c receiver args mode cands w,
      a.candidate.bodyRun? c receiver args a.start = none)
    (t : Ty)
    (member : String) :
    ∃ e w', invokeMember c t member receiver args mode cands w = (.error (.failed e), w') ∧
      w.Adds w' := by
  have hends := ends_invokeMember_of t member receiver args mode cands
    (Candidate.ends_attemptAll_of_unconverted hc hcands hnone) fun w' _ => .refl w'
  have hcalm := invokeMember_ne_panicked (c := c) t member receiver args mode cands w
  cases hrun : invokeMember c t member receiver args mode cands w with
  | mk result w' =>
      have hleads := hends.leads
      have hhalts := hends.halts
      rw [hrun] at hcalm hleads hhalts
      cases result with
      | ok value =>
          obtain ⟨a, ha, hattempt⟩ := invokeMember_run_ok.1 hrun
          obtain ⟨run, -, -, hbody, -⟩ := Candidate.attempt_run_ok.1 hattempt
          cases hbody.symm.trans (hnone a ha)
      | error f =>
          cases f with
          | failed e =>
              exact ⟨e, w', rfl, hleads⟩
          | panicked m =>
              exact absurd rfl (hcalm m)
          | diverged =>
              exact absurd rfl hhalts

end CellBridge
