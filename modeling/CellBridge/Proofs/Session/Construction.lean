import CellBridge.Proofs.Session.Overflow

/-!
# What a construction answers

A constructor goes through the same attempts as any other method, and its result is converted to a
handle.  There is one way around the handle: a body that gives nothing, and then the answer is a
blank.  `runMember_object_answers` says that this is the only one, for every call whose result is
wanted as an object.  `construct_answers` is the case of constructors, and `construct_nothing` shows
that blanks do come back.
-/

namespace CellBridge

section Defs

/-- The object stands for the absence of a value, and carries no handle. -/
def World.IsNothing
    (w : World)
    (o : Object) : Prop :=
  o.type = .void ∧ Reference.carriedHandle? (w.store.payload o) = none

/-- The body gives an object that stands for nothing. -/
def BodyRun.GivesNothing
    (run : BodyRun) : Prop :=
  ∃ o w, run.result = (.ok o, w) ∧ w.IsNothing o

end Defs

section Results

/-- As an object, a result is a handle, or a blank if it is nothing. -/
theorem Candidate.convertResult_object_run
    (c : Catalog)
    (cand : Candidate)
    (o : Object)
    (w : World) :
    ∃ v w', cand.convertResult c .object o w = (.ok v, w') ∧
      (v = .empty ∧ w.IsNothing o ∨ (∃ h, v = .handle h) ∧ ¬ w.IsNothing o) := by
  rw [convertResult, bind_run_ok (Action.payload_run o w), ← Reference.carriedHandle?]
  cases hcarried : Reference.carriedHandle? (w.store.payload o) with
  | some h =>
      refine ⟨.handle h, w, rfl, Or.inr ⟨⟨h, rfl⟩, ?_⟩⟩
      rintro ⟨-, hnone⟩
      rw [hcarried] at hnone
      cases hnone
  | none =>
      obtain ⟨t, id⟩ := o
      cases t with
      | void =>
          exact ⟨.empty, w, rfl, Or.inl ⟨rfl, rfl, hcarried⟩⟩
      | _ =>
          refine ⟨_, _, rfl, Or.inr ⟨⟨_, rfl⟩, ?_⟩⟩
          rintro ⟨hvoid, -⟩
          cases hvoid

end Results

namespace Bridge

variable {b : Bridge} {s : Session}

section Calls

/-- What an attempt gives as an object is a handle, or a blank if its body gives nothing. -/
theorem attempt_object_run
    {c : Catalog}
    {receiver : Option Object}
    {args : List Value}
    {cand : Candidate}
    {w w' : World}
    {v : Value}
    (h : cand.attempt c receiver args .object w = (.ok v, w')) :
    ∃ run, cand.bodyRun? c receiver args w = some run ∧
      (v = .empty ∧ run.GivesNothing ∨ ∃ handle, v = .handle handle) := by
  obtain ⟨run, o, w₁, hrun, hresult, hconvert⟩ := Candidate.attempt_run_ok.1 h
  obtain ⟨v', w₂, hconvert', hv⟩ := Candidate.convertResult_object_run c cand o w₁
  cases hconvert.symm.trans hconvert'
  refine ⟨run, hrun, ?_⟩
  rcases hv with ⟨rfl, hnothing⟩ | ⟨hhandle, -⟩
  · exact Or.inl ⟨rfl, o, w₁, hresult, hnothing⟩
  · exact Or.inr hhandle

/-- An attempt whose body gives nothing gives a blank. -/
theorem attempt_object_of_givesNothing
    {c : Catalog}
    {receiver : Option Object}
    {args : List Value}
    {cand : Candidate}
    {w : World}
    {run : BodyRun}
    (hrun : cand.bodyRun? c receiver args w = some run)
    (hnothing : run.GivesNothing) :
    ∃ w', cand.attempt c receiver args .object w = (.ok .empty, w') := by
  obtain ⟨o, w₁, hresult, ho⟩ := hnothing
  obtain ⟨v, w₂, hconvert, hv⟩ := Candidate.convertResult_object_run c cand o w₁
  rcases hv with ⟨rfl, -⟩ | ⟨-, hsome⟩
  · exact ⟨w₂, Candidate.attempt_run_ok.2 ⟨run, o, w₁, hrun, hresult, hconvert⟩⟩
  · exact absurd ho hsome

/-- What a call gives as an object is a handle, or a blank if one of its bodies gives nothing. -/
theorem runMember_object_ok
    {m : MemberCall}
    (hmode : m.mode = .object)
    {v : Value}
    (h : (b.runMember m s).1 = .ok v) :
    v = .empty ∧ (∃ run ∈ b.memberRuns m s, run.GivesNothing) ∨ ∃ handle, v = .handle handle := by
  obtain ⟨a, ha, w, hattempt⟩ := runMember_ok.1 h
  rw [hmode] at hattempt
  obtain ⟨run, hrun, ⟨rfl, hnothing⟩ | hhandle⟩ := attempt_object_run hattempt
  · exact Or.inl ⟨rfl, run, mem_memberRuns.2 ⟨a, ha, hrun⟩, hnothing⟩
  · exact Or.inr hhandle

/-- A call gives a blank as an object if one of its bodies gives nothing. -/
theorem runMember_of_givesNothing
    {m : MemberCall}
    (hmode : m.mode = .object)
    {run : BodyRun}
    (hrun : run ∈ b.memberRuns m s)
    (hnothing : run.GivesNothing) :
    (b.runMember m s).1 = .ok .empty := by
  obtain ⟨a, ha, hrun⟩ := mem_memberRuns.1 hrun
  obtain ⟨w, hattempt⟩ := attempt_object_of_givesNothing hrun hnothing
  rw [← hmode] at hattempt
  exact runMember_ok.2 ⟨a, ha, w, hattempt⟩

/-- A construction of a known type is the call of its constructors. -/
theorem construct_run
    {type : String}
    {args : List Value}
    {m : MemberCall}
    (hcall : b.memberCall? s.world (.construct type args) = some m) :
    (b.construct type args s).1 = ((b.runMember m).absorb s).1 := by
  exact Answer.value.inj (congrArg Prod.fst (perform_memberCall hcall))

/-- The answer to a call whose result is wanted as an object. -/
theorem runMember_object_answers
    {m : MemberCall}
    (hmode : m.mode = .object)
    (s : Session) :
    (b.LookupOverflows m.request s ∧ ((b.runMember m).absorb s).1 = .error .overflow) ∨
      ((b.runMember m).absorb s).1 = .error .diverged ∨
      ∃ v, ((b.runMember m).absorb s).1 = .ok v ∧
        ((∃ h, v = .handle h) ∨ (∃ e, v = .error e) ∨ v = .empty) ∧
        (v = .empty ↔ ∃ run ∈ b.memberRuns m s, run.GivesNothing) := by
  have hblank : (∃ run ∈ b.memberRuns m s, run.GivesNothing) →
      (b.runMember m s).1 = .ok .empty := by
    rintro ⟨run, hrun, hnothing⟩
    exact runMember_of_givesNothing hmode hrun hnothing
  have hpanic := @runMember_panicked_iff b s m
  rw [absorb_run]
  cases hrun : b.runMember m s with
  | mk result s' =>
      rw [hrun] at hblank hpanic
      cases result with
      | ok v =>
          refine Or.inr (Or.inr ⟨v, rfl, ?_⟩)
          rcases runMember_object_ok hmode (congrArg Prod.fst hrun) with
            ⟨rfl, hnothing⟩ | ⟨h, rfl⟩
          · exact ⟨Or.inr (Or.inr rfl), iff_of_true rfl hnothing⟩
          · refine ⟨Or.inl ⟨h, rfl⟩, iff_of_false (fun heq => by cases heq) ?_⟩
            intro hnothing
            cases hblank hnothing
      | error f =>
          cases f with
          | failed e =>
              refine Or.inr (Or.inr ⟨_, rfl, Or.inr (Or.inl ⟨_, rfl⟩),
                iff_of_false (fun heq => by cases heq) ?_⟩)
              intro hnothing
              cases hblank hnothing
          | panicked message =>
              obtain ⟨hmessage, hover⟩ := hpanic.1 rfl
              exact Or.inl ⟨hover, congrArg Except.error hmessage⟩
          | diverged =>
              exact Or.inr (Or.inl rfl)

/-- The answer to a construction is a handle or an error, or it is a blank.  It is a blank exactly
if one of the bodies gives nothing.  There is no answer if a sum overflows, or something on the way
never ends. -/
theorem construct_answers
    (b : Bridge)
    (type : String)
    (args : List Value)
    (s : Session) :
    (b.Overflows (.construct type args) s ∧ (b.construct type args s).1 = .error .overflow) ∨
      (b.construct type args s).1 = .error .diverged ∨
      ∃ v, (b.construct type args s).1 = .ok v ∧
        ((∃ h, v = .handle h) ∨ (∃ e, v = .error e) ∨ v = .empty) ∧
        (v = .empty ↔ ∃ run ∈ b.bodyRuns (.construct type args) s, run.GivesNothing) := by
  cases hcall : b.memberCall? s.world (.construct type args) with
  | none =>
      have hargs : (HostCall.construct type args).args? = some args := rfl
      obtain ⟨e, hunknown⟩ := perform_unknown hargs hcall
      have hresult : (b.construct type args s).1 = .ok (.error e) :=
        Answer.value.inj (congrArg Prod.fst hunknown)
      refine Or.inr (Or.inr ⟨_, hresult, Or.inr (Or.inl ⟨e, rfl⟩),
        iff_of_false (fun h => by cases h) ?_⟩)
      rintro ⟨run, hrun, -⟩
      obtain ⟨m, hm, -⟩ := mem_bodyRuns.1 hrun
      cases hcall.symm.trans hm
  | some m =>
      have hmode : m.mode = .object := (namedCall?_eq_some hcall).2.2.2
      have hruns : b.bodyRuns (.construct type args) s = b.memberRuns m s := by
        rw [bodyRuns, hcall]
      rw [construct_run hcall, hruns, overflows_iff hcall]
      exact runMember_object_answers hmode s

/-- A class whose constructor gives nothing: its construction is answered by a blank. -/
theorem construct_nothing :
    let point : ManagedClass := .root "Point"
    let nothing : Method := .constructor [] fun _ _ => Action.create .void .unit
    let b := ((Bridge.empty {}).withStandardRules).withClass
      ((ClassDescriptor.ofType (.object point)).withConstructor nothing)
    (b.construct "Point" [] (b.newSession 1 .empty)).1 = .ok .empty := by
  intro point nothing b
  let s := b.newSession 1 .empty
  let m : MemberCall :=
    { type := .object point, member := constructorName, receiver := none, args := [],
      mode := .object }
  have hres : b.resolved m.request = .ok _ :=
    resolve_sorted rfl rfl rfl (List.pairwise_singleton _ _)
  have hattempt := mem_memberAttempts_first (m := m) (lookup_new (s := s) rfl rfl hres)
  have hrun : ∃ run ∈ b.memberRuns m s, run.GivesNothing :=
    ⟨_, mem_memberRuns.2 ⟨_, hattempt, rfl⟩, _, _, rfl, rfl, rfl⟩
  obtain ⟨run, hmem, hnothing⟩ := hrun
  have hcall : b.memberCall? s.world (.construct "Point" []) = some m := rfl
  rw [construct_run hcall]
  exact absorb_ok (runMember_of_givesNothing rfl hmem hnothing)

end Calls

end Bridge

end CellBridge
