import CellBridge.Proofs.Call.Results
import CellBridge.Proofs.Conversion.CatalogOrder
import CellBridge.Proofs.Conversion.StandardRules

/-!
# Which rule renders an object

Among rules that take the objects of their type, the bridge and the simplest form of results render
an object by the first registered of those rules of the highest priority that take its type.  How
narrow the types of the rules are does not count: `Bridge.wideThenNarrow` has a rule for any object
ahead of one for doubles, and renders doubles by the former.

Narrow types are served by registering their rules first.  If no rule is registered ahead of one of
its own priority for a proper subtype, the rule that renders an object is also the narrowest of its
priority, in the sense that none of the others is for a proper subtype of its type.  The standard
rules stand with the narrow types first.
-/

namespace CellBridge

section Defs

/-- Is the second type a proper subtype of the first? -/
def Ty.Above
    (a b : Ty) : Prop :=
  a.accepts b = true ∧ (a == b) = false

instance
    (a b : Ty) : Decidable (a.Above b) :=
  inferInstanceAs (Decidable (_ ∧ _))

/-- Does the rule take the objects that fit its type, and no others? -/
def Rule.TakesItsType
    (r : Rule) : Prop :=
  ∀ t, r.canConvert t = r.type.accepts t

namespace Catalog

/-- Is no rule registered ahead of one of its own priority for a proper subtype? -/
def NarrowFirst
    (rs : List Rule) : Prop :=
  rs.Pairwise fun a b => a.priority = b.priority → ¬ a.type.Above b.type

/-- The rule that renders objects of a type: its type accepts theirs, no other rule that does is of
higher priority, and none of those registered ahead of it is of the same priority. -/
structure Renders
    (rs : List Rule)
    (t : Ty)
    (r : Rule) : Prop where
  registered : r ∈ rs
  accepts : r.type.accepts t = true
  highest : ∀ x ∈ rs, x.type.accepts t = true → x.priority ≤ r.priority
  first : ∃ before after, rs = before ++ r :: after ∧
    ∀ x ∈ before, x.type.accepts t = true → x.priority < r.priority

end Catalog

end Defs

namespace Catalog

variable {rs : List Rule} {t : Ty}

section Lookup

/-- The lookup by type finds the rule that renders, if there is one. -/
theorem findByType?_ofRules
    (hrs : ∀ r ∈ rs, r.TakesItsType)
    (t : Ty) :
    match (ofRules rs).findByType? t with
    | some r => Renders rs t r
    | none => ∀ r ∈ rs, r.type.accepts t = false := by
  have hchosen : Chosen (·.canConvert t) rs ((ofRules rs).findByType? t) := chosen_find? _ rs
  cases hfind : (ofRules rs).findByType? t with
  | none =>
      rw [hfind] at hchosen
      intro r hr
      rw [← hrs r hr t]
      exact hchosen r hr
  | some r =>
      rw [hfind] at hchosen
      obtain ⟨before, after, rfl, htakes, hbefore, hafter⟩ := hchosen
      have hmem : r ∈ before ++ r :: after := by simp
      refine ⟨hmem, ?_, ?_, before, after, rfl, ?_⟩
      · rw [← hrs r hmem t]
        exact htakes
      · intro x hx haccepts
        rw [← hrs x hx t] at haccepts
        rcases List.mem_append.1 hx with hahead | hrest
        · exact Int32.le_of_lt (hbefore x hahead haccepts)
        · rcases List.mem_cons.1 hrest with rfl | hbehind
          · exact Int32.le_refl _
          · exact hafter x hbehind haccepts
      · intro x hx haccepts
        exact hbefore x hx ((hrs x (List.mem_append_left _ hx) t).trans haccepts)

end Lookup

section Narrowness

/-- A type is not below itself. -/
theorem not_above_self
    (t : Ty) :
    ¬ t.Above t := by
  rintro ⟨-, hne⟩
  rw [Ty.beq_self] at hne
  cases hne

/-- Where narrow types are registered first, the rule that renders is the narrowest of its
priority. -/
theorem Renders.narrowest
    {r : Rule}
    (h : Renders rs t r)
    (hnarrow : NarrowFirst rs)
    {x : Rule}
    (hx : x ∈ rs)
    (haccepts : x.type.accepts t = true)
    (hpriority : x.priority = r.priority) :
    ¬ r.type.Above x.type := by
  obtain ⟨before, after, rfl, hfirst⟩ := h.first
  rcases List.mem_append.1 hx with hahead | hrest
  · exact absurd hpriority (Int32.ne_of_lt (hfirst x hahead haccepts))
  · rcases List.mem_cons.1 hrest with rfl | hbehind
    · exact not_above_self x.type
    · have htail := (List.pairwise_append.1 hnarrow).2.1
      exact (List.pairwise_cons.1 htail).1 x hbehind hpriority.symm

end Narrowness

section Standard

/-- The standard rules take the objects of their types. -/
theorem takesItsType_of_standard
    {r : Rule}
    (hr : r ∈ standardRules) :
    r.TakesItsType := by
  exact forall_standardRules (fun _ _ _ _ _ => rfl) (fun _ => rfl) (fun _ => rfl) (fun _ => rfl)
    (fun _ => rfl) (fun _ => rfl) (fun _ => rfl) (fun _ => rfl) r hr

/-- The standard rules stand with the narrow types first. -/
theorem narrowFirst_standard :
    NarrowFirst standardRules := by
  unfold NarrowFirst
  decide

end Standard

end Catalog

namespace Bridge

variable {rs : List Rule} {b : Bridge}

/-- Among rules that take the objects of their types, an object that has a value is rendered by the
one that `Catalog.Renders` describes: by the bridge under the name of the rule, and as the simplest
form of a result, if it carries no handle, by the rule as it is.  Where narrow types are registered
first, no rule of the same priority that takes the object is for a proper subtype.  If no rule takes
the object, the bridge fails, and a result is left to the rule for the declared type. -/
theorem rendering_rule
    (hrs : ∀ r ∈ rs, r.TakesItsType)
    {room : Nat}
    (hb : b.catalog = (Catalog.ofRules rs).withRoom room)
    {o : Object}
    (hvalue : o.type ≠ .void)
    (w : World) :
    (∃ r, Catalog.Renders rs o.type r ∧
      (Catalog.NarrowFirst rs → ∀ x ∈ rs, x.type.accepts o.type = true →
        x.priority = r.priority → ¬ r.type.Above x.type) ∧
      b.toCell o w = Action.guarded r.name (b.catalog.write r o) w ∧
      ∀ cand : Candidate, Reference.carriedHandle? (w.store.payload o) = none →
        cand.convertResult b.catalog .simplest o w = b.catalog.write r o w) ∨
    (∀ r ∈ rs, r.type.accepts o.type = false) ∧
      b.toCell o w = (.error (.failed (.noReturnConverter o.type.display)), w) ∧
      ∀ cand : Candidate, Reference.carriedHandle? (w.store.payload o) = none →
        cand.convertResult b.catalog .simplest o w = (do
          let rule ← Action.orFail (.noReturnConverter o.type.display) cand.returnRule
          b.catalog.write rule o) w := by
  have hlookup : match b.catalog.findByType? o.type with
      | some r => Catalog.Renders rs o.type r
      | none => ∀ r ∈ rs, r.type.accepts o.type = false := by
    rw [hb]
    exact Catalog.findByType?_ofRules hrs o.type
  cases hfind : b.catalog.findByType? o.type with
  | some r =>
      rw [hfind] at hlookup
      refine Or.inl ⟨r, hlookup, fun hnarrow x => hlookup.narrowest hnarrow,
        toCell_run_guarded hvalue hfind w, fun cand hcarried => ?_⟩
      rw [Candidate.convertResult_run_of_value _ _ hcarried hvalue, hfind, Option.some_or,
        bind_run_ok (Action.orFail_some_run _ r w)]
  | none =>
      rw [hfind] at hlookup
      refine Or.inr ⟨hlookup, toCell_run_unruled hvalue hfind w, fun cand hcarried => ?_⟩
      rw [Candidate.convertResult_run_of_value _ _ hcarried hvalue, hfind, Option.none_or]

section Witness

/-! A nested array, which the rules for nested arrays, for arrays and for any object all take. -/

/-- Of the three standard rules that take a nested array, the one for nested arrays renders it. -/
theorem rendering_rule_nested_array :
    let b := (Bridge.empty {}).withStandardRules
    let o : Object := ⟨.array (.array .int), 0⟩
    let w := (b.newSession 0 ⟨#[.array []]⟩).world
    ∃ r, Catalog.Renders standardRules o.type r ∧
      (∀ x ∈ standardRules, x.type.accepts o.type = true → x.priority = r.priority →
        ¬ r.type.Above x.type) ∧
      b.toCell o w = Action.guarded r.name (b.catalog.write r o) w ∧
      ∀ cand : Candidate,
        cand.convertResult b.catalog .simplest o w = b.catalog.write r o w := by
  intro b o w
  have hrules : ∀ r ∈ standardRules, r.TakesItsType := fun r => Catalog.takesItsType_of_standard
  rcases rendering_rule (b := b) (o := o) hrules rfl Ty.noConfusion w with
    ⟨r, hrenders, hnarrowest, hcell, hresult⟩ | ⟨hnone, -⟩
  · exact ⟨r, hrenders, hnarrowest Catalog.narrowFirst_standard, hcell,
      fun cand => hresult cand rfl⟩
  · have hjagged := hnone Sequence.jagged (by simp [standardRules])
    cases hjagged

end Witness

section WideFirst

/-! Two rules of one priority that write a label, the one for any object ahead of the one for
doubles. -/

/-- A rule that writes its own name for every object of a type. -/
def labelRule
    (name : String)
    (type : Ty) : Rule :=
  Rule.ofType name .number type Priority.standard (fun _ _ => return .text name)
    (fun _ _ _ => Action.fail (.conversion "labels are not read"))

/-- The rule for any object ahead of the one for doubles. -/
def wideThenNarrow : List Rule :=
  [labelRule "wide" .any, labelRule "narrow" .double]

/-- The rule for any object renders a double, though the rule for doubles takes it too, has the same
priority and is for a proper subtype. -/
theorem wide_rule_renders_double :
    let b : Bridge := { Bridge.empty {} with catalog := Catalog.ofRules wideThenNarrow }
    let o : Object := ⟨.double, 0⟩
    let w := (b.newSession 0 ⟨#[.double (.ofInt 1)]⟩).world
    (∀ r ∈ wideThenNarrow, r.TakesItsType) ∧
      b.catalog.findByType? o.type = some (labelRule "wide" .any) ∧
      b.toCell o w = (.ok (.text "wide"), w) ∧
      (∀ cand : Candidate,
        cand.convertResult b.catalog .simplest o w = (.ok (.text "wide"), w)) ∧
      ¬ ∀ x ∈ wideThenNarrow, x.type.accepts o.type = true →
        x.priority = (labelRule "wide" .any).priority →
          ¬ (labelRule "wide" .any).type.Above x.type := by
  intro b o w
  refine ⟨?_, rfl, rfl, fun cand => rfl, fun hnarrowest => ?_⟩
  · simp only [wideThenNarrow, List.forall_mem_cons]
    exact ⟨fun t => rfl, fun t => rfl, List.forall_mem_nil _⟩
  · refine hnarrowest (labelRule "narrow" .double) ?_ rfl rfl ⟨rfl, rfl⟩
    exact List.mem_cons_of_mem _ List.mem_cons_self

end WideFirst

end Bridge

end CellBridge
