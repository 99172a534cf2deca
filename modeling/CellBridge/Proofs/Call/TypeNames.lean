import CellBridge.Call.Registry
import CellBridge.Proofs.Heap.TableKeys

/-!
# What type names mean

Classes are registered one after the other, and their names and aliases may repeat or coincide in
any way.  What a name then means is said by the classes alone, without the two tables of the
registry: the last class of the name, or else the last class of the name that the last class with
this alias has (`Registry.Means`).

One registration answers for its own name and its own aliases and leaves all other answers as they
were (`named?_register`, `get?_aliases_register`), so after many of them it is the last class that
answers.
-/

namespace CellBridge

section Defs

/-- The last element of the list that has the property. -/
def LastWith
    {α : Type}
    (p : α → Prop)
    (l : List α)
    (a : α) : Prop :=
  ∃ earlier later, l = earlier ++ a :: later ∧ p a ∧ ∀ x ∈ later, ¬ p x

namespace Registry

/-- The registry after the classes were registered one after the other. -/
def ofClasses
    (ds : List ClassDescriptor) : Registry :=
  ds.foldl register empty

/-- What a name means after the classes were registered. -/
inductive Means
    (ds : List ClassDescriptor)
    (s : String) : Option ClassDescriptor → Prop
  | name
      {d : ClassDescriptor}
      (hname : LastWith (fun x => x.name = s) ds d) :
      Means ds s (some d)
  | standsFor
      {d c : ClassDescriptor}
      (hname : ∀ x ∈ ds, x.name ≠ s)
      (halias : LastWith (fun x => s ∈ x.aliases) ds d)
      (hclass : LastWith (fun x => x.name = d.name) ds c) :
      Means ds s (some c)
  | nothing
      (hname : ∀ x ∈ ds, x.name ≠ s)
      (halias : ∀ x ∈ ds, s ∉ x.aliases) :
      Means ds s none

end Registry

end Defs

section Last

variable {α : Type} {p : α → Prop} [DecidablePred p] {l : List α} {a : α}

/-- The last element with a property is the first one from behind. -/
theorem lastWith_iff :
    LastWith p l a ↔ l.reverse.find? (fun x => decide (p x)) = some a := by
  rw [List.find?_eq_some_iff_append, decide_eq_true_iff]
  constructor
  · rintro ⟨earlier, later, rfl, hp, hlater⟩
    refine ⟨hp, later.reverse, earlier.reverse, by simp, ?_⟩
    intro x hx
    simpa using hlater x (List.mem_reverse.1 hx)
  · rintro ⟨hp, later, earlier, hl, hlater⟩
    refine ⟨earlier.reverse, later.reverse, ?_, hp, ?_⟩
    · rw [← List.reverse_reverse l, hl]
      simp
    · intro x hx
      simpa using hlater x (List.mem_reverse.1 hx)

end Last

namespace Registry

section Step

variable {r : Registry} {d : ClassDescriptor} {s : String}

theorem named?_register :
    (r.register d).named? s = if d.name = s then some d else r.named? s := by
  exact Table.get?_insert r.classes d.name s d

theorem get?_aliases_register :
    (r.register d).aliases.get? s = if s ∈ d.aliases then some d.name else r.aliases.get? s := by
  exact Table.get?_foldl_insert d.aliases d.name r.aliases s

end Step

section Run

variable (ds : List ClassDescriptor) (s : String)

theorem ofClasses_append_singleton
    (d : ClassDescriptor) :
    ofClasses (ds ++ [d]) = (ofClasses ds).register d := by
  exact List.foldl_append

/-- The last class of a name answers to it. -/
theorem named?_ofClasses :
    (ofClasses ds).named? s = ds.reverse.find? fun x => decide (x.name = s) := by
  induction ds using List.reverseRecOn with
  | nil =>
      rfl
  | append_singleton ds d ih =>
      rw [ofClasses_append_singleton, named?_register, ih, List.reverse_append]
      by_cases hname : d.name = s <;> simp [hname]

/-- An alias stands for the name of the last class that lists it. -/
theorem get?_aliases_ofClasses :
    (ofClasses ds).aliases.get? s =
      (ds.reverse.find? fun x => decide (s ∈ x.aliases)).map ClassDescriptor.name := by
  induction ds using List.reverseRecOn with
  | nil =>
      rfl
  | append_singleton ds d ih =>
      rw [ofClasses_append_singleton, get?_aliases_register, ih, List.reverse_append]
      by_cases halias : s ∈ d.aliases <;> simp [halias]

theorem distinct_classes_ofClasses :
    (ofClasses ds).classes.Distinct := by
  induction ds using List.reverseRecOn with
  | nil =>
      exact Table.distinct_empty
  | append_singleton ds d ih =>
      rw [ofClasses_append_singleton]
      exact ih.insert d.name d

end Run

section Meaning

variable {ds : List ClassDescriptor} {s : String}

theorem named?_eq_some_iff
    {d : ClassDescriptor} :
    (ofClasses ds).named? s = some d ↔ LastWith (fun x => x.name = s) ds d := by
  rw [named?_ofClasses, lastWith_iff]

theorem named?_eq_none_iff :
    (ofClasses ds).named? s = none ↔ ∀ x ∈ ds, x.name ≠ s := by
  simp [named?_ofClasses]

theorem get?_aliases_eq_some_iff
    {name : String} :
    (ofClasses ds).aliases.get? s = some name ↔
      ∃ d, LastWith (fun x => s ∈ x.aliases) ds d ∧ d.name = name := by
  simp only [get?_aliases_ofClasses, Option.map_eq_some_iff, lastWith_iff]

theorem get?_aliases_eq_none_iff :
    (ofClasses ds).aliases.get? s = none ↔ ∀ x ∈ ds, s ∉ x.aliases := by
  simp [get?_aliases_ofClasses]

/-- A name is found with its meaning. -/
theorem lookup?_of_means
    {o : Option ClassDescriptor}
    (h : Means ds s o) :
    (ofClasses ds).lookup? s = o := by
  cases h with
  | name hname =>
      rw [lookup?, named?_eq_some_iff.2 hname]
      rfl
  | @standsFor d c hname halias hclass =>
      rw [lookup?, named?_eq_none_iff.2 hname, get?_aliases_eq_some_iff.2 ⟨d, halias, rfl⟩]
      exact named?_eq_some_iff.2 hclass
  | nothing hname halias =>
      rw [lookup?, named?_eq_none_iff.2 hname, get?_aliases_eq_none_iff.2 halias]
      rfl

/-- Every name means something: a class or nothing. -/
theorem exists_means
    (ds : List ClassDescriptor)
    (s : String) :
    ∃ o, Means ds s o := by
  cases hnamed : (ofClasses ds).named? s with
  | some d =>
      exact ⟨some d, .name (named?_eq_some_iff.1 hnamed)⟩
  | none =>
      have hname := named?_eq_none_iff.1 hnamed
      cases haliased : (ofClasses ds).aliases.get? s with
      | none =>
          exact ⟨none, .nothing hname (get?_aliases_eq_none_iff.1 haliased)⟩
      | some name =>
          obtain ⟨d, halias, -⟩ := get?_aliases_eq_some_iff.1 haliased
          -- the class with the alias is registered itself, so its name has a last class
          cases hclass : (ofClasses ds).named? d.name with
          | some c =>
              exact ⟨some c, .standsFor hname halias (named?_eq_some_iff.1 hclass)⟩
          | none =>
              obtain ⟨earlier, later, rfl, -⟩ := halias
              exact absurd rfl (named?_eq_none_iff.1 hclass d (by simp))

/-- The names that are registered. -/
theorem keys_classes_ofClasses
    (ds : List ClassDescriptor) :
    (ofClasses ds).classes.keys.toFinset = (ds.map ClassDescriptor.name).toFinset := by
  ext s
  rw [List.mem_toFinset, List.mem_toFinset, Table.mem_keys_iff, Table.contains]
  show ((ofClasses ds).named? s).isSome = true ↔ _
  rw [named?_ofClasses, List.find?_isSome]
  simp

/-- After any registrations a name is found with its meaning, a type with the last class of its key,
and the size is the number of different names. -/
theorem lookup_after_registrations
    (ds : List ClassDescriptor) :
    (∀ s o, (ofClasses ds).lookup? s = o ↔ Means ds s o) ∧
      (∀ t d, (ofClasses ds).descriptorFor? t = some d ↔
        LastWith (fun x => x.name = t.key) ds d) ∧
      (ofClasses ds).size = (ds.map ClassDescriptor.name).toFinset.card := by
  refine ⟨?_, ?_, ?_⟩
  · intro s o
    constructor
    · rintro rfl
      obtain ⟨o, ho⟩ := exists_means ds s
      rwa [lookup?_of_means ho]
    · exact lookup?_of_means
  · intro t d
    exact named?_eq_some_iff
  · rw [size, (distinct_classes_ofClasses ds).size_eq_card, keys_classes_ofClasses]

-- An alias moves to the class that lists it last, and gives way to a class of that name.
example :
    let curve := (ClassDescriptor.ofType (.object (.root "Curve"))).withAlias "Line"
    let spline := (ClassDescriptor.ofType (.object (.root "Spline"))).withAlias "Line"
    let line := ClassDescriptor.ofType (.object (.root "Line"))
    let found ds := ((ofClasses ds).lookup? "Line").map ClassDescriptor.name
    found [curve, spline] = some "Spline" ∧ found [curve, spline, curve] = some "Curve" ∧
      found [line, curve, spline] = some "Line" := by
  decide

end Meaning

end Registry
end CellBridge
