import CellBridge.Proofs.Managed.Hierarchy

/-!
# Assignability as an order

In a hierarchy of classes the chain of a class ends with the chain of each of its ancestors
(`chain_suffix`), so ancestry goes on from class to class, and assignability from type to type at
any depth of nesting: `accepts_trans`.  Of two types that are assignable to each other neither is a
proper subtype, because a proper subtype has a larger rank, so they are equal: `accepts_antisymm`.

Classes need not come with their ancestors for this.  It is enough that a name is followed by the
same names in all chains in which it stands, because then the classes and all their ancestors are a
hierarchy: `namesDetermineChains_iff`.  Otherwise it fails: a class may lie below one of two classes
of one name and not below what is above the other.

A hierarchy grows by classes with new names that stand below one of its classes or below none:
`isHierarchy_insert`.
-/

namespace CellBridge

section Defs

/-- Is a name followed by the same ancestors in every chain in which it stands? -/
def NamesDetermineChains
    (classes : Set ManagedClass) : Prop :=
  ∀ c ∈ classes, ∀ d ∈ classes, ∀ name above above',
    name :: above <:+ c.chain → name :: above' <:+ d.chain → above = above'

def withAncestors
    (classes : Set ManagedClass) : Set ManagedClass :=
  {a | ∃ c ∈ classes, a.chain <:+ c.chain}

end Defs

/-- Equal types accept each other. -/
theorem Ty.accepts_of_beq
    {t u : Ty}
    (h : (t == u) = true) :
    t.accepts u = true ∧ u.accepts t = true := by
  induction t generalizing u with
  | array a ih =>
      cases u with
      | array b =>
          exact ih (u := b) h
      | _ =>
          cases h
  | list a ih =>
      cases u with
      | list b =>
          exact ih (u := b) h
      | _ =>
          cases h
  | set a ih =>
      cases u with
      | set b =>
          exact ih (u := b) h
      | _ =>
          cases h
  | object c =>
      cases u with
      | object d =>
          have hname : c.name = d.name := beq_iff_eq.1 h
          have hup : c.name ∈ d.chain := hname ▸ List.mem_cons_self
          have hdown : d.name ∈ c.chain := hname ▸ List.mem_cons_self
          exact ⟨List.contains_iff_mem.2 hup, List.contains_iff_mem.2 hdown⟩
      | _ =>
          cases h
  | _ =>
      cases u <;> cases h
      exact ⟨rfl, rfl⟩

section Growth

variable {classes : Set ManagedClass} {c : ManagedClass}

theorem isHierarchy_empty :
    IsHierarchy ∅ := by
  exact ⟨fun _ hc => hc.elim, fun _ hc => hc.elim⟩

/-- A class with a new name may be added at the top, or below a class that is there. -/
theorem isHierarchy_insert
    (hclasses : IsHierarchy classes)
    (hfresh : ∀ d ∈ classes, d.name ≠ c.name)
    (hplace : c.ancestors = [] ∨ ∃ p ∈ classes, c.ancestors = p.chain) :
    IsHierarchy (insert c classes) := by
  refine ⟨?_, ?_⟩
  · rintro d (rfl | hd) parent above hancestors
    · rcases hplace with hroot | ⟨p, hp, hbelow⟩
      · rw [hroot] at hancestors
        cases hancestors
      · rw [hbelow] at hancestors
        obtain ⟨hname, habove⟩ := List.cons.inj hancestors
        exact ⟨p, Or.inr hp, hname, habove⟩
    · obtain ⟨p, hp, hname⟩ := hclasses.parents d hd parent above hancestors
      exact ⟨p, Or.inr hp, hname⟩
  · rintro d (rfl | hd) e (rfl | he) hname
    · rfl
    · exact absurd hname.symm (hfresh e he)
    · exact absurd hname (hfresh d hd)
    · exact hclasses.determined d hd e he hname

end Growth

section Ancestors

variable {classes : Set ManagedClass} {c : ManagedClass}

/-- Every class of a chain is there. -/
theorem IsHierarchy.exists_of_suffix
    (hclasses : IsHierarchy classes)
    (hc : c ∈ classes)
    {name : String}
    {above : List String}
    (hsuffix : name :: above <:+ c.chain) :
    ∃ a ∈ classes, a.name = name ∧ a.ancestors = above := by
  obtain ⟨below, hchain⟩ := hsuffix
  induction below generalizing c with
  | nil =>
      obtain ⟨rfl, rfl⟩ := List.cons.inj hchain
      exact ⟨c, hc, rfl, rfl⟩
  | cons first below ih =>
      obtain ⟨-, hancestors⟩ := List.cons.inj hchain
      cases below with
      | nil =>
          exact hclasses.parents c hc name above hancestors.symm
      | cons parent below =>
          obtain ⟨p, hp, rfl, habove⟩ := hclasses.parents c hc _ _ hancestors.symm
          exact ih hp (congrArg (p.name :: ·) habove.symm)

/-- The names of a hierarchy determine chains. -/
theorem IsHierarchy.namesDetermineChains
    (hclasses : IsHierarchy classes) :
    NamesDetermineChains classes := by
  intro c hc d hd name above above' habove habove'
  obtain ⟨a, ha, rfl, rfl⟩ := hclasses.exists_of_suffix hc habove
  obtain ⟨b, hb, hname, rfl⟩ := hclasses.exists_of_suffix hd habove'
  exact hclasses.determined a ha b hb hname.symm

theorem subset_withAncestors
    (classes : Set ManagedClass) :
    classes ⊆ withAncestors classes := by
  exact fun c hc => ⟨c, hc, List.suffix_rfl⟩

/-- Names determine chains if and only if the classes and their ancestors are a hierarchy. -/
theorem namesDetermineChains_iff :
    NamesDetermineChains classes ↔ IsHierarchy (withAncestors classes) := by
  constructor
  · intro hnames
    refine ⟨?_, ?_⟩
    · rintro a ⟨c, hc, ha⟩ parent above hancestors
      have hparent : parent :: above <:+ a.chain := hancestors ▸ List.suffix_cons _ _
      exact ⟨{ name := parent, ancestors := above, constants := [] },
        ⟨c, hc, hparent.trans ha⟩, rfl, rfl⟩
    · rintro a ⟨c, hc, ha⟩ b ⟨d, hd, hb⟩ hname
      exact hnames c hc d hd a.name a.ancestors b.ancestors ha (hname ▸ hb)
  · intro hclasses c hc d hd
    exact hclasses.namesDetermineChains c (subset_withAncestors classes hc) d
      (subset_withAncestors classes hd)

theorem Ty.Within.mono
    {classes' : Set ManagedClass}
    {t : Ty}
    (ht : t.Within classes)
    (hsub : classes ⊆ classes') :
    t.Within classes' := by
  induction t with
  | array e ih =>
      exact ih ht
  | list e ih =>
      exact ih ht
  | set e ih =>
      exact ih ht
  | object c =>
      exact hsub ht
  | _ =>
      trivial

end Ancestors

namespace IsHierarchy

variable {classes : Set ManagedClass} {c d e : ManagedClass}

section Classes

/-- The chain of a class ends with the chain of its ancestor. -/
theorem chain_suffix
    (hclasses : IsHierarchy classes)
    (hc : c ∈ classes)
    (hd : d ∈ classes)
    (hsub : d.isSubclassOf c = true) :
    c.chain <:+ d.chain := by
  obtain ⟨below, above, hchain⟩ := List.append_of_mem (List.contains_iff_mem.1 hsub)
  obtain rfl := hclasses.ancestors_of_chain hc hd hchain
  exact ⟨below, hchain.symm⟩

/-- The ancestors of an ancestor are ancestors. -/
theorem isSubclassOf_trans
    (hclasses : IsHierarchy classes)
    (hd : d ∈ classes)
    (he : e ∈ classes)
    (hcd : d.isSubclassOf c = true)
    (hde : e.isSubclassOf d = true) :
    e.isSubclassOf c = true := by
  have hmem : c.name ∈ d.chain := List.contains_iff_mem.1 hcd
  exact List.contains_iff_mem.2 ((hclasses.chain_suffix hd he hde).subset hmem)

end Classes

section Types

variable {t u v : Ty}

theorem accepts_trans
    (hclasses : IsHierarchy classes)
    (hu : u.Within classes)
    (hv : v.Within classes)
    (htu : t.accepts u = true)
    (huv : u.accepts v = true) :
    t.accepts v = true := by
  induction t generalizing u v with
  | any =>
      exact Ty.accepts_any v
  | array a ih =>
      cases u with
      | array b =>
          cases v with
          | array c =>
              exact ih (u := b) (v := c) hu hv htu huv
          | _ =>
              cases huv
      | _ =>
          cases htu
  | list a ih =>
      cases u with
      | list b =>
          cases v with
          | list c =>
              exact ih (u := b) (v := c) hu hv htu huv
          | _ =>
              cases huv
      | _ =>
          cases htu
  | set a ih =>
      cases u with
      | set b =>
          cases v with
          | set c =>
              exact ih (u := b) (v := c) hu hv htu huv
          | _ =>
              cases huv
      | _ =>
          cases htu
  | object c =>
      cases u with
      | object d =>
          cases v with
          | object e =>
              exact hclasses.isSubclassOf_trans (c := c) (d := d) (e := e) hu hv htu huv
          | _ =>
              cases huv
      | _ =>
          cases htu
  | _ =>
      -- scalars accept nothing but themselves
      cases u <;> cases htu
      exact huv

/-- Types that accept each other have one rank, so neither is a proper subtype of the other. -/
theorem accepts_antisymm
    (hclasses : IsHierarchy classes)
    (ht : t.Within classes)
    (hu : u.Within classes)
    (htu : t.accepts u = true)
    (hut : u.accepts t = true) :
    (t == u) = true := by
  cases hequal : t == u with
  | true =>
      rfl
  | false =>
      have hlt := hclasses.rank_lt ht hu htu hequal
      have hle := hclasses.rank_le hu ht hut
      exact absurd hlt (Nat.not_lt.2 hle)

end Types

end IsHierarchy

section Order

variable {classes : Set ManagedClass}

/-- Where class names determine their chains, assignability is reflexive and transitive, and types
that are assignable to each other are equal: a partial order on types up to equality. -/
theorem accepts_partialOrder
    (hnames : NamesDetermineChains classes) :
    (∀ t : Ty, t.accepts t = true) ∧
      (∀ t u v : Ty, t.Within classes → u.Within classes → v.Within classes →
        t.accepts u = true → u.accepts v = true → t.accepts v = true) ∧
      ∀ t u : Ty, t.Within classes → u.Within classes →
        ((t == u) = true ↔ t.accepts u = true ∧ u.accepts t = true) := by
  have hclasses : IsHierarchy (withAncestors classes) := namesDetermineChains_iff.1 hnames
  have hself : classes ⊆ withAncestors classes := subset_withAncestors classes
  refine ⟨Ty.accepts_self, ?_, ?_⟩
  · intro t u v _ hu hv htu huv
    exact hclasses.accepts_trans (hu.mono hself) (hv.mono hself) htu huv
  · intro t u ht hu
    exact ⟨Ty.accepts_of_beq,
      fun h => hclasses.accepts_antisymm (ht.mono hself) (hu.mono hself) h.1 h.2⟩

end Order

section Shapes

/-! Circles are shapes and rings are circles. -/

/-- The root of a chain of three classes. -/
def shapeClass : ManagedClass :=
  .root "Shape"

def circleClass : ManagedClass :=
  .extending "Circle" shapeClass

def ringClass : ManagedClass :=
  .extending "Ring" circleClass

def shapes : Set ManagedClass :=
  insert ringClass (insert circleClass (insert shapeClass ∅))

theorem isHierarchy_shapes :
    IsHierarchy shapes := by
  have hshape : IsHierarchy (insert shapeClass ∅) :=
    isHierarchy_insert isHierarchy_empty (fun _ hd => hd.elim) (Or.inl rfl)
  have hcircle : IsHierarchy (insert circleClass (insert shapeClass ∅)) := by
    refine isHierarchy_insert hshape ?_ (Or.inr ⟨shapeClass, Or.inl rfl, rfl⟩)
    rintro d (rfl | hd)
    · decide
    · exact hd.elim
  refine isHierarchy_insert hcircle ?_ (Or.inr ⟨circleClass, Or.inl rfl, rfl⟩)
  rintro d (rfl | rfl | hd)
  · decide
  · decide
  · exact hd.elim

/-- Lists of arrays of rings go where lists of arrays of shapes are declared, by way of lists of
arrays of circles, and not the other way. -/
theorem accepts_partialOrder_shapes :
    let nested (c : ManagedClass) : Ty := .list (.array (.object c))
    (nested shapeClass).accepts (nested circleClass) = true ∧
      (nested circleClass).accepts (nested ringClass) = true ∧
      (nested shapeClass).accepts (nested ringClass) = true ∧
      (nested ringClass).accepts (nested shapeClass) = false ∧
      (nested shapeClass == nested ringClass) = false := by
  intro nested
  obtain ⟨-, htrans, hequal⟩ := accepts_partialOrder isHierarchy_shapes.namesDetermineChains
  have hshape : (nested shapeClass).Within shapes := Or.inr (Or.inr (Or.inl rfl))
  have hcircle : (nested circleClass).Within shapes := Or.inr (Or.inl rfl)
  have hring : (nested ringClass).Within shapes := Or.inl rfl
  have hdown : (nested shapeClass).accepts (nested circleClass) = true := by decide
  have hdown' : (nested circleClass).accepts (nested ringClass) = true := by decide
  have hup : (nested ringClass).accepts (nested shapeClass) = false := by decide
  refine ⟨hdown, hdown', htrans _ _ _ hshape hcircle hring hdown hdown', hup, ?_⟩
  rw [Bool.eq_false_iff, Ne, hequal _ _ hshape hring, hup]
  exact fun h => Bool.false_ne_true h.2

-- A second class of the name in the middle leads out of the chain.
example :
    let circleClass' : ManagedClass := .root "Circle"
    let ringClass' : ManagedClass := .extending "Ring" circleClass'
    (Ty.object shapeClass).accepts (.object circleClass) = true ∧
      (Ty.object circleClass).accepts (.object ringClass') = true ∧
      (Ty.object shapeClass).accepts (.object ringClass') = false := by
  decide

end Shapes

end CellBridge
