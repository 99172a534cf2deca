import CellBridge.Proofs.Cell.Equality
import CellBridge.Proofs.Managed.Portable

/-!
# Equality of objects

Objects are equal if they are the same, or if their types and payloads are: `contentEq`.  The second
part is symmetric and transitive by itself, up to classes of one name of which only one is an
enumeration; it is not reflexive, because of numbers that are none.  Both parts go together among
`Consistent` objects: no class but an enumeration has constants, and one identity has one type.

Lists and sets change in place, but no payload becomes one of another kind, and a scalar never
changes.  Equality looks at nothing else, so it stays as it is while a store `Evolves`.

Objects that are `Consistent` fall into classes of equal ones: `valueEq_equivalence`.  That a
payload is one of its tag's kind does not matter beyond the constants, because two payloads of which
neither is of the kind are equal as well.
-/

namespace CellBridge

section Defs

/-- Among the types of classes, those of enumerations alone go with a constant. -/
def Ty.AdmitsConstant
    (t : Ty)
    (p : Payload) : Prop :=
  ∀ c, t = .object c → p.constant?.isSome = true → c.isEnum = true

namespace Store

/-- The constants among the objects are of enumerations, and one identity has one type. -/
structure Consistent
    (s : Store)
    (os : List Object) : Prop where
  constants : ∀ o ∈ os, o.type.AdmitsConstant (s.payload o)
  types : ∀ a ∈ os, ∀ b ∈ os, a.id = b.id → (a.type == b.type) = true

/-- The second store has the payloads of the first one, up to the items in them, and perhaps
more. -/
structure Evolves
    (s s' : Store) : Prop where
  size_le : s.size ≤ s'.size
  bare : ∀ i, i < s.size →
    (s'.payloads.getD i .unit).bare = (s.payloads.getD i .unit).bare

end Store

end Defs

section Scalars

variable {x y z : Number}

theorem Number.ieeeEq_symm
    (h : x.ieeeEq y = true) :
    y.ieeeEq x = true := by
  rw [Number.ieeeEq_iff] at h ⊢
  refine ⟨h.1.symm, ?_⟩
  rw [← Number.isNaN_mergeZeros, ← h.1, Number.isNaN_mergeZeros]
  exact h.2

theorem Number.ieeeEq_trans
    (hxy : x.ieeeEq y = true)
    (hyz : y.ieeeEq z = true) :
    x.ieeeEq z = true := by
  rw [Number.ieeeEq_iff] at hxy hyz ⊢
  exact ⟨hxy.1.trans hyz.1, hxy.2⟩

variable {k l m : Option Number}

theorem Store.numberEq_symm
    (h : numberEq k l = true) :
    numberEq l k = true := by
  cases k <;> cases l <;> first
    | exact Number.ieeeEq_symm h
    | exact h

theorem Store.numberEq_trans
    (hkl : numberEq k l = true)
    (hlm : numberEq l m = true) :
    numberEq k m = true := by
  cases k with
  | none =>
      cases l with
      | none =>
          exact hlm
      | some _ =>
          cases hkl
  | some _ =>
      cases l with
      | none =>
          cases hkl
      | some _ =>
          cases m with
          | none =>
              cases hlm
          | some _ =>
              exact Number.ieeeEq_trans hkl hlm

instance : PartialEquivBEq Value where
  symm := Value.beq_symm
  trans := Value.beq_trans

instance : PartialEquivBEq (Option Value) where
  symm := by
    intro a b h
    cases a <;> cases b <;> first
      | exact Value.beq_symm h
      | exact h
  trans := by
    intro a b c hab hbc
    cases a with
    | none =>
        cases b with
        | none =>
            exact hbc
        | some _ =>
            cases hab
    | some _ =>
        cases b with
        | none =>
            cases hab
        | some _ =>
            cases c with
            | none =>
                cases hbc
            | some _ =>
                exact Value.beq_trans hab hbc

end Scalars

namespace Store

section Content

variable {t t' u v : Ty} {p q r : Payload}

theorem contentEq_symm
    (hq : u.AdmitsConstant q)
    (h : contentEq t u p q = true) :
    contentEq u t q p = true := by
  cases t <;> cases u <;> try exact absurd h Bool.false_ne_true
  case double.double =>
    exact numberEq_symm h
  case void.void =>
    rfl
  case object.object c d =>
    simp only [contentEq, ManagedClass.sameName, Bool.and_eq_true, beq_iff_eq] at h ⊢
    obtain ⟨⟨⟨hname, -⟩, hconstant⟩, heq⟩ := h
    rw [heq] at hconstant
    exact ⟨⟨⟨hname.symm, hq d rfl hconstant⟩, hconstant⟩, heq.symm⟩
  all_goals
    exact BEq.symm h

theorem contentEq_trans
    (htu : contentEq t u p q = true)
    (huv : contentEq u v q r = true) :
    contentEq t v p r = true := by
  cases t <;> cases u <;> (try exact absurd htu Bool.false_ne_true) <;> cases v <;>
    try exact absurd huv Bool.false_ne_true
  case double.double.double =>
    exact numberEq_trans htu huv
  case void.void.void =>
    rfl
  case object.object.object c d e =>
    simp only [contentEq, ManagedClass.sameName, Bool.and_eq_true, beq_iff_eq] at htu huv ⊢
    obtain ⟨⟨⟨hname, henum⟩, hconstant⟩, heq⟩ := htu
    obtain ⟨⟨⟨hname', -⟩, -⟩, heq'⟩ := huv
    exact ⟨⟨⟨hname.trans hname', henum⟩, hconstant⟩, heq.trans heq'⟩
  all_goals
    exact BEq.trans htu huv

/-- Equal types make no difference. -/
theorem contentEq_congr_left
    (htype : (t == t') = true)
    (hp : t'.AdmitsConstant p)
    (h : contentEq t u p q = true) :
    contentEq t' u p q = true := by
  cases t <;> cases t' <;> try exact absurd htype Bool.false_ne_true
  case object.object c d =>
    cases u <;> try exact absurd h Bool.false_ne_true
    case object e =>
      have hname : c.name = d.name := beq_iff_eq.1 htype
      simp only [contentEq, ManagedClass.sameName, Bool.and_eq_true, beq_iff_eq] at h ⊢
      obtain ⟨⟨⟨hname', -⟩, hconstant⟩, heq⟩ := h
      exact ⟨⟨⟨hname.symm.trans hname', hp d rfl hconstant⟩, hconstant⟩, heq⟩
  all_goals
    exact h

end Content

section Objects

variable {s s' s'' : Store} {os : List Object} {a b c o : Object}

theorem valueEq_self
    (s : Store)
    (o : Object) :
    s.valueEq o o = true := by
  rw [valueEq_eq, sameIdentity, beq_self_eq_true, Bool.true_or]

/-- Equal objects are the same, or equal in content. -/
theorem valueEq_iff :
    s.valueEq a b = true ↔
      a.id = b.id ∨ contentEq a.type b.type (s.payload a) (s.payload b) = true := by
  rw [valueEq_eq, Bool.or_eq_true, sameIdentity, beq_iff_eq]

theorem payload_eq_of_id
    (h : a.id = b.id) :
    s.payload a = s.payload b := by
  rw [payload, payload, h]

theorem Consistent.mono
    {os' : List Object}
    (h : s.Consistent os)
    (hsub : ∀ o ∈ os', o ∈ os) :
    s.Consistent os' := by
  exact ⟨fun o ho => h.constants o (hsub o ho),
    fun a ha b hb => h.types a (hsub a ha) b (hsub b hb)⟩

/-- Objects inserted before others are consistent among themselves. -/
theorem Consistent.earlier
    {os' : List Object}
    (h : s.Consistent (os ++ os')) :
    s.Consistent os := by
  exact h.mono fun o ho => List.mem_append_left os' ho

theorem Consistent.valueEq_symm
    (h : s.Consistent os)
    (hb : b ∈ os)
    (hab : s.valueEq a b = true) :
    s.valueEq b a = true := by
  rw [valueEq_iff] at hab ⊢
  rcases hab with hid | hcontent
  · exact Or.inl hid.symm
  · exact Or.inr (contentEq_symm (h.constants b hb) hcontent)

theorem Consistent.valueEq_trans
    (h : s.Consistent os)
    (ha : a ∈ os)
    (hb : b ∈ os)
    (hc : c ∈ os)
    (hab : s.valueEq a b = true)
    (hbc : s.valueEq b c = true) :
    s.valueEq a c = true := by
  rw [valueEq_iff] at hab hbc ⊢
  rcases hab with hid | hcontent
  · rcases hbc with hid' | hcontent'
    · exact Or.inl (hid.trans hid')
    · -- the same object as the first one, under a type that may be another
      rw [← payload_eq_of_id hid] at hcontent'
      exact Or.inr (contentEq_congr_left (h.types b hb a ha hid.symm) (h.constants a ha) hcontent')
  · rcases hbc with hid' | hcontent'
    · have hback := contentEq_symm (h.constants b hb) hcontent
      rw [payload_eq_of_id hid'] at hback
      have hmoved := contentEq_congr_left (h.types b hb c hc hid') (h.constants c hc) hback
      exact Or.inr (contentEq_symm (h.constants a ha) hmoved)
    · exact Or.inr (contentEq_trans hcontent hcontent')

/-- Equality is reflexive, symmetric and transitive among objects of which only those of
enumerations hold constants, and of which those with one identity have one type. -/
theorem valueEq_equivalence
    {os : Set Object}
    (hconstants : ∀ o ∈ os, o.type.AdmitsConstant (s.payload o))
    (htypes : ∀ a ∈ os, ∀ b ∈ os, a.id = b.id → (a.type == b.type) = true) :
    Equivalence fun a b : os => s.valueEq a b = true := by
  have hconsistent : ∀ l : List os, s.Consistent (l.map Subtype.val) := by
    intro l
    refine ⟨?_, ?_⟩
    · intro o ho
      obtain ⟨x, -, rfl⟩ := List.mem_map.1 ho
      exact hconstants x x.2
    · intro a ha b hb
      obtain ⟨x, -, rfl⟩ := List.mem_map.1 ha
      obtain ⟨y, -, rfl⟩ := List.mem_map.1 hb
      exact htypes x x.2 y y.2
  refine ⟨fun a => s.valueEq_self a, ?_, ?_⟩
  · intro a b hab
    exact (hconsistent [a, b]).valueEq_symm (by simp) hab
  · intro a b c hab hbc
    exact (hconsistent [a, b, c]).valueEq_trans (by simp) (by simp) (by simp) hab hbc

end Objects

section Gallery

/-! Zeros of both signs, a number that is none, grids with grids in them, and constants. -/

def hueClass : ManagedClass :=
  .enumeration "Hue" ["warm", "cold"]

/-- A class that shares the name of the enumeration. -/
def hueNamesake : ManagedClass :=
  .root "Hue"

/-- A grid whose second cell is a grid of a number. -/
def nestedGrid
    (n : Number) : Value :=
  .array (.ofRow .empty [.text "frame", .array (.ofRow .empty [.number n])])

theorem nestedGrid_beq
    {m n : Number}
    (h : m.ieeeEq n = true) :
    (nestedGrid m == nestedGrid n) = true := by
  show (nestedGrid m).beq (nestedGrid n) = true
  simp [nestedGrid, Grid.ofRow, Grid.ofRows, Grid.widest, Grid.padRow, Value.beq, Value.gridBeq,
    Value.rowsBeq, Value.cellsBeq, h]

/-- A store of scalars; in both grids there is a zero. -/
def galleryStore : Store where
  payloads := #[.double ⟨0⟩, .double ⟨0x8000000000000000⟩, .double ⟨0⟩,
    .double ⟨0x7ff8000000000000⟩, .double ⟨0x7ff8000000000000⟩, .tagged (nestedGrid ⟨0⟩),
    .tagged (nestedGrid ⟨0x8000000000000000⟩), .constant 0 "warm", .constant 0 "warm"]

def gallery : List Object :=
  [⟨.double, 0⟩, ⟨.double, 1⟩, ⟨.double, 2⟩, ⟨.double, 3⟩, ⟨.double, 4⟩, ⟨.tagged, 5⟩,
    ⟨.tagged, 6⟩, ⟨.object hueClass, 7⟩, ⟨.object hueClass, 8⟩]

/-- Zeros are equal in any order and through each other, alone and inside of grids, and so are the
constants.  A number that is none equals itself and no other. -/
theorem valueEq_equivalence_gallery :
    galleryStore.valueEq ⟨.double, 0⟩ ⟨.double, 1⟩ = true ∧
      galleryStore.valueEq ⟨.double, 0⟩ ⟨.double, 2⟩ = true ∧
      galleryStore.valueEq ⟨.double, 3⟩ ⟨.double, 3⟩ = true ∧
      galleryStore.valueEq ⟨.double, 3⟩ ⟨.double, 4⟩ = false ∧
      galleryStore.valueEq ⟨.tagged, 6⟩ ⟨.tagged, 5⟩ = true ∧
      galleryStore.valueEq ⟨.object hueClass, 8⟩ ⟨.object hueClass, 7⟩ = true := by
  have hconstants : ∀ o ∈ gallery, o.type.AdmitsConstant (galleryStore.payload o) := by
    simp only [gallery, List.forall_mem_cons]
    refine ⟨?_, ?_, ?_, ?_, ?_, ?_, ?_, ?_, ?_, List.forall_mem_nil _⟩
    all_goals
      intro c hc _
      cases hc <;> rfl
  have htypes : ∀ a ∈ gallery, ∀ b ∈ gallery, a.id = b.id → (a.type == b.type) = true := by
    decide
  have hequal : Equivalence fun a b : {o | o ∈ gallery} => galleryStore.valueEq a b = true :=
    valueEq_equivalence hconstants htypes
  obtain ⟨hrefl, hsymm, htrans⟩ := hequal
  let item (k : Fin 9) : {o | o ∈ gallery} := ⟨gallery.get k, List.get_mem gallery k⟩
  have hzeros : galleryStore.valueEq (item 0) (item 1) = true := by decide
  have hzeros' : galleryStore.valueEq (item 1) (item 2) = true := by decide
  have hgrids : galleryStore.valueEq (item 5) (item 6) = true := nestedGrid_beq (by decide)
  have hconstant : galleryStore.valueEq (item 7) (item 8) = true := by decide
  exact ⟨hzeros, htrans hzeros hzeros', hrefl (item 3), by decide, hsymm hgrids, hsymm hconstant⟩

-- A class that is no enumeration and has the name of one breaks the symmetry.
example :
    galleryStore.valueEq ⟨.object hueClass, 7⟩ ⟨.object hueNamesake, 8⟩ = true ∧
      galleryStore.valueEq ⟨.object hueNamesake, 8⟩ ⟨.object hueClass, 7⟩ = false := by
  decide

end Gallery

section Evolution

variable {s s' s'' : Store} {os : List Object} {a b o : Object}

theorem Evolves.refl
    (s : Store) :
    s.Evolves s := by
  exact ⟨Nat.le_refl _, fun _ _ => rfl⟩

theorem Evolves.trans
    (h : s.Evolves s')
    (h' : s'.Evolves s'') :
    s.Evolves s'' := by
  refine ⟨Nat.le_trans h.size_le h'.size_le, ?_⟩
  intro i hi
  exact (h'.bare i (Nat.lt_of_lt_of_le hi h.size_le)).trans (h.bare i hi)

theorem Extends.evolves
    (h : s.Extends s') :
    s.Evolves s' := by
  exact ⟨h.size_le, fun i hi => congrArg Payload.bare (h.same i hi)⟩

/-- Other items may be put into an object. -/
theorem evolves_replace
    {p : Payload}
    (hbound : o.id < s.size)
    (hp : p.bare = (s.payload o).bare) :
    s.Evolves (s.replace o p) := by
  refine ⟨Nat.le_of_eq size_replace.symm, ?_⟩
  intro i _
  rw [getD_replace hbound]
  split
  · rename_i hi
    rw [hp, payload, hi]
  · rfl

theorem Evolves.payload
    (h : s.Evolves s')
    (ho : o.id < s.size) :
    (s'.payload o).bare = (s.payload o).bare := by
  exact h.bare o.id ho

/-- Objects stay as equal as they are. -/
theorem Evolves.valueEq
    (h : s.Evolves s')
    (ha : a.id < s.size)
    (hb : b.id < s.size) :
    s'.valueEq a b = s.valueEq a b := by
  rw [valueEq_eq, valueEq_eq, ← contentEq_bare, h.payload ha, h.payload hb, contentEq_bare]

theorem constant?_bare
    (p : Payload) :
    p.bare.constant? = p.constant? := by
  cases p <;> rfl

/-- Objects stay as consistent as they are. -/
theorem Evolves.consistent_iff
    (h : s.Evolves s')
    (hbound : ∀ o ∈ os, o.id < s.size) :
    s'.Consistent os ↔ s.Consistent os := by
  have hconstant : ∀ o ∈ os, (s'.payload o).constant? = (s.payload o).constant? := by
    intro o ho
    rw [← constant?_bare, h.payload (hbound o ho), constant?_bare]
  constructor
  · intro hos
    refine ⟨fun o ho c hc hsome => hos.constants o ho c hc ?_, hos.types⟩
    rw [hconstant o ho]
    exact hsome
  · intro hos
    refine ⟨fun o ho c hc hsome => hos.constants o ho c hc ?_, hos.types⟩
    rw [← hconstant o ho]
    exact hsome

end Evolution

end Store

end CellBridge
