import CellBridge.Proofs.Managed.WellTyped
import Mathlib.Algebra.Group.Nat.Defs

/-!
# Portable objects and their copies

A portable object can go to the host and come back: its scalars have a cell of their own, and the
elements of its collections carry exactly the declared type (`Store.Portable`).  What comes back
is a copy in a store that has grown: it is `Alike`, equal in type, structure, order and scalars.

A copy of a set keeps all its elements, because equality of values looks at scalars and
identities alone (`Alike.valueEq_eq_false`).  Types bound how deep a portable object is nested, so
no soundness of the store is needed to write it (`Portable.shallow`).
-/

namespace CellBridge

section Defs

/-- The types of scalars that a cell can hold.  Of the classes these are the enumerations. -/
def Ty.isScalar : Ty → Bool
  | .bool => true
  | .byte => true
  | .short => true
  | .int => true
  | .long => true
  | .double => true
  | .text => true
  | .object c => c.isEnum
  | _ => false

def Ty.isArray : Ty → Bool
  | .array _ => true
  | _ => false

/-- How deep collections are nested in a type. -/
def Ty.nesting : Ty → Nat
  | .array e => e.nesting + 1
  | .list e => e.nesting + 1
  | .set e => e.nesting + 1
  | _ => 0

/-- The payload without its items. -/
def Payload.bare : Payload → Payload
  | .array _ => .array []
  | .list _ => .list []
  | .set _ => .set []
  | .record _ => .record []
  | p => p

/-- The integers that every number can tell apart. -/
def Payload.Exact : Payload → Prop
  | .long n => n.toInt.natAbs ≤ 2 ^ 53
  | _ => True

namespace Store

/-- An object of exactly the given type that the host can hold by value.  An array of arrays has a
row with items if it has rows at all, and the items of a set are different. -/
inductive Portable
    (s : Store) : Ty → Object → Prop
  | scalar
      {o : Object}
      (hscalar : o.type.isScalar = true)
      (hagrees : o.type.Agrees (s.payload o))
      (hexact : (s.payload o).Exact) :
      Portable s o.type o
  | collection
      {o : Object}
      {e : Ty}
      (helement : o.type.element? = some e)
      (hagrees : o.type.Agrees (s.payload o))
      (hitems : ∀ x ∈ s.contents o.id, Portable s e x)
      (hrows : ∀ e', o.type = .array (.array e') →
        s.contents o.id = [] ∨ ∃ row ∈ s.contents o.id, s.contents row.id ≠ [])
      (hdifferent : ∀ e', o.type = .set e' →
        (s.contents o.id).Pairwise fun x y => s.valueEq x y = false) :
      Portable s o.type o

/-- An array of arrays without items in its rows. -/
structure Hollow
    (s : Store)
    (e : Ty)
    (o : Object) : Prop where
  type : o.type = .array (.array e)
  agrees : o.type.Agrees (s.payload o)
  rows : ∀ row ∈ s.contents o.id,
    row.type = .array e ∧ row.type.Agrees (s.payload row) ∧ s.contents row.id = []

/-- The second object, in the second store, is a copy of the first one: equal in type, payload and
number of items, and item by item. -/
inductive Alike
    (s s' : Store) : Object → Object → Prop
  | intro
      {o o' : Object}
      (bound : o'.id < s'.size)
      (type : o'.type = o.type)
      (payload : (s'.payload o').bare = (s.payload o).bare)
      (length : (s'.contents o'.id).length = (s.contents o.id).length)
      (items : ∀ (k : Nat) (x x' : Object), (s.contents o.id)[k]? = some x →
        (s'.contents o'.id)[k]? = some x' → Alike s s' x x') :
      Alike s s' o o'

end Store

end Defs

namespace Ty

variable {t : Ty} {p : Payload}

/-- Scalars hold nothing. -/
theorem items?_of_agrees
    (hscalar : t.isScalar = true)
    (h : t.Agrees p) :
    p.items? = none := by
  cases t <;> try cases hscalar
  all_goals
    cases p <;> first
      | rfl
      | cases h

theorem nesting_of_element?
    {e : Ty}
    (h : t.element? = some e) :
    t.nesting = e.nesting + 1 := by
  cases t <;> cases h <;> rfl

end Ty

namespace Store

variable {s s' s'' : Store} {t : Ty} {o o' : Object}

theorem contents_of_items?_eq_none
    (h : (s.payload o).items? = none) :
    s.contents o.id = [] := by
  exact congrArg (fun x => x.getD []) h

section Portable

theorem Portable.type_eq
    (ho : s.Portable t o) :
    o.type = t := by
  cases ho <;> rfl

theorem Portable.agrees
    (ho : s.Portable t o) :
    t.Agrees (s.payload o) := by
  cases ho <;> assumption

theorem Portable.ne_void
    (ho : s.Portable t o) :
    t ≠ .void := by
  intro hvoid
  cases ho with
  | scalar hscalar =>
      rw [hvoid] at hscalar
      cases hscalar
  | collection helement =>
      rw [hvoid] at helement
      cases helement

/-- What a portable object holds is portable, at the element type. -/
theorem Portable.of_mem
    (ho : s.Portable t o)
    {x : Object}
    (hx : x ∈ s.contents o.id) :
    ∃ e, t.element? = some e ∧ s.Portable e x := by
  cases ho with
  | scalar hscalar hagrees =>
      rw [contents_of_items?_eq_none (Ty.items?_of_agrees hscalar hagrees)] at hx
      cases hx
  | collection helement _ hitems =>
      exact ⟨_, helement, hitems x hx⟩

/-- The type of a portable object that holds something is that of its reference. -/
theorem Portable.nesting_eq
    {t' : Ty}
    (ho : s.Portable t o)
    (ho' : s.Portable t' o')
    (hid : o.id = o'.id)
    {x : Object}
    (hx : x ∈ s.contents o.id) :
    t.nesting = t'.nesting := by
  obtain ⟨e, helement, he⟩ := ho.of_mem hx
  obtain ⟨e', helement', he'⟩ := ho'.of_mem (hid ▸ hx)
  rw [Ty.nesting_of_element? helement, Ty.nesting_of_element? helement', ← he.type_eq,
    ← he'.type_eq]

/-- What is reached from a portable object is portable, at a type that is nested less deep. -/
theorem Portable.reaches
    (ho : s.Portable t o)
    {j : Nat}
    (hj : Relation.TransGen s.Holds o.id j) :
    ∃ t' o', s.Portable t' o' ∧ o'.id = j ∧ t'.nesting < t.nesting := by
  induction hj with
  | single h =>
      obtain ⟨x, hx, rfl⟩ := h
      obtain ⟨e, helement, he⟩ := ho.of_mem hx
      exact ⟨e, x, he, rfl, by rw [Ty.nesting_of_element? helement]; exact Nat.lt_succ_self _⟩
  | tail _ h ih =>
      obtain ⟨t', o', ho', rfl, hlt⟩ := ih
      obtain ⟨x, hx, rfl⟩ := h
      obtain ⟨e, helement, he⟩ := ho'.of_mem hx
      refine ⟨e, x, he, rfl, ?_⟩
      rw [Ty.nesting_of_element? helement] at hlt
      exact Nat.lt_of_succ_lt hlt

/-- Types bound the depth of a portable object. -/
theorem Portable.shallow
    (ho : s.Portable t o) :
    s.Shallow s.size o.id := by
  -- something that leads to itself would be portable at a type nested less deep than its own
  have hfree : ∀ t' o', s.Portable t' o' → ¬ Relation.TransGen s.Holds o'.id o'.id := by
    intro t' o' ho' hcycle
    obtain ⟨t'', o'', ho'', hid, hlt⟩ := ho'.reaches hcycle
    obtain ⟨k, ⟨x, hx, -⟩, -⟩ := Relation.TransGen.head'_iff.1 hcycle
    rw [ho'.nesting_eq ho'' hid.symm hx] at hlt
    exact absurd hlt (Nat.lt_irrefl _)
  refine shallow_of_free ?_
  intro j hj
  rcases Relation.reflTransGen_iff_eq_or_transGen.1 hj with rfl | hj
  · exact hfree t o ho
  · obtain ⟨t', o', ho', rfl, -⟩ := ho.reaches hj
    exact hfree t' o' ho'

theorem Hollow.shallow
    {e : Ty}
    (ho : s.Hollow e o) :
    s.Shallow 1 o.id := by
  rintro j ⟨row, hrow, rfl⟩ k ⟨x, hx, -⟩
  rw [(ho.rows row hrow).2.2] at hx
  cases hx

end Portable

section Copies

/-- A copy stays one while the store grows. -/
theorem Alike.extend
    (h : s.Alike s' o o')
    (hgrowth : s'.Extends s'') :
    s.Alike s'' o o' := by
  induction h with
  | @intro o o' bound type payload length _ ih =>
      have hpayload : s''.payload o' = s'.payload o' := hgrowth.same o'.id bound
      have hcontents := contents_extend hgrowth bound
      refine .intro (Nat.lt_of_lt_of_le bound hgrowth.size_le) type ?_ ?_ ?_
      · rw [hpayload]
        exact payload
      · rw [hcontents]
        exact length
      · rw [hcontents]
        exact ih

/-- A new object is a copy if its payload is, but for the items, and the items are copies. -/
theorem alike_alloc
    {p : Payload}
    {items items' : List Object}
    (hpayload : p.bare = (s.payload o).bare)
    (hcontents : s.contents o.id = items)
    (hcontents' : p.items?.getD [] = items')
    (hitems : List.Forall₂ (s.Alike s') items items') :
    s.Alike (s'.alloc o.type p).2 o (s'.alloc o.type p).1 := by
  have hnew : (s'.alloc o.type p).2.contents (s'.alloc o.type p).1.id = items' := by
    rw [contents_alloc, ← hcontents']
    exact if_pos rfl
  refine .intro ?_ rfl ?_ ?_ ?_
  · show s'.size < (s'.payloads.push p).size
    rw [Array.size_push]
    exact Nat.lt_succ_self _
  · rw [payload_alloc]
    exact hpayload
  · rw [hnew, hcontents]
    exact hitems.length_eq.symm
  · rw [hnew, hcontents]
    intro k x x' hx hx'
    obtain ⟨hk, rfl⟩ := List.getElem?_eq_some_iff.1 hx
    obtain ⟨hk', rfl⟩ := List.getElem?_eq_some_iff.1 hx'
    exact (hitems.get hk hk').extend (extends_alloc _ p)

end Copies

section Equality

/-- Of two objects the part of equality that looks at their types and payloads. -/
def contentEq
    (t u : Ty)
    (p q : Payload) : Bool :=
  match t, u with
  | .double, .double => numberEq p.double? q.double?
  | .byte, .byte => p.byte? == q.byte?
  | .short, .short => p.short? == q.short?
  | .int, .int => p.int? == q.int?
  | .long, .long => p.long? == q.long?
  | .bool, .bool => p.bool? == q.bool?
  | .text, .text => p.text? == q.text?
  | .void, .void => true
  | .tagged, .tagged => p.tagged? == q.tagged?
  | .object c, .object d =>
      c.sameName d && c.isEnum && p.constant?.isSome && p.constant? == q.constant?
  | _, _ => false

theorem valueEq_eq
    (s : Store)
    (a b : Object) :
    s.valueEq a b =
      (sameIdentity a b || contentEq a.type b.type (s.payload a) (s.payload b)) := by
  rfl

theorem contentEq_bare
    (t u : Ty)
    (p q : Payload) :
    contentEq t u p.bare q.bare = contentEq t u p q := by
  have hleft : ∀ q, contentEq t u p.bare q = contentEq t u p q := by
    intro q
    cases p <;> rfl
  have hright : ∀ p, contentEq t u p q.bare = contentEq t u p q := by
    intro p
    cases q <;> rfl
  rw [hleft, hright]

/-- Copies with identities of their own are as different as the originals are. -/
theorem Alike.valueEq_eq_false
    {a a' b b' : Object}
    (ha : s.Alike s' a a')
    (hb : s.Alike s' b b')
    (hid : a'.id ≠ b'.id)
    (h : s.valueEq a b = false) :
    s'.valueEq a' b' = false := by
  obtain ⟨-, hcontent⟩ := Bool.or_eq_false_iff.1 ((valueEq_eq s a b).symm.trans h)
  obtain ⟨-, htype, hpayload, -, -⟩ := ha
  obtain ⟨-, htype', hpayload', -, -⟩ := hb
  rw [valueEq_eq, htype, htype', ← contentEq_bare, hpayload, hpayload', contentEq_bare, hcontent,
    Bool.or_false, sameIdentity]
  exact beq_eq_false_iff_ne.2 hid

theorem hasEqual_eq_false_iff
    {items : List Object} :
    s.hasEqual items o = false ↔ ∀ x ∈ items, s.valueEq x o = false := by
  rw [hasEqual, List.any_eq_false]
  exact forall₂_congr fun x _ => iff_of_eq (Bool.not_eq_true _)

/-- A set stays one of different items when an item is inserted. -/
theorem pairwise_insertItem
    {items : List Object}
    (h : items.Pairwise fun x y => s.valueEq x y = false)
    (o : Object) :
    (s.insertItem items o).Pairwise fun x y => s.valueEq x y = false := by
  rw [insertItem]
  cases hequal : s.hasEqual items o with
  | true =>
      exact h
  | false =>
      refine List.pairwise_append.2 ⟨h, List.pairwise_singleton _ o, ?_⟩
      intro x hx y hy
      rw [List.mem_singleton.1 hy]
      exact hasEqual_eq_false_iff.1 hequal x hx

/-- Every set is made of different items. -/
theorem pairwise_distinct
    (s : Store)
    (items : List Object) :
    (s.distinct items).Pairwise fun x y => s.valueEq x y = false := by
  exact List.foldlRecOn items s.insertItem .nil fun _ h o _ => pairwise_insertItem h o

/-- Items that are all different are kept. -/
theorem distinct_eq_self
    {items : List Object}
    (h : items.Pairwise fun x y => s.valueEq x y = false) :
    s.distinct items = items := by
  have hfold : ∀ rest found : List Object,
      (found ++ rest).Pairwise (fun x y => s.valueEq x y = false) →
        rest.foldl s.insertItem found = found ++ rest := by
    intro rest
    induction rest with
    | nil =>
        intro found _
        exact (List.append_nil found).symm
    | cons x rest ih =>
        intro found hfound
        have hnew : s.hasEqual found x = false := by
          refine hasEqual_eq_false_iff.2 fun y hy => ?_
          exact (List.pairwise_append.1 hfound).2.2 y hy x List.mem_cons_self
        have hnext : s.insertItem found x = found ++ [x] := by
          rw [insertItem, hnew]
          rfl
        rw [List.append_cons] at hfound ⊢
        rw [List.foldl_cons, hnext, ih _ hfound]
  exact hfold items [] h

end Equality

end Store
end CellBridge
