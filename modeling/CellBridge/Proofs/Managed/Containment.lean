import CellBridge.Managed.Object
import Mathlib.Data.Finset.Card
import Mathlib.Data.Finset.Range
import Mathlib.Logic.Relation

/-!
# Containment

Arrays, lists and sets hold objects, which may hold others.  `Holds` is this relation between the
references of a store, and a store is `Acyclic` if nothing holds itself, directly or through
others.

A new payload holds older objects only, so it closes no cycle.  An object that is put into a list
or a set closes one exactly if it leads back there (`acyclic_insert`).  In an acyclic store the
depth of containment is bounded by the number of payloads (`Sound.shallow`).

`Sound` is what the proofs about conversions and methods carry: the store is acyclic, and
collections hold known objects, whose tags fit their payloads and name no classes.
-/

namespace CellBridge

section Types

/-- Does the type name no class, not even as an element? -/
def Ty.plain : Ty → Bool
  | .object _ => false
  | .array e => e.plain
  | .list e => e.plain
  | .set e => e.plain
  | _ => true

/-- Objects of array, list and set types hold such a payload, and no others do. -/
def Ty.Fits : Ty → Payload → Prop
  | .array _, p => p.array?.isSome = true
  | .list _, p => p.list?.isSome = true
  | .set _, p => p.set?.isSome = true
  | _, p => p.items? = none

end Types

namespace Store

section Defs

/-- What the payload of a reference holds. -/
def contents
    (s : Store)
    (i : Nat) : List Object :=
  ((s.payloads.getD i .unit).items?).getD []

/-- Does the payload of the first reference hold the second one? -/
def Holds
    (s : Store)
    (i j : Nat) : Prop :=
  ∃ o ∈ s.contents i, o.id = j

/-- Does nothing hold itself, directly or through others? -/
def Acyclic
    (s : Store) : Prop :=
  ∀ i, ¬ Relation.TransGen s.Holds i i

/-- Does one get from the first reference to the second one by containment? -/
def Leads
    (s : Store)
    (i j : Nat) : Prop :=
  Relation.ReflTransGen s.Holds i j

/-- Are things nested at most `n` deep in what the reference holds? -/
def Shallow
    (s : Store) : Nat → Nat → Prop
  | 0, i => ∀ j, ¬ s.Holds i j
  | n + 1, i => ∀ j, s.Holds i j → s.Shallow n j

/-- The object refers into the store, and its tag fits. -/
structure Knows
    (s : Store)
    (o : Object) : Prop where
  bound : o.id < s.size
  fits : o.type.Fits (s.payload o)
  plain : o.type.plain = true

/-- Collections hold known objects, and none holds itself. -/
structure Sound
    (s : Store) : Prop where
  known : ∀ i, ∀ o ∈ s.contents i, s.Knows o
  acyclic : s.Acyclic

/-- The second store has the payloads of the first one, and perhaps more. -/
structure Extends
    (s s' : Store) : Prop where
  size_le : s.size ≤ s'.size
  same : ∀ i, i < s.size → s'.payloads.getD i .unit = s.payloads.getD i .unit

end Defs

section Growth

variable {s s' s'' : Store}

theorem Extends.refl
    (s : Store) :
    s.Extends s := by
  exact ⟨Nat.le_refl _, fun _ _ => rfl⟩

theorem Extends.trans
    (h : s.Extends s')
    (h' : s'.Extends s'') :
    s.Extends s'' := by
  refine ⟨Nat.le_trans h.size_le h'.size_le, ?_⟩
  intro i hi
  exact (h'.same i (Nat.lt_of_lt_of_le hi h.size_le)).trans (h.same i hi)

theorem Knows.extend
    {o : Object}
    (hk : s.Knows o)
    (h : s.Extends s') :
    s'.Knows o := by
  refine ⟨Nat.lt_of_lt_of_le hk.bound h.size_le, ?_, hk.plain⟩
  have hsame : s'.payload o = s.payload o := h.same o.id hk.bound
  rw [hsame]
  exact hk.fits

theorem contents_of_le
    {i : Nat}
    (hi : s.size ≤ i) :
    s.contents i = [] := by
  have hout : s.payloads[i]? = none := Array.getElem?_eq_none hi
  rw [contents, Array.getD_eq_getD_getElem?, hout]
  rfl

theorem Holds.lt
    {i j : Nat}
    (h : s.Holds i j) :
    i < s.size := by
  by_contra hge
  obtain ⟨o, ho, -⟩ := h
  rw [contents_of_le (Nat.le_of_not_lt hge)] at ho
  cases ho

theorem Holds.extend
    {i j : Nat}
    (hij : s.Holds i j)
    (h : s.Extends s') :
    s'.Holds i j := by
  obtain ⟨o, ho, hid⟩ := hij
  refine ⟨o, ?_, hid⟩
  rw [contents, h.same i (Holds.lt ⟨o, ho, hid⟩)]
  exact ho

/-- Cycles stay when the store grows. -/
theorem Extends.acyclic
    (h : s.Extends s')
    (hacyclic : s'.Acyclic) :
    s.Acyclic := by
  intro i hcycle
  refine hacyclic i (Relation.TransGen.mono ?_ i i hcycle)
  intro j k hjk
  exact hjk.extend h

theorem sound_empty :
    Store.empty.Sound := by
  have hempty : ∀ i, Store.empty.contents i = [] := by
    intro i
    exact contents_of_le (Nat.zero_le i)
  refine ⟨?_, ?_⟩
  · intro i o ho
    rw [hempty] at ho
    cases ho
  · intro i hcycle
    obtain ⟨j, ⟨o, ho, -⟩, -⟩ := Relation.TransGen.head'_iff.1 hcycle
    rw [hempty] at ho
    cases ho

end Growth

section Alloc

variable {s : Store} (t : Ty) (p : Payload)

theorem getD_alloc
    (i : Nat) :
    (s.alloc t p).2.payloads.getD i .unit =
      if i = s.size then p else s.payloads.getD i .unit := by
  show (s.payloads.push p).getD i .unit = _
  rw [Array.getD_eq_getD_getElem?, Array.getElem?_push, Array.getD_eq_getD_getElem?]
  show (if i = s.size then some p else s.payloads[i]?).getD .unit = _
  split <;> rfl

theorem extends_alloc :
    s.Extends (s.alloc t p).2 := by
  refine ⟨?_, ?_⟩
  · show s.payloads.size ≤ (s.payloads.push p).size
    rw [Array.size_push]
    exact Nat.le_succ _
  · intro i hi
    rw [getD_alloc, if_neg (Nat.ne_of_lt hi)]

theorem contents_alloc
    (i : Nat) :
    (s.alloc t p).2.contents i =
      if i = s.size then p.items?.getD [] else s.contents i := by
  rw [contents, getD_alloc]
  split <;> rfl

/-- A new payload may hold anything that is known. -/
theorem Sound.alloc
    (hs : s.Sound)
    (hitems : ∀ o ∈ p.items?.getD [], s.Knows o) :
    (s.alloc t p).2.Sound := by
  have hextends : s.Extends (s.alloc t p).2 := extends_alloc t p
  refine ⟨?_, ?_⟩
  · intro i o ho
    rw [contents_alloc] at ho
    split at ho
    · exact (hitems o ho).extend hextends
    · exact (hs.known i o ho).extend hextends
  · -- nothing holds the new payload, so a path from an old one stays among the old ones
    have hold : ∀ i j, (s.alloc t p).2.Holds i j →
        j < s.size ∧ (i < s.size → s.Holds i j) := by
      rintro i j ⟨o, ho, rfl⟩
      rw [contents_alloc] at ho
      split at ho
      · rename_i hi
        exact ⟨(hitems o ho).bound, fun hlt => absurd hi (Nat.ne_of_lt hlt)⟩
      · exact ⟨(hs.known i o ho).bound, fun _ => ⟨o, ho, rfl⟩⟩
    have hpath : ∀ i j, Relation.TransGen (s.alloc t p).2.Holds i j →
        j < s.size ∧ (i < s.size → Relation.TransGen s.Holds i j) := by
      intro i j hij
      induction hij with
      | single h =>
          exact ⟨(hold _ _ h).1, fun hi => .single ((hold _ _ h).2 hi)⟩
      | tail _ h ih =>
          exact ⟨(hold _ _ h).1, fun hi => .tail (ih.2 hi) ((hold _ _ h).2 ih.1)⟩
    intro i hcycle
    obtain ⟨hi, hin⟩ := hpath i i hcycle
    exact hs.acyclic i (hin hi)

theorem payload_alloc :
    (s.alloc t p).2.payload (s.alloc t p).1 = p := by
  show (s.alloc t p).2.payloads.getD s.size .unit = p
  rw [getD_alloc, if_pos rfl]

theorem lt_size_alloc :
    (s.alloc t p).1.id < (s.alloc t p).2.size := by
  show s.size < (s.payloads.push p).size
  rw [Array.size_push]
  exact Nat.lt_succ_self _

theorem knows_alloc
    (hfits : t.Fits p)
    (hplain : t.plain = true) :
    (s.alloc t p).2.Knows (s.alloc t p).1 := by
  refine ⟨lt_size_alloc t p, ?_, hplain⟩
  rw [payload_alloc]
  exact hfits

end Alloc

section Insertion

variable {s : Store} {o : Object} {p : Payload}

theorem getD_replace
    (hbound : o.id < s.size)
    (i : Nat) :
    (s.replace o p).payloads.getD i .unit =
      if i = o.id then p else s.payloads.getD i .unit := by
  show (s.payloads.setIfInBounds o.id p).getD i .unit = _
  rw [Array.getD_eq_getD_getElem?, Array.getElem?_setIfInBounds, Array.getD_eq_getD_getElem?]
  by_cases hi : o.id = i
  · subst hi
    have hbound' : o.id < s.payloads.size := hbound
    rw [if_pos rfl, if_pos hbound', if_pos rfl]
    rfl
  · rw [if_neg hi, if_neg (Ne.symm hi)]

theorem size_replace :
    (s.replace o p).size = s.size := by
  exact Array.size_setIfInBounds

theorem contents_replace
    (hbound : o.id < s.size)
    (i : Nat) :
    (s.replace o p).contents i = if i = o.id then p.items?.getD [] else s.contents i := by
  rw [contents, getD_replace hbound]
  split <;> rfl

/-- A payload of the same kind leaves all tags fitting. -/
theorem Knows.replace
    {x : Object}
    (hx : s.Knows x)
    (hbound : o.id < s.size)
    (hkind : ∀ t : Ty, t.Fits (s.payload o) → t.Fits p) :
    (s.replace o p).Knows x := by
  refine ⟨?_, ?_, hx.plain⟩
  · rw [size_replace]
    exact hx.bound
  · show x.type.Fits ((s.replace o p).payloads.getD x.id .unit)
    rw [getD_replace hbound]
    split
    · rename_i hid
      refine hkind x.type ?_
      have hfits := hx.fits
      rw [payload, hid] at hfits
      exact hfits
    · exact hx.fits

/-- A path that may use one edge more, from `a` to `b`. -/
theorem path_insert
    {r : Nat → Nat → Prop}
    {a b i j : Nat}
    (h : Relation.TransGen (fun x y => r x y ∨ x = a ∧ y = b) i j) :
    Relation.TransGen r i j ∨ Relation.ReflTransGen r i a ∧ Relation.ReflTransGen r b j := by
  induction h with
  | single hedge =>
      rcases hedge with hold | ⟨rfl, rfl⟩
      · exact Or.inl (.single hold)
      · exact Or.inr ⟨.refl, .refl⟩
  | tail _ hedge ih =>
      rcases hedge with hold | ⟨rfl, rfl⟩
      · rcases ih with hpath | ⟨hbefore, hafter⟩
        · exact Or.inl (hpath.tail hold)
        · exact Or.inr ⟨hbefore, hafter.tail hold⟩
      · rcases ih with hpath | ⟨hbefore, -⟩
        · exact Or.inr ⟨hpath.to_reflTransGen, .refl⟩
        · exact Or.inr ⟨hbefore, .refl⟩

/-- One edge more closes no cycle if its end does not lead back to its start. -/
theorem acyclic_insert
    {r : Nat → Nat → Prop}
    {a b : Nat}
    (hr : ∀ i, ¬ Relation.TransGen r i i)
    (hab : ¬ Relation.ReflTransGen r b a)
    (i : Nat) :
    ¬ Relation.TransGen (fun x y => r x y ∨ x = a ∧ y = b) i i := by
  intro hcycle
  rcases path_insert hcycle with hpath | ⟨hbefore, hafter⟩
  · exact hr i hpath
  · exact hab (hafter.trans hbefore)

/-- An object may be put into another one that it does not lead to. -/
theorem Sound.insert
    {x : Object}
    (hs : s.Sound)
    (ho : s.Knows o)
    (hx : s.Knows x)
    (hkind : ∀ t : Ty, t.Fits (s.payload o) → t.Fits p)
    (hitems : ∀ y ∈ p.items?.getD [], y ∈ s.contents o.id ∨ y = x)
    (hfree : ¬ s.Leads x.id o.id) :
    (s.replace o p).Sound := by
  refine ⟨?_, ?_⟩
  · intro i y hy
    rw [contents_replace ho.bound] at hy
    refine Knows.replace ?_ ho.bound hkind
    split at hy
    · rcases hitems y hy with hold | rfl
      · exact hs.known o.id y hold
      · exact hx
    · exact hs.known i y hy
  · intro i hcycle
    refine acyclic_insert hs.acyclic hfree i (Relation.TransGen.mono ?_ i i hcycle)
    rintro j k ⟨y, hy, rfl⟩
    rw [contents_replace ho.bound] at hy
    split at hy
    · rename_i hj
      subst hj
      rcases hitems y hy with hold | rfl
      · exact Or.inl ⟨y, hold, rfl⟩
      · exact Or.inr ⟨rfl, rfl⟩
    · exact Or.inl ⟨y, hy, rfl⟩

/-- An object that leads back to what it is put into closes a cycle. -/
theorem not_acyclic_insert
    {x : Object}
    (hbound : o.id < s.size)
    (hitems : ∀ y ∈ s.contents o.id, y ∈ p.items?.getD [])
    (hx : x ∈ p.items?.getD [])
    (hleads : s.Leads x.id o.id) :
    ¬ (s.replace o p).Acyclic := by
  intro hacyclic
  have hedge : (s.replace o p).Holds o.id x.id := by
    refine ⟨x, ?_, rfl⟩
    rw [contents_replace hbound, if_pos rfl]
    exact hx
  have hback : Relation.ReflTransGen (s.replace o p).Holds x.id o.id := by
    refine Relation.ReflTransGen.mono ?_ x.id o.id hleads
    rintro i j ⟨y, hy, rfl⟩
    refine ⟨y, ?_, rfl⟩
    rw [contents_replace hbound]
    split
    · rename_i hi
      exact hitems y (hi ▸ hy)
    · exact hy
  exact hacyclic o.id (Relation.TransGen.head' hedge hback)

end Insertion

section Depth

variable {s : Store}

theorem Shallow.acc
    {n i : Nat}
    (h : s.Shallow n i) :
    Acc (Function.swap s.Holds) i := by
  induction n generalizing i with
  | zero =>
      exact Acc.intro i fun j hj => absurd hj (h j)
  | succ n ih =>
      exact Acc.intro i fun j hj => ih (h j hj)

/-- What is held is nested less deep. -/
theorem Shallow.of_mem
    {n i : Nat}
    (h : s.Shallow n i)
    {o : Object}
    (ho : o ∈ s.contents i) :
    ∃ m, n = m + 1 ∧ s.Shallow m o.id := by
  cases n with
  | zero =>
      exact absurd ⟨o, ho, rfl⟩ (h o.id)
  | succ m =>
      exact ⟨m, rfl, h o.id ⟨o, ho, rfl⟩⟩

theorem Shallow.succ
    {n i : Nat}
    (h : s.Shallow n i) :
    s.Shallow (n + 1) i := by
  induction n generalizing i with
  | zero =>
      intro j hj
      exact absurd hj (h j)
  | succ n ih =>
      intro j hj
      exact ih (h j hj)

theorem Shallow.mono
    {m n i : Nat}
    (h : s.Shallow m i)
    (hle : m ≤ n) :
    s.Shallow n i := by
  induction hle with
  | refl =>
      exact h
  | step _ ih =>
      exact ih.succ

/-- Things are nested below a reference at most as deep as there are payloads that it leads to, if
none of these leads to itself. -/
theorem shallow_of_sources
    (n i : Nat)
    (hfree : ∀ j, s.Leads i j → ¬ Relation.TransGen s.Holds j j)
    (sources : Finset Nat)
    (hsources : ∀ j, j ∈ sources ↔ s.Leads i j ∧ j < s.size)
    (hcard : sources.card ≤ n) :
    s.Shallow n i := by
  classical
  induction n generalizing i sources with
  | zero =>
      intro j hj
      have hmem := (hsources i).2 ⟨.refl, hj.lt⟩
      rw [Finset.card_eq_zero.1 (Nat.le_zero.1 hcard)] at hmem
      cases hmem
  | succ n ih =>
      intro j hj
      -- `j` does not lead back to `i`, so it leads to fewer payloads
      have hback : ¬ s.Leads j i := by
        intro hji
        exact hfree i .refl (.head' hj hji)
      let below := sources.filter fun k => s.Leads j k
      have hbelow : ∀ k, k ∈ below ↔ s.Leads j k ∧ k < s.size := by
        intro k
        rw [Finset.mem_filter, hsources]
        exact ⟨fun h => ⟨h.2, h.1.2⟩, fun h => ⟨⟨.head hj h.1, h.2⟩, h.1⟩⟩
      have hssub : below ⊂ sources :=
        Finset.filter_ssubset.2 ⟨i, (hsources i).2 ⟨.refl, hj.lt⟩, hback⟩
      have hlt := Finset.card_lt_card hssub
      exact ih j (fun k hk => hfree k (.head hj hk)) below hbelow (by omega)

/-- Below a reference things are nested no deeper than there are payloads, if nothing there leads to
itself. -/
theorem shallow_of_free
    {i : Nat}
    (hfree : ∀ j, s.Leads i j → ¬ Relation.TransGen s.Holds j j) :
    s.Shallow s.size i := by
  classical
  refine shallow_of_sources s.size i hfree
    ((Finset.range s.size).filter fun j => s.Leads i j) ?_ ?_
  · intro j
    rw [Finset.mem_filter, Finset.mem_range, and_comm]
  · have hle := Finset.card_filter_le (Finset.range s.size) fun j => s.Leads i j
    rwa [Finset.card_range] at hle

/-- Containment is nested no deeper than there are payloads. -/
theorem Sound.shallow
    (hs : s.Sound)
    (i : Nat) :
    s.Shallow s.size i := by
  exact shallow_of_free fun j _ => hs.acyclic j

/-- Going from things to what they hold comes to an end. -/
theorem Sound.wellFounded
    (hs : s.Sound) :
    WellFounded (Function.swap s.Holds) := by
  exact ⟨fun i => (hs.shallow i).acc⟩

end Depth

end Store
end CellBridge
