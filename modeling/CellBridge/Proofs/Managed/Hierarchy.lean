import CellBridge.Proofs.Managed.Ranks
import Mathlib.Data.Set.Basic

/-!
# Hierarchies of classes

In a hierarchy the parent of a class is a class, and the name of a class determines its ancestors.
So where a class name occurs in a chain, the ancestors of that class follow
(`ancestors_of_chain`), and going down to a proper subtype raises the rank of a type:
`rank_lt`.
-/

namespace CellBridge

section Defs

/-- Classes of which each has its parent among them, and whose ancestors the name determines. -/
structure IsHierarchy
    (classes : Set ManagedClass) : Prop where
  parents : ∀ c ∈ classes, ∀ parent above, c.ancestors = parent :: above →
    ∃ p ∈ classes, p.name = parent ∧ p.ancestors = above
  determined : ∀ c ∈ classes, ∀ d ∈ classes, c.name = d.name → c.ancestors = d.ancestors

/-- All classes that occur in the type are among the given ones. -/
def Ty.Within
    (classes : Set ManagedClass) : Ty → Prop
  | .object c => c ∈ classes
  | .array e => e.Within classes
  | .list e => e.Within classes
  | .set e => e.Within classes
  | _ => True

end Defs

namespace IsHierarchy

variable {classes : Set ManagedClass} {c d : ManagedClass}

section Classes

/-- Where the name of a class stands in a chain, the ancestors of the class follow. -/
theorem ancestors_of_chain
    (hclasses : IsHierarchy classes)
    (hc : c ∈ classes)
    (hd : d ∈ classes)
    {below above : List String}
    (hchain : d.chain = below ++ c.name :: above) :
    above = c.ancestors := by
  induction below generalizing d with
  | nil =>
      obtain ⟨hname, rfl⟩ := List.cons.inj hchain
      exact hclasses.determined d hd c hc hname
  | cons name below ih =>
      obtain ⟨-, hancestors⟩ := List.cons.inj hchain
      cases below with
      | nil =>
          obtain ⟨p, hp, hname, rfl⟩ := hclasses.parents d hd _ _ hancestors
          exact hclasses.determined p hp c hc hname
      | cons parent below =>
          obtain ⟨p, hp, rfl, habove⟩ := hclasses.parents d hd _ _ hancestors
          refine ih hp ?_
          rw [ManagedClass.chain, habove]
          rfl

/-- A proper subclass lies deeper. -/
theorem length_chain_lt
    (hclasses : IsHierarchy classes)
    (hc : c ∈ classes)
    (hd : d ∈ classes)
    (hsub : d.isSubclassOf c = true)
    (hne : c.name ≠ d.name) :
    c.chain.length < d.chain.length := by
  obtain ⟨below, above, hchain⟩ := List.append_of_mem (List.contains_iff_mem.1 hsub)
  have habove := hclasses.ancestors_of_chain hc hd hchain
  cases below with
  | nil =>
      exact absurd (List.cons.inj hchain).1.symm hne
  | cons name below =>
      rw [hchain, habove, List.length_append, List.length_cons, ManagedClass.chain]
      omega

end Classes

section Types

variable {a b : Ty}

/-- Equal types have the same rank. -/
theorem rank_eq
    (hclasses : IsHierarchy classes)
    (ha : a.Within classes)
    (hb : b.Within classes)
    (heq : (a == b) = true) :
    a.rank = b.rank := by
  induction a generalizing b with
  | array e ih =>
      cases b with
      | array f =>
          exact congrArg (1 + ·) (ih (b := f) ha hb heq)
      | _ =>
          cases heq
  | list e ih =>
      cases b with
      | list f =>
          exact congrArg (1 + ·) (ih (b := f) ha hb heq)
      | _ =>
          cases heq
  | set e ih =>
      cases b with
      | set f =>
          exact congrArg (1 + ·) (ih (b := f) ha hb heq)
      | _ =>
          cases heq
  | object c =>
      cases b with
      | object d =>
          have hancestors := hclasses.determined c ha d hb (beq_iff_eq.1 heq)
          rw [Ty.rank, Ty.rank, ManagedClass.chain, ManagedClass.chain, hancestors,
            List.length_cons, List.length_cons]
      | _ =>
          cases heq
  | _ =>
      cases b <;> first
        | rfl
        | cases heq

/-- A proper subtype has a larger rank. -/
theorem rank_lt
    (hclasses : IsHierarchy classes)
    (ha : a.Within classes)
    (hb : b.Within classes)
    (haccepts : a.accepts b = true)
    (hne : (a == b) = false) :
    a.rank < b.rank := by
  induction a generalizing b with
  | any =>
      cases b with
      | any =>
          cases hne
      | _ =>
          simp only [Ty.rank]
          omega
  | array e ih =>
      cases b with
      | array f =>
          exact Nat.add_lt_add_left (ih (b := f) ha hb haccepts hne) 1
      | _ =>
          cases haccepts
  | list e ih =>
      cases b with
      | list f =>
          exact Nat.add_lt_add_left (ih (b := f) ha hb haccepts hne) 1
      | _ =>
          cases haccepts
  | set e ih =>
      cases b with
      | set f =>
          exact Nat.add_lt_add_left (ih (b := f) ha hb haccepts hne) 1
      | _ =>
          cases haccepts
  | object c =>
      cases b with
      | object d =>
          have hname : c.name ≠ d.name := by
            exact beq_eq_false_iff_ne.1 hne
          exact Nat.add_lt_add_left (hclasses.length_chain_lt ha hb haccepts hname) 1
      | _ =>
          cases haccepts
  | _ =>
      -- scalars accept nothing but themselves
      cases b <;> cases haccepts
      cases hne

theorem rank_le
    (hclasses : IsHierarchy classes)
    (ha : a.Within classes)
    (hb : b.Within classes)
    (haccepts : a.accepts b = true) :
    a.rank ≤ b.rank := by
  cases hne : a == b with
  | true =>
      exact Nat.le_of_eq (hclasses.rank_eq ha hb hne)
  | false =>
      exact Nat.le_of_lt (hclasses.rank_lt ha hb haccepts hne)

end Types

end IsHierarchy

end CellBridge
