import CellBridge.Conversion.Standard
import CellBridge.Proofs.Call.Resolution
import CellBridge.Proofs.Managed.Hierarchy
import Mathlib.Algebra.Order.BigOperators.Group.List
import Mathlib.Algebra.Order.Group.Nat

/-!
# Narrower overloads

One of two methods is `Narrower` if it wants subtypes of what the other one wants, and a proper
subtype somewhere.  In a hierarchy of classes its candidates have the larger specificity
(`Candidate.Serves.specificity_lt`), so it is tried first where candidates are found at all,
whatever the priorities of the rules, the kind of the methods and the order of their declaration:
`narrower_first`.  None are found where a sum does not fit, `narrower_overflows`.
-/

namespace CellBridge

section Defs

/-- On `n` arguments the first method wants subtypes of what the second one wants, at least once a
proper one. -/
structure Method.Narrower
    (classes : Set ManagedClass)
    (n : Nat)
    (m m' : Method) : Prop where
  within : ∀ i < n, (m.target i).Within classes ∧ (m'.target i).Within classes
  fits : ∀ i < n, (m'.target i).accepts (m.target i) = true
  proper : ∃ i < n, (m'.target i == m.target i) = false

end Defs

section Overloads

variable {classes : Set ManagedClass} {c : Catalog} {shapes : List Shape} {m m' : Method}

/-- The candidate for the narrower method has the larger specificity. -/
theorem Candidate.Serves.specificity_lt
    {cand cand' : Candidate}
    (hserves : cand.Serves c shapes m)
    (hserves' : cand'.Serves c shapes m')
    (hclasses : IsHierarchy classes)
    (hnarrower : m.Narrower classes shapes.length m') :
    cand'.specificity < cand.specificity := by
  have hbound : ∀ arg ∈ shapes.zipIdx, arg.2 < shapes.length := by
    intro arg harg
    exact (List.getElem?_eq_some_iff.1 (List.mem_zipIdx_iff_getElem?.1 harg)).1
  rw [UInt32.lt_iff_toNat_lt, hserves.specificity, hserves'.specificity, hserves.targets,
    hserves'.targets, List.map_map, List.map_map]
  refine List.sum_lt_sum _ _ ?_ ?_
  · intro arg harg
    obtain ⟨hwithin, hwithin'⟩ := hnarrower.within arg.2 (hbound arg harg)
    exact hclasses.rank_le hwithin' hwithin (hnarrower.fits arg.2 (hbound arg harg))
  · obtain ⟨i, hi, hproper⟩ := hnarrower.proper
    obtain ⟨hwithin, hwithin'⟩ := hnarrower.within i hi
    refine ⟨(shapes[i], i), List.mem_zipIdx_iff_getElem?.2 (List.getElem?_eq_getElem hi), ?_⟩
    exact hclasses.rank_lt hwithin' hwithin (hnarrower.fits i hi) hproper

/-- Of two candidates the one with the larger specificity stands first. -/
theorem index_lt_of_specificity_lt
    {cands : List Candidate}
    (hsorted : cands.Pairwise Candidate.TriedBefore)
    {cand cand' : Candidate}
    (hcand : cand ∈ cands)
    (hcand' : cand' ∈ cands)
    (hlt : cand'.specificity < cand.specificity) :
    ∃ i j : Nat, i < j ∧ cands[i]? = some cand ∧ cands[j]? = some cand' := by
  obtain ⟨i, hi, rfl⟩ := List.getElem_of_mem hcand
  obtain ⟨j, hj, rfl⟩ := List.getElem_of_mem hcand'
  refine ⟨i, j, ?_, List.getElem?_eq_getElem hi, List.getElem?_eq_getElem hj⟩
  rcases Nat.lt_trichotomy i j with hij | rfl | hji
  · exact hij
  · exact absurd hlt (UInt32.lt_irrefl _)
  · rcases List.pairwise_iff_getElem.1 hsorted j i hj hi hji with hbefore | ⟨heq, -⟩
    · exact absurd hlt (UInt32.lt_asymm hbefore)
    · exact absurd hlt (heq ▸ UInt32.lt_irrefl _)

/-- A proper subtype has the larger specificity, if it has one. -/
theorem specificity?_lt
    (hclasses : IsHierarchy classes)
    {a b : Ty}
    (ha : a.Within classes)
    (hb : b.Within classes)
    (haccepts : a.accepts b = true)
    (hne : (a == b) = false)
    {n : UInt32}
    (hn : b.specificity? = some n) :
    ∃ k, a.specificity? = some k ∧ k < n := by
  have hlt := hclasses.rank_lt ha hb haccepts hne
  rw [← (b.specificity?_counts n).1 hn] at hlt
  obtain ⟨k, hk⟩ := Option.isSome_iff_exists.1
    (a.specificity?_counts.isSome_iff.2 (Nat.lt_trans hlt n.toNat_lt))
  refine ⟨k, hk, UInt32.lt_iff_toNat_lt.2 ?_⟩
  rwa [(a.specificity?_counts k).1 hk]

/-- In a hierarchy of classes a proper subtype has the larger rank, and the larger specificity if
its rank can be counted.  So of two overloads that take the arguments the narrower one is tried
first if all sums fit, and if they do not, none is tried. -/
theorem narrower_first
    (hclasses : IsHierarchy classes) :
    (∀ a b : Ty, a.Within classes → b.Within classes → a.accepts b = true → (a == b) = false →
      a.rank < b.rank ∧
        ∀ n, b.specificity? = some n → ∃ k, a.specificity? = some k ∧ k < n) ∧
    ∀ (c : Catalog) (r : Registry) (t : Ty) (member : String) (shapes : List Shape)
      (staticsOnly : Bool) (m m' : Method) (k k' : Nat),
      (visibleMethods r t member staticsOnly)[k]? = some m →
      (visibleMethods r t member staticsOnly)[k']? = some m' →
      m.Takes c shapes → m'.Takes c shapes → m.Narrower classes shapes.length m' →
      (AllFit c shapes (visibleMethods r t member staticsOnly) →
        ∃ cands, resolve c r t member shapes staticsOnly = .ok cands ∧
          ∃ (i j : Nat) (cand cand' : Candidate), i < j ∧ cands[i]? = some cand ∧
            cands[j]? = some cand' ∧ cand.method = m ∧ cand.order = k ∧ cand'.method = m' ∧
            cand'.order = k') ∧
      (¬ AllFit c shapes (visibleMethods r t member staticsOnly) →
        resolve c r t member shapes staticsOnly = .error .overflow) := by
  refine ⟨fun a b ha hb haccepts hne => ?_, ?_⟩
  · exact ⟨hclasses.rank_lt ha hb haccepts hne,
      fun n hn => specificity?_lt hclasses ha hb haccepts hne hn⟩
  intro c r t member shapes staticsOnly m m' k k' hm hm' htakes htakes' hnarrower
  refine ⟨?_, resolve_eq_overflow⟩
  intro hfit
  obtain ⟨cand, hcand, rfl⟩ := (exists_mem_builtCandidates hfit).2 ⟨m, hm, htakes⟩
  obtain ⟨cand', hcand', rfl⟩ := (exists_mem_builtCandidates hfit).2 ⟨m', hm', htakes'⟩
  have hserves := serves_of_getElem? hcand hm
  have hserves' := serves_of_getElem? hcand' hm'
  have hlt := hserves.specificity_lt hserves' hclasses hnarrower
  obtain ⟨i, j, hij, hi, hj⟩ := index_lt_of_specificity_lt (triedBefore_sorted _)
    (mem_sorted.2 hcand) (mem_sorted.2 hcand') hlt
  exact ⟨_, resolve_eq_ok hfit (List.ne_nil_of_mem hcand), i, j, cand, cand', hij, hi, hj,
    hserves.method, rfl, hserves'.method, rfl⟩

section Zoo

/-! A method for animals and one for birds, both given a handle. -/

/-- The root of a small hierarchy. -/
def animal : ManagedClass :=
  .root "Animal"

def bird : ManagedClass :=
  .extending "Bird" animal

/-- A method that takes one object of the given class. -/
def feeding
    (c : ManagedClass) : Method :=
  .staticMethod "feed" [.object c] .void fun _ _ => Action.create .void .unit

/-- The method for animals is declared first. -/
def zoo : Registry :=
  .register .empty
    (((ClassDescriptor.ofType (.object animal)).withMethod (feeding animal)).withMethod
      (feeding bird))

theorem isHierarchy_zoo :
    IsHierarchy {animal, bird} := by
  refine ⟨?_, ?_⟩
  · rintro c (rfl | rfl) parent above h
    · cases h
    · cases h
      exact ⟨animal, Or.inl rfl, rfl, rfl⟩
  · rintro c (rfl | rfl) d (rfl | rfl) h
    · rfl
    · exact absurd h (by decide)
    · exact absurd h (by decide)
    · rfl

theorem takes_feeding
    (c : ManagedClass) :
    (feeding c).Takes standardCatalog [.handle] := by
  refine ⟨rfl, ?_⟩
  intro arg harg
  cases List.mem_singleton.1 harg
  rfl

theorem narrower_feeding :
    (feeding bird).Narrower {animal, bird} 1 (feeding animal) := by
  refine ⟨?_, ?_, 0, Nat.one_pos, by decide⟩
  · intro i hi
    cases Nat.lt_one_iff.1 hi
    exact ⟨Or.inr rfl, Or.inl rfl⟩
  · intro i hi
    cases Nat.lt_one_iff.1 hi
    decide

/-- The method for birds is tried first. -/
theorem narrower_first_zoo :
    ∃ cands, resolve standardCatalog zoo (.object animal) "feed" [.handle] true = .ok cands ∧
      ∃ (i j : Nat) (cand cand' : Candidate), i < j ∧ cands[i]? = some cand ∧
        cands[j]? = some cand' ∧ cand.method = feeding bird ∧ cand.order = 1 ∧
        cand'.method = feeding animal ∧ cand'.order = 0 := by
  have hfirst := (narrower_first isHierarchy_zoo).2 standardCatalog zoo (.object animal) "feed"
    [.handle] true (feeding bird) (feeding animal) 1 0 rfl rfl (takes_feeding bird)
    (takes_feeding animal) narrower_feeding
  exact hfirst.1 (allFit_iff.2 rfl)

end Zoo

section Desk

/-! Numbers become doubles by a rule of the largest priority that there is, and a double does for
any object. -/

def loudDoubles : Catalog :=
  .register .empty (plainRule "loud" .number .double 2147483647)

/-- The wide overload is declared first. -/
def doubleDesk : Registry :=
  desk [picking [.any, .any], picking [.double, .double]]

/-- The narrower overload takes two numbers, as the wider one does, and neither is tried first,
since the sums for both of them overflow. -/
theorem narrower_overflows :
    let visible := visibleMethods doubleDesk deskType "pick" true
    let found := resolve loudDoubles doubleDesk deskType "pick" [.number, .number] true
    visible = [picking [.any, .any], picking [.double, .double]] ∧
      (∀ m ∈ visible, m.Takes loudDoubles [.number, .number]) ∧
      (picking [.double, .double]).Narrower ∅ 2 (picking [.any, .any]) ∧
      found = .error .overflow ∧ ¬ ∃ cands, found = .ok cands := by
  intro visible found
  have hbuild : Candidate.build loudDoubles [.number, .number] (picking [.any, .any]) 0 =
      .error .overflowed := rfl
  have hover : found = .error .overflow := resolve_of_overflowed 0 rfl rfl hbuild
  refine ⟨rfl, ?_, ⟨?_, ?_, 0, Nat.two_pos, by decide⟩, hover, ?_⟩
  · intro m hm
    have hcases : m = picking [.any, .any] ∨ m = picking [.double, .double] := by
      simpa using (show m ∈ [picking [.any, .any], picking [.double, .double]] from hm)
    rcases hcases with rfl | rfl <;> exact ⟨rfl, by decide⟩
  · intro i hi
    rcases i with _ | _ | i <;> exact ⟨trivial, trivial⟩
  · intro i hi
    rcases i with _ | _ | i <;> rfl
  · rw [hover]
    rintro ⟨cands, h⟩
    cases h

end Desk

end Overloads

end CellBridge
