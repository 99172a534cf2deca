import CellBridge.Conversion.Standard
import CellBridge.Proofs.Call.Resolution
import CellBridge.Proofs.Conversion.CatalogOrder

/-!
# Sums of priorities

A candidate carries the sum of the priorities of its rules.  It is the true sum, since a candidate
is built only where every partial sum is a number of thirty-two bits; otherwise building overflows,
and with it the resolution of the call, outside of any guard.  Candidates of equal specificity stand
in the order of these sums.

No partial sum leaves the range while the number of arguments times the largest priority stays in
it.  Priorities are free otherwise: a rule of the largest priority, used for two arguments, ends the
call although another candidate would fit (`sums_overflow_desk`).
-/

namespace CellBridge

section Candidates

variable {c : Catalog} {shapes : List Shape} {m : Method} {cand : Candidate}

/-- Between candidates of equal specificity the priorities decide. -/
theorem Candidate.TriedBefore.ranked
    {a b : Candidate}
    (hbefore : a.TriedBefore b) :
    b.specificity < a.specificity ∨
      a.specificity = b.specificity ∧ b.priority.toInt ≤ a.priority.toInt := by
  rcases hbefore with hnarrower | ⟨hequal, hhigher | ⟨hpriority, -⟩⟩
  · exact Or.inl hnarrower
  · exact Or.inr ⟨hequal, Int.le_of_lt (Int32.lt_iff_toInt_lt.1 hhigher)⟩
  · exact Or.inr ⟨hequal, Int.le_of_eq (congrArg Int32.toInt hpriority.symm)⟩

/-- The priority of a candidate that is built is the true sum of the priorities of its rules, and
all partial sums are in range.  A method with a rule for each argument whose sums are not in range,
or whose ranks are too large, makes building overflow, and resolution with it.  The sums are in
range where the number of arguments times the largest priority is.  Of candidates of equal
specificity the one with the larger true sum is tried first. -/
theorem priority_sums
    (c : Catalog)
    (shapes : List Shape) :
    (∀ m order,
      (∀ cand, Candidate.build c shapes m order = .ok cand →
        cand.rules = m.rulesFor c shapes ∧ cand.priority.toInt = prioritySum cand.rules ∧
          ∀ k, InRange (prioritySum (cand.rules.take k))) ∧
      (Candidate.build c shapes m order = .error .overflowed ↔
        m.firstMiss? c shapes = none ∧ ¬ m.Fits c shapes) ∧
      ∀ bound : Nat, (∀ r ∈ c.rules, r.priority.toInt.natAbs ≤ bound) →
        shapes.length * bound < 2 ^ 31 →
          ∀ k, InRange (prioritySum ((m.rulesFor c shapes).take k))) ∧
    ∀ r t member staticsOnly,
      (resolve c r t member shapes staticsOnly = .error .overflow ↔
        ∃ m ∈ visibleMethods r t member staticsOnly, m.Takes c shapes ∧ ¬ m.Fits c shapes) ∧
      ∀ cands, resolve c r t member shapes staticsOnly = .ok cands →
        cands.Pairwise fun a b => b.specificity < a.specificity ∨
          a.specificity = b.specificity ∧ prioritySum b.rules ≤ prioritySum a.rules := by
  refine ⟨fun m order => ⟨?_, build_eq_overflowed_iff, ?_⟩,
    fun r t member staticsOnly => ⟨resolve_eq_overflow_iff, ?_⟩⟩
  · intro cand hbuild
    obtain ⟨-, hserves, -, hfits⟩ := serves_of_build hbuild
    have hrules : cand.rules = m.rulesFor c shapes := eq_rulesFor_of_map_some hserves.rules
    exact ⟨hrules, hserves.priority, hrules ▸ hfits.priority⟩
  · intro bound hbound hsmall
    exact m.inRange_rulesFor hbound hsmall
  · intro cands hresolve
    have hexact : ∀ cand ∈ cands, cand.priority.toInt = prioritySum cand.rules := by
      intro cand hcand
      obtain ⟨m, -, -, hserves⟩ := serves_of_resolve hresolve hcand
      exact hserves.priority
    refine (triedBefore_of_resolve hresolve).imp_of_mem ?_
    intro a b ha hb hbefore
    rcases hbefore.ranked with hnarrower | ⟨hequal, hpriority⟩
    · exact Or.inl hnarrower
    · rw [hexact a ha, hexact b hb] at hpriority
      exact Or.inr ⟨hequal, hpriority⟩

end Candidates

section Desk

/-! Numbers go to truth values by a rule of the largest priority that there is, and to doubles by
one of a common priority. -/

def deskCatalog : Catalog :=
  .ofRules [loudRule, plainRule "quiet" .number .double Priority.standard]

/-- With one argument the sum is the largest priority that there is, and its candidate is tried
first. -/
theorem priority_sums_desk :
    ∃ loud quiet : Candidate,
      resolve deskCatalog (desk [picking [.bool], picking [.double]]) deskType "pick" [.number]
          true = .ok [loud, quiet] ∧
        loud.specificity = quiet.specificity ∧ loud.priority.toInt = prioritySum loud.rules ∧
        prioritySum loud.rules = 2 ^ 31 - 1 ∧ prioritySum quiet.rules ≤ prioritySum loud.rules := by
  obtain ⟨hbuild, hresolve⟩ := priority_sums deskCatalog [.number]
  have hfound : resolve deskCatalog (desk [picking [.bool], picking [.double]]) deskType "pick"
      [.number] true = .ok [_, _] :=
    resolve_sorted rfl rfl rfl (List.pairwise_pair.2 rfl)
  have hloud := (hbuild (picking [.bool]) 0).1 _ rfl
  have hordered := List.pairwise_pair.1 ((hresolve _ deskType "pick" true).2 _ hfound)
  refine ⟨_, _, hfound, rfl, hloud.2.1, rfl, ?_⟩
  rcases hordered with hnarrower | ⟨-, hsums⟩
  · exact absurd hnarrower (by decide)
  · exact hsums

/-- One method would use the one rule twice, and the other method the other one. -/
def mixedDesk : Registry :=
  desk [picking [.double, .double], pickFlags]

/-- The true sum for two truth values is no number of thirty-two bits.  So there is no candidate for
them that could be tried before the one for two doubles, and the call ends. -/
theorem sums_overflow_desk :
    let shapes := [Shape.number, Shape.number]
    let found := resolve deskCatalog mixedDesk deskType "pick" shapes true
    prioritySum (pickFlags.rulesFor deskCatalog shapes) = 2 ^ 32 - 2 ∧
      ¬ InRange (prioritySum (pickFlags.rulesFor deskCatalog shapes)) ∧
      Candidate.build deskCatalog shapes pickFlags 1 = .error .overflowed ∧
      (∃ cand, Candidate.build deskCatalog shapes (picking [.double, .double]) 0 = .ok cand ∧
        prioritySum cand.rules = 20) ∧
      found = .error .overflow ∧ ¬ ∃ cands, found = .ok cands := by
  intro shapes found
  have hbuild : Candidate.build deskCatalog [.number, .number] pickFlags 1 = .error .overflowed :=
    rfl
  have hover : found = .error .overflow := resolve_of_overflowed 1 rfl rfl hbuild
  refine ⟨rfl, by decide, hbuild, ⟨_, rfl, rfl⟩, hover, ?_⟩
  rw [hover]
  rintro ⟨cands, h⟩
  cases h

end Desk

end CellBridge
