import CellBridge.Proofs.Call.Sums
import Mathlib.Algebra.Order.BigOperators.Group.List
import Mathlib.Algebra.Order.Group.Nat
import Mathlib.Data.List.Forall2

/-!
# What resolution finds

Resolution turns the visible methods of a name into candidates.  A method `Takes` arguments of the
given shapes if it takes their number and the catalog has a rule for each of them; it `Fits` if the
sums of ranks and priorities that this calls for do.  The candidate for it `Serves` it, with the
true sums.  `TriedBefore` is the order in which candidates are tried.

What is built for one method is said by `build_eq_error`, `build_serves` and `build_overflows`, what
is built for all of them by `exists_mem_builtCandidates` and `serves_of_mem`.  Where all sums fit,
there is one candidate for each visible method that takes the arguments, in the order of trying
(`candidates_of_resolve`), and a failure if there is none (`resolve_failed_iff`).  One sum that does
not fit is the end of the resolution (`resolve_eq_overflow_iff`).  `resolve_exact` puts this together,
and `resolution_overflows` is a case of the last kind.
-/

namespace CellBridge

section Defs

/-- The rule for an argument, given by its shape and its position. -/
def Method.ruleFor?
    (c : Catalog)
    (m : Method)
    (arg : Shape × Nat) : Option Rule :=
  c.findByShape? arg.1 (m.target arg.2)

/-- The method takes the number of arguments, and each of them has a rule. -/
structure Method.Takes
    (c : Catalog)
    (shapes : List Shape)
    (m : Method) : Prop where
  arity : m.acceptsArity shapes.length = true
  ruled : ∀ arg ∈ shapes.zipIdx, (m.ruleFor? c arg).isSome = true

/-- The first argument for which the method has no rule. -/
def Method.firstMiss?
    (c : Catalog)
    (shapes : List Shape)
    (m : Method) : Option (Shape × Nat) :=
  shapes.zipIdx.find? fun arg => (m.ruleFor? c arg).isNone

/-- The rules for the arguments, without those that have none. -/
def Method.rulesFor
    (c : Catalog)
    (shapes : List Shape)
    (m : Method) : List Rule :=
  shapes.zipIdx.filterMap (m.ruleFor? c)

/-- The sum of the ranks of the targets fits thirty-two bits, and so does every partial sum of the
priorities of the rules. -/
structure Method.Fits
    (c : Catalog)
    (shapes : List Shape)
    (m : Method) : Prop where
  specificity : (shapes.zipIdx.map fun arg => (m.target arg.2).rank).sum < 2 ^ 32
  priority : ∀ k, InRange (prioritySum ((m.rulesFor c shapes).take k))

/-- All methods that take the arguments fit. -/
def AllFit
    (c : Catalog)
    (shapes : List Shape)
    (methods : List Method) : Prop :=
  ∀ m ∈ methods, m.Takes c shapes → m.Fits c shapes

/-- The candidate stands for the method: it converts each argument to the type that the method
wants, by the rule that the catalog gives.  Its specificity and its priority are the true sums. -/
structure Candidate.Serves
    (c : Catalog)
    (shapes : List Shape)
    (m : Method)
    (cand : Candidate) : Prop where
  method : cand.method = m
  targets : cand.targets = shapes.zipIdx.map fun arg => m.target arg.2
  rules : cand.rules.map some = shapes.zipIdx.map (m.ruleFor? c)
  returnRule : cand.returnRule = c.findByType? m.returns
  specificity : cand.specificity.toNat = (cand.targets.map Ty.rank).sum
  priority : cand.priority.toInt = prioritySum cand.rules

/-- The candidate has the larger specificity, or else the larger priority, or else the method of
fixed arity, or else the method that is visible first. -/
def Candidate.TriedBefore
    (a b : Candidate) : Prop :=
  b.specificity < a.specificity ∨ a.specificity = b.specificity ∧
    (b.priority < a.priority ∨ a.priority = b.priority ∧
      (a.method.isVariadic = false ∧ b.method.isVariadic = true ∨
        a.method.isVariadic = b.method.isVariadic ∧ a.order < b.order))

/-- The failure of a call for which there is no candidate. -/
inductive Unresolved
    (c : Catalog)
    (visible : List Method)
    (t : Ty)
    (member : String)
    (shapes : List Shape) : BridgeError → Prop
  /-- No method of the name is visible. -/
  | unknown
      (hnone : visible = []) :
      Unresolved c visible t member shapes (.unknownMember t.display member)
  /-- Some method takes the number of arguments; the first one of them has no rule for `arg`. -/
  | missing
      {m : Method}
      {arg : Shape × Nat}
      (hfirst : visible.find? (fun m => m.acceptsArity shapes.length) = some m)
      (hmiss : m.firstMiss? c shapes = some arg) :
      Unresolved c visible t member shapes
        (.noCompatibleConverter arg.1 (m.target arg.2).display)
  /-- There are methods of the name, but none for the number of arguments. -/
  | unmatched
      (hsome : visible ≠ [])
      (harity : ∀ m ∈ visible, m.acceptsArity shapes.length = false) :
      Unresolved c visible t member shapes (.noSuccessfulOverload t.display member shapes.length 0)

end Defs

section Building

variable {c : Catalog} {m : Method} {shapes : List Shape}

/-- Arguments that all have a rule. -/
theorem routes_eq_ok
    {i : Nat}
    (hruled : ∀ arg ∈ shapes.zipIdx i, (m.ruleFor? c arg).isSome = true) :
    ∃ routes, Candidate.routes c m i shapes = .ok routes ∧
      routes.map Prod.fst = (shapes.zipIdx i).map (fun arg => m.target arg.2) ∧
      (routes.map Prod.snd).map some = (shapes.zipIdx i).map (m.ruleFor? c) := by
  induction shapes generalizing i with
  | nil =>
      exact ⟨[], rfl, rfl, rfl⟩
  | cons s ss ih =>
      rw [List.zipIdx_cons] at hruled ⊢
      obtain ⟨r, hr⟩ := Option.isSome_iff_exists.1 (hruled (s, i) List.mem_cons_self)
      obtain ⟨routes, hroutes, htargets, hrules⟩ :=
        ih fun arg harg => hruled arg (List.mem_cons_of_mem _ harg)
      have hfound : c.findByShape? s (m.target i) = some r := hr
      refine ⟨(m.target i, r) :: routes, ?_, ?_, ?_⟩
      · rw [Candidate.routes, hfound, hroutes]
        rfl
      · rw [List.map_cons, List.map_cons, htargets]
      · rw [List.map_cons, List.map_cons, List.map_cons, hrules, hr]

/-- The first argument that has no rule. -/
theorem routes_eq_error
    {i : Nat}
    {arg : Shape × Nat}
    (hmiss : (shapes.zipIdx i).find? (fun arg => (m.ruleFor? c arg).isNone) = some arg) :
    Candidate.routes c m i shapes = .error { shape := arg.1, target := m.target arg.2 } := by
  induction shapes generalizing i with
  | nil =>
      cases hmiss
  | cons s ss ih =>
      rw [List.zipIdx_cons, List.find?_cons] at hmiss
      rw [Candidate.routes]
      cases hr : c.findByShape? s (m.target i) with
      | none =>
          rw [Method.ruleFor?, hr] at hmiss
          cases hmiss
          rfl
      | some r =>
          rw [Method.ruleFor?, hr] at hmiss
          rw [ih hmiss]
          rfl

theorem firstMiss?_eq_none_iff :
    m.firstMiss? c shapes = none ↔ ∀ arg ∈ shapes.zipIdx, (m.ruleFor? c arg).isSome = true := by
  rw [Method.firstMiss?, List.find?_eq_none]
  refine forall₂_congr fun arg _ => ?_
  cases m.ruleFor? c arg <;> simp

/-- A method that has no rule for some argument gives no candidate. -/
theorem build_eq_error
    {arg : Shape × Nat}
    (hmiss : m.firstMiss? c shapes = some arg)
    (order : Nat) :
    Candidate.build c shapes m order =
      .error (.missed { shape := arg.1, target := m.target arg.2 }) := by
  rw [Candidate.build, routes_eq_error hmiss]

theorem eq_rulesFor_of_map_some
    {rules : List Rule}
    (h : rules.map some = shapes.zipIdx.map (m.ruleFor? c)) :
    rules = m.rulesFor c shapes := by
  calc rules
      = (rules.map some).filterMap id := by
        rw [List.filterMap_map, Function.id_comp, List.filterMap_some]
    _ = m.rulesFor c shapes := by
        rw [h, List.filterMap_map, Function.id_comp, Method.rulesFor]

/-- A single argument calls for no addition that could overflow. -/
theorem fits_of_length_le_one
    (hfew : shapes.length ≤ 1)
    (hrank : (m.target 0).rank < 2 ^ 32) :
    m.Fits c shapes := by
  match shapes, hfew with
  | [], _ =>
      refine ⟨by simp, fun k => ?_⟩
      rw [Method.rulesFor, List.zipIdx_nil, List.filterMap_nil, List.take_nil]
      exact inRange_toInt 0
  | [s], _ =>
      refine ⟨by simpa using hrank, fun k => ?_⟩
      rw [Method.rulesFor, List.zipIdx_singleton]
      cases hr : m.ruleFor? c (s, 0) with
      | none =>
          rw [List.filterMap_cons_none hr, List.filterMap_nil, List.take_nil]
          exact inRange_toInt 0
      | some r =>
          rw [List.filterMap_cons_some hr, List.filterMap_nil]
          cases k with
          | zero =>
              exact inRange_toInt 0
          | succ k =>
              rw [List.take_succ_cons, List.take_nil, prioritySum_cons]
              exact (Int.add_zero _).symm ▸ inRange_toInt r.priority

theorem Method.length_rulesFor_le
    (c : Catalog)
    (shapes : List Shape)
    (m : Method) :
    (m.rulesFor c shapes).length ≤ shapes.length := by
  have hle := List.length_filterMap_le (m.ruleFor? c) shapes.zipIdx
  rwa [List.length_zipIdx] at hle

/-- Only rules of the catalog are used. -/
theorem Method.mem_of_mem_rulesFor
    {r : Rule}
    (hr : r ∈ m.rulesFor c shapes) :
    r ∈ c.rules := by
  obtain ⟨arg, -, hfound⟩ := List.mem_filterMap.1 hr
  exact List.mem_of_find?_eq_some hfound

/-- Small priorities of few arguments can be summed. -/
theorem Method.inRange_rulesFor
    {bound : Nat}
    (hbound : ∀ r ∈ c.rules, r.priority.toInt.natAbs ≤ bound)
    (hsmall : shapes.length * bound < 2 ^ 31)
    (m : Method)
    (k : Nat) :
    InRange (prioritySum ((m.rulesFor c shapes).take k)) := by
  refine inRange_take (fun r hr => hbound r (mem_of_mem_rulesFor hr)) ?_ k
  exact Nat.lt_of_le_of_lt (Nat.mul_le_mul_right bound (m.length_rulesFor_le c shapes)) hsmall

/-- Small ranks and small priorities of few arguments can be summed. -/
theorem Method.fits_of_bounds
    {rank bound : Nat}
    (hrank : ∀ i, (m.target i).rank ≤ rank)
    (hbound : ∀ r ∈ c.rules, r.priority.toInt.natAbs ≤ bound)
    (hranks : shapes.length * rank < 2 ^ 32)
    (hpriorities : shapes.length * bound < 2 ^ 31) :
    m.Fits c shapes := by
  refine ⟨?_, m.inRange_rulesFor hbound hpriorities⟩
  have hsum := List.sum_le_card_nsmul (shapes.zipIdx.map fun arg => (m.target arg.2).rank) rank
    (List.forall_mem_map.2 fun arg _ => hrank arg.2)
  rw [List.length_map, List.length_zipIdx] at hsum
  exact Nat.lt_of_le_of_lt hsum hranks

/-- What is summed for a method that has a rule for each argument. -/
theorem exists_routes_of_ruled
    (hruled : m.firstMiss? c shapes = none) :
    ∃ routes, Candidate.routes c m 0 shapes = .ok routes ∧
      routes.map Prod.fst = shapes.zipIdx.map (fun arg => m.target arg.2) ∧
      (routes.map Prod.snd).map some = shapes.zipIdx.map (m.ruleFor? c) ∧
      routes.map Prod.snd = m.rulesFor c shapes := by
  obtain ⟨routes, hroutes, htargets, hrules⟩ := routes_eq_ok (firstMiss?_eq_none_iff.1 hruled)
  exact ⟨routes, hroutes, htargets, hrules, eq_rulesFor_of_map_some hrules⟩

theorem build_of_sums
    {routes : List (Ty × Rule)}
    (hroutes : Candidate.routes c m 0 shapes = .ok routes)
    {specificity : UInt32}
    (hspecificity : Candidate.totalSpecificity? (routes.map Prod.fst) = some specificity)
    {priority : Int32}
    (hpriority : Candidate.totalPriority? (routes.map Prod.snd) = some priority)
    (order : Nat) :
    Candidate.build c shapes m order = .ok {
      method := m
      targets := routes.map Prod.fst
      rules := routes.map Prod.snd
      returnRule := c.findByType? m.returns
      specificity := specificity
      priority := priority
      order := order } := by
  rw [Candidate.build, hroutes]
  dsimp only
  rw [hspecificity, hpriority]

/-- A method with a rule for each argument gives a candidate that serves it, if the sums fit. -/
theorem build_serves
    (hruled : m.firstMiss? c shapes = none)
    (hfits : m.Fits c shapes)
    (order : Nat) :
    ∃ cand, Candidate.build c shapes m order = .ok cand ∧ cand.Serves c shapes m ∧
      cand.order = order := by
  obtain ⟨routes, hroutes, htargets, hrules, hfor⟩ := exists_routes_of_ruled hruled
  have hranks : ((routes.map Prod.fst).map Ty.rank).sum < 2 ^ 32 := by
    rw [htargets, List.map_map]
    exact hfits.specificity
  have hcounts := totalSpecificity?_counts (routes.map Prod.fst)
  obtain ⟨n, hn⟩ := Option.isSome_iff_exists.1 (hcounts.isSome_iff.2 hranks)
  obtain ⟨p, hp⟩ : ∃ p, Candidate.totalPriority? (routes.map Prod.snd) = some p := by
    refine exists_totalPriority? ?_
    rw [hfor]
    exact hfits.priority
  exact ⟨_, build_of_sums hroutes hn hp order, ⟨rfl, htargets, hrules, rfl, (hcounts n).1 hn,
    (totalPriority?_eq_some_iff.1 hp).1⟩, rfl⟩

/-- A method with a rule for each argument, of which a sum does not fit. -/
theorem build_overflows
    (hruled : m.firstMiss? c shapes = none)
    (hover : ¬ m.Fits c shapes)
    (order : Nat) :
    Candidate.build c shapes m order = .error .overflowed := by
  obtain ⟨routes, hroutes, htargets, -, hfor⟩ := exists_routes_of_ruled hruled
  rw [Candidate.build, hroutes]
  dsimp only
  split
  · rename_i n p hn hp
    refine absurd ⟨?_, ?_⟩ hover
    · have hcounts := totalSpecificity?_counts (routes.map Prod.fst)
      have hranks := hcounts.isSome_iff.1 (Option.isSome_iff_exists.2 ⟨n, hn⟩)
      rwa [htargets, List.map_map] at hranks
    · rw [← hfor]
      exact (totalPriority?_eq_some_iff.1 hp).2
  · rfl

end Building

section Routes

variable {c : Catalog} {m : Method} {cand : Candidate} {args : List Value}

/-- The target of each argument is that of its position. -/
theorem Candidate.Serves.targets_eq
    (hserves : cand.Serves c (args.map Value.shape) m) :
    cand.targets = (List.range args.length).map m.target := by
  calc cand.targets
      = ((args.map Value.shape).zipIdx.map Prod.snd).map m.target := by
        rw [hserves.targets, List.map_map]
        rfl
    _ = (List.range args.length).map m.target := by
        rw [List.zipIdx_map_snd, List.length_map, List.range_eq_range']

/-- Each argument is converted by the rule for its shape and its target. -/
theorem Candidate.Serves.routed
    (hserves : cand.Serves c (args.map Value.shape) m) :
    List.Forall₂ (fun v route => c.findByShape? v.shape route.1 = some route.2) args
      (cand.targets.zip cand.rules) := by
  have hroutes : ∀ (args : List Value) (i : Nat) (ts : List Ty) (rs : List Rule),
      ts = ((args.map Value.shape).zipIdx i).map (fun arg => m.target arg.2) →
      rs.map some = ((args.map Value.shape).zipIdx i).map (m.ruleFor? c) →
      List.Forall₂ (fun v route => c.findByShape? v.shape route.1 = some route.2) args
        (ts.zip rs) := by
    intro args
    induction args with
    | nil =>
        rintro i ts rs rfl -
        exact .nil
    | cons v vs ih =>
        rintro i ts rs rfl hrules
        rw [List.map_cons, List.zipIdx_cons, List.map_cons] at hrules ⊢
        obtain ⟨r, rs, rfl, hr, hrest⟩ := List.map_eq_cons_iff.1 hrules
        exact .cons hr.symm (ih (i + 1) _ rs rfl hrest)
  exact hroutes args 0 cand.targets cand.rules hserves.targets hserves.rules

end Routes

section Order

variable {a b d : Candidate}

/-- The order of trying, or equal standing. -/
theorem precedes_iff :
    a.precedes b = true ↔ a.TriedBefore b ∨
      a.specificity = b.specificity ∧ a.priority = b.priority ∧
        a.method.isVariadic = b.method.isVariadic ∧ a.order = b.order := by
  rw [Candidate.precedes, Candidate.TriedBefore]
  split_ifs with hs hp hv
  · simp [hs]
  · simp only [not_not] at hs
    simp [hs, hp]
  · simp only [not_not] at hs hp
    cases ha : a.method.isVariadic <;> cases hb : b.method.isVariadic <;> simp_all
  · simp only [not_not] at hs hp hv
    simp [hs, hp, hv, Nat.le_iff_lt_or_eq]

theorem precedes_total
    (a b : Candidate) :
    (a.precedes b || b.precedes a) = true := by
  rw [Bool.or_eq_true, precedes_iff, precedes_iff]
  simp only [Candidate.TriedBefore, UInt32.lt_iff_toNat_lt, ← UInt32.toNat_inj,
    Int32.lt_iff_toInt_lt, ← Int32.toInt_inj]
  cases a.method.isVariadic <;> cases b.method.isVariadic <;> simp <;> omega

theorem precedes_trans
    (a b d : Candidate)
    (hab : a.precedes b = true)
    (hbd : b.precedes d = true) :
    a.precedes d = true := by
  rw [precedes_iff] at hab hbd ⊢
  simp only [Candidate.TriedBefore, UInt32.lt_iff_toNat_lt, ← UInt32.toNat_inj,
    Int32.lt_iff_toInt_lt, ← Int32.toInt_inj] at hab hbd ⊢
  grind

end Order

section Resolution

variable {c : Catalog} {shapes : List Shape}

theorem takes_iff
    {m : Method} :
    m.Takes c shapes ↔ m.acceptsArity shapes.length = true ∧ m.firstMiss? c shapes = none := by
  rw [firstMiss?_eq_none_iff]
  exact ⟨fun h => ⟨h.arity, h.ruled⟩, fun h => ⟨h.1, h.2⟩⟩

/-- A candidate that is built serves the method, which has a rule for each argument and fits. -/
theorem serves_of_build
    {m : Method}
    {order : Nat}
    {cand : Candidate}
    (h : Candidate.build c shapes m order = .ok cand) :
    cand.order = order ∧ cand.Serves c shapes m ∧ m.firstMiss? c shapes = none ∧
      m.Fits c shapes := by
  cases hmiss : m.firstMiss? c shapes with
  | some arg =>
      rw [build_eq_error hmiss] at h
      cases h
  | none =>
      by_cases hfits : m.Fits c shapes
      · obtain ⟨built, hbuilt, hserves, horder⟩ := build_serves hmiss hfits order
        rw [hbuilt] at h
        cases h
        exact ⟨horder, hserves, rfl, hfits⟩
      · rw [build_overflows hmiss hfits] at h
        cases h

/-- Building ends at a sum exactly if the method has a rule for each argument and does not fit. -/
theorem build_eq_overflowed_iff
    {m : Method}
    {order : Nat} :
    Candidate.build c shapes m order = .error .overflowed ↔
      m.firstMiss? c shapes = none ∧ ¬ m.Fits c shapes := by
  constructor
  · intro h
    cases hmiss : m.firstMiss? c shapes with
    | some arg =>
        rw [build_eq_error hmiss] at h
        cases h
    | none =>
        refine ⟨rfl, fun hfits => ?_⟩
        obtain ⟨built, hbuilt, -⟩ := build_serves hmiss hfits order
        rw [hbuilt] at h
        cases h
  · rintro ⟨hmiss, hover⟩
    exact build_overflows hmiss hover order

theorem builtCandidate?_eq_some
    {attempt : Except Candidate.Setback Candidate}
    {cand : Candidate} :
    builtCandidate? attempt = some cand ↔ attempt = .ok cand := by
  cases attempt <;> simp [builtCandidate?]

theorem hasOverflowed_iff
    {attempt : Except Candidate.Setback Candidate} :
    hasOverflowed attempt = true ↔ attempt = .error .overflowed := by
  cases attempt with
  | ok cand =>
      simp [hasOverflowed]
  | error setback =>
      cases setback <;> simp [hasOverflowed]

theorem mem_buildAll
    {visible : List Method}
    {attempt : Except Candidate.Setback Candidate} :
    attempt ∈ buildAll c shapes visible ↔
      ∃ m order, visible[order]? = some m ∧ m.acceptsArity shapes.length = true ∧
        Candidate.build c shapes m order = attempt := by
  simp only [buildAll, List.mem_map, List.mem_filter]
  constructor
  · rintro ⟨⟨m, order⟩, ⟨hm, harity⟩, rfl⟩
    exact ⟨m, order, List.mem_zipIdx_iff_getElem?.1 hm, harity, rfl⟩
  · rintro ⟨m, order, hm, harity, rfl⟩
    exact ⟨(m, order), ⟨List.mem_zipIdx_iff_getElem?.2 hm, harity⟩, rfl⟩

/-- Some attempt overflows exactly if some method that takes the arguments does not fit. -/
theorem any_hasOverflowed_iff
    {visible : List Method} :
    (buildAll c shapes visible).any hasOverflowed = true ↔
      ∃ m ∈ visible, m.Takes c shapes ∧ ¬ m.Fits c shapes := by
  simp only [List.any_eq_true, hasOverflowed_iff, mem_buildAll]
  constructor
  · rintro ⟨_, ⟨m, order, hm, harity, rfl⟩, hbuild⟩
    obtain ⟨hnone, hover⟩ := build_eq_overflowed_iff.1 hbuild
    exact ⟨m, List.mem_of_getElem? hm, takes_iff.2 ⟨harity, hnone⟩, hover⟩
  · rintro ⟨m, hm, htakes, hover⟩
    obtain ⟨order, horder⟩ := List.getElem?_of_mem hm
    obtain ⟨harity, hnone⟩ := takes_iff.1 htakes
    exact ⟨_, ⟨m, order, horder, harity, rfl⟩, build_overflows hnone hover order⟩

theorem allFit_iff
    {visible : List Method} :
    AllFit c shapes visible ↔ (buildAll c shapes visible).any hasOverflowed = false := by
  rw [← Bool.not_eq_true, any_hasOverflowed_iff, AllFit]
  simp only [not_exists, not_and, not_not]

/-- The candidates for the visible methods, before they are sorted. -/
def builtCandidates
    (c : Catalog)
    (shapes : List Shape)
    (visible : List Method) : List Candidate :=
  (buildAll c shapes visible).filterMap builtCandidate?

theorem mem_builtCandidates
    {visible : List Method}
    {cand : Candidate} :
    cand ∈ builtCandidates c shapes visible ↔
      ∃ m order, visible[order]? = some m ∧ m.acceptsArity shapes.length = true ∧
        Candidate.build c shapes m order = .ok cand := by
  simp only [builtCandidates, List.mem_filterMap, builtCandidate?_eq_some, exists_eq_right,
    mem_buildAll]

/-- Each candidate serves the method at its position, which takes the arguments. -/
theorem serves_of_mem
    {visible : List Method}
    {cand : Candidate}
    (hcand : cand ∈ builtCandidates c shapes visible) :
    ∃ m, visible[cand.order]? = some m ∧ m.Takes c shapes ∧ cand.Serves c shapes m := by
  obtain ⟨m, order, hm, harity, hbuild⟩ := mem_builtCandidates.1 hcand
  obtain ⟨rfl, hserves, hnone, -⟩ := serves_of_build hbuild
  exact ⟨m, hm, takes_iff.2 ⟨harity, hnone⟩, hserves⟩

theorem serves_of_getElem?
    {visible : List Method}
    {cand : Candidate}
    (hcand : cand ∈ builtCandidates c shapes visible)
    {m : Method}
    (hm : visible[cand.order]? = some m) :
    cand.Serves c shapes m := by
  obtain ⟨m', hm', -, hserves⟩ := serves_of_mem hcand
  rw [hm] at hm'
  cases hm'
  exact hserves

/-- Where all sums fit, there is a candidate for every method that takes the arguments. -/
theorem exists_mem_builtCandidates
    {visible : List Method}
    (hfit : AllFit c shapes visible)
    {order : Nat} :
    (∃ cand ∈ builtCandidates c shapes visible, cand.order = order) ↔
      ∃ m, visible[order]? = some m ∧ m.Takes c shapes := by
  constructor
  · rintro ⟨cand, hcand, rfl⟩
    obtain ⟨m, hm, htakes, -⟩ := serves_of_mem hcand
    exact ⟨m, hm, htakes⟩
  · rintro ⟨m, hm, htakes⟩
    obtain ⟨harity, hnone⟩ := takes_iff.1 htakes
    have hfits := hfit m (List.mem_of_getElem? hm) htakes
    obtain ⟨cand, hbuild, -, horder⟩ := build_serves hnone hfits order
    exact ⟨cand, mem_builtCandidates.2 ⟨m, order, hm, harity, hbuild⟩, horder⟩

theorem builtCandidates_ne_nil_iff
    {visible : List Method}
    (hfit : AllFit c shapes visible) :
    builtCandidates c shapes visible ≠ [] ↔ ∃ m ∈ visible, m.Takes c shapes := by
  constructor
  · intro hne
    obtain ⟨cand, hcand⟩ := List.exists_mem_of_ne_nil _ hne
    obtain ⟨m, hm, htakes, -⟩ := serves_of_mem hcand
    exact ⟨m, List.mem_of_getElem? hm, htakes⟩
  · rintro ⟨m, hm, htakes⟩
    obtain ⟨order, horder⟩ := List.getElem?_of_mem hm
    obtain ⟨cand, hcand, -⟩ := (exists_mem_builtCandidates hfit).2 ⟨m, horder, htakes⟩
    exact List.ne_nil_of_mem hcand

/-- Candidates are built by rising position. -/
theorem orders_builtCandidates
    (visible : List Method) :
    (builtCandidates c shapes visible).Pairwise fun a b => a.order < b.order := by
  rw [builtCandidates, buildAll, List.filterMap_map, List.pairwise_filterMap]
  have hpos : visible.zipIdx.Pairwise fun a b => a.2 < b.2 := by
    have h : (visible.zipIdx.map Prod.snd).Pairwise (· < ·) := by
      rw [List.zipIdx_map_snd]
      exact List.pairwise_lt_range'
    exact List.pairwise_map.1 h
  refine (hpos.filter _).imp ?_
  intro p q hpq a ha b hb
  obtain ⟨horder, -⟩ := serves_of_build (builtCandidate?_eq_some.1 ha)
  obtain ⟨horder', -⟩ := serves_of_build (builtCandidate?_eq_some.1 hb)
  rwa [horder, horder']

/-- Where all methods take the arguments and fit, as many candidates are built. -/
theorem length_builtCandidates
    {visible : List Method}
    (hfit : AllFit c shapes visible)
    (hall : ∀ m ∈ visible, m.Takes c shapes) :
    (builtCandidates c shapes visible).length = visible.length := by
  have hdistinct : ((builtCandidates c shapes visible).map Candidate.order).Nodup :=
    List.pairwise_map.2 ((orders_builtCandidates visible).imp Nat.ne_of_lt)
  have horders : ((builtCandidates c shapes visible).map Candidate.order).Perm
      (List.range visible.length) := by
    refine (List.perm_ext_iff_of_nodup hdistinct List.nodup_range).2 fun order => ?_
    rw [List.mem_map, exists_mem_builtCandidates hfit, List.mem_range]
    constructor
    · rintro ⟨m, hm, -⟩
      exact (List.getElem?_eq_some_iff.1 hm).1
    · intro hlt
      exact ⟨visible[order], List.getElem?_eq_getElem hlt, hall _ (List.getElem_mem hlt)⟩
  simpa using horders.length_eq

theorem mem_sorted
    {visible : List Method}
    {cand : Candidate} :
    cand ∈ (builtCandidates c shapes visible).mergeSort Candidate.precedes ↔
      cand ∈ builtCandidates c shapes visible := by
  exact (List.mergeSort_perm _ _).mem_iff

/-- Sorting keeps the positions apart. -/
theorem orders_sorted
    (visible : List Method) :
    ((builtCandidates c shapes visible).mergeSort Candidate.precedes).Pairwise
      fun a b => a.order ≠ b.order := by
  refine ((List.mergeSort_perm _ _).pairwise_iff fun h => Ne.symm h).2 ?_
  exact (orders_builtCandidates visible).imp Nat.ne_of_lt

/-- After sorting every candidate is tried before those that follow. -/
theorem triedBefore_sorted
    (visible : List Method) :
    ((builtCandidates c shapes visible).mergeSort Candidate.precedes).Pairwise
      Candidate.TriedBefore := by
  have hsorted := List.pairwise_mergeSort precedes_trans precedes_total
    (builtCandidates c shapes visible)
  refine hsorted.imp₂ ?_ (orders_sorted visible)
  intro a b hab hne
  rcases precedes_iff.1 hab with hbefore | ⟨-, -, -, heq⟩
  · exact hbefore
  · exact absurd heq hne

variable {r : Registry} {t : Ty} {member : String} {staticsOnly : Bool}

theorem resolve_eq_ok
    (hfit : AllFit c shapes (visibleMethods r t member staticsOnly))
    (hbuilt : builtCandidates c shapes (visibleMethods r t member staticsOnly) ≠ []) :
    resolve c r t member shapes staticsOnly =
      .ok ((builtCandidates c shapes (visibleMethods r t member staticsOnly)).mergeSort
        Candidate.precedes) := by
  rw [builtCandidates] at hbuilt ⊢
  rw [resolve]
  split
  · rename_i hnone
    rw [hnone] at hbuilt
    exact absurd rfl hbuilt
  · dsimp only
    rw [if_neg (by simp [allFit_iff.1 hfit])]
    split
    · rename_i hnone
      exact absurd hnone hbuilt
    · rfl

/-- One method that takes the arguments and does not fit is the end of the resolution. -/
theorem resolve_eq_overflow
    (hover : ¬ AllFit c shapes (visibleMethods r t member staticsOnly)) :
    resolve c r t member shapes staticsOnly = .error .overflow := by
  rw [allFit_iff, Bool.not_eq_false] at hover
  rw [resolve]
  split
  · rename_i hnone
    rw [hnone] at hover
    cases hover
  · dsimp only
    rw [if_pos hover]

theorem resolve_of_overflowed
    {m : Method}
    (order : Nat)
    (hm : (visibleMethods r t member staticsOnly)[order]? = some m)
    (harity : m.acceptsArity shapes.length = true)
    (hbuild : Candidate.build c shapes m order = .error .overflowed) :
    resolve c r t member shapes staticsOnly = .error .overflow := by
  obtain ⟨hnone, hover⟩ := build_eq_overflowed_iff.1 hbuild
  refine resolve_eq_overflow fun hfit => hover ?_
  exact hfit m (List.mem_of_getElem? hm) (takes_iff.2 ⟨harity, hnone⟩)

/-- The first attempt is made for the first method that takes the number of arguments. -/
theorem buildAll_of_first
    {visible : List Method}
    {m : Method}
    (hfirst : visible.find? (fun m => m.acceptsArity shapes.length) = some m) :
    ∃ order attempts,
      buildAll c shapes visible = Candidate.build c shapes m order :: attempts := by
  rw [← List.zipIdx_map_fst 0 visible, List.find?_map, Option.map_eq_some_iff] at hfirst
  obtain ⟨⟨m, order⟩, hfirst, rfl⟩ := hfirst
  have hhead := List.head?_filter.trans hfirst
  obtain ⟨rest, hrest⟩ := List.head?_eq_some_iff.1 hhead
  refine ⟨order, rest.map fun p => Candidate.build c shapes p.1 p.2, ?_⟩
  rw [buildAll]
  exact congrArg (List.map fun p => Candidate.build c shapes p.1 p.2) hrest

/-- Resolution without a candidate, where all sums fit. -/
theorem resolve_eq_error
    (hfit : AllFit c shapes (visibleMethods r t member staticsOnly))
    (hbuilt : builtCandidates c shapes (visibleMethods r t member staticsOnly) = []) :
    ∃ e, resolve c r t member shapes staticsOnly = .error (.failed e) ∧
      Unresolved c (visibleMethods r t member staticsOnly) t member shapes e := by
  rw [resolve]
  generalize visibleMethods r t member staticsOnly = visible at hfit hbuilt ⊢
  split
  · exact ⟨_, rfl, .unknown rfl⟩
  · rename_i hsome
    have hbuilt' : (buildAll c shapes visible).filterMap builtCandidate? = [] := hbuilt
    dsimp only
    rw [if_neg (by simp [allFit_iff.1 hfit]), hbuilt']
    dsimp only
    cases hfirst : visible.find? fun m => m.acceptsArity shapes.length with
    | none =>
        have harity : ∀ m ∈ visible, m.acceptsArity shapes.length = false := by
          simpa using List.find?_eq_none.1 hfirst
        have hattempts : buildAll c shapes visible = [] := by
          rw [buildAll, List.map_eq_nil_iff, List.filter_eq_nil_iff]
          intro p hp
          simp [harity p.1 (List.mem_of_getElem? (List.mem_zipIdx_iff_getElem?.1 hp))]
        rw [hattempts]
        exact ⟨_, rfl, .unmatched hsome harity⟩
    | some m =>
        obtain ⟨order, attempts, hattempts⟩ := buildAll_of_first (c := c) hfirst
        cases hmiss : m.firstMiss? c shapes with
        | none =>
            have harity : m.acceptsArity shapes.length = true := by
              exact List.find?_some (p := fun m : Method => m.acceptsArity _) hfirst
            have hfits := hfit m (List.mem_of_find?_eq_some hfirst) (takes_iff.2 ⟨harity, hmiss⟩)
            obtain ⟨cand, hbuild, -⟩ := build_serves hmiss hfits order
            rw [hattempts, hbuild] at hbuilt'
            cases hbuilt'
        | some arg =>
            rw [hattempts, build_eq_error hmiss]
            exact ⟨_, rfl, .missing hfirst hmiss⟩

/-- Resolution ends at a sum exactly if some visible method takes the arguments and does not fit. -/
theorem resolve_eq_overflow_iff :
    resolve c r t member shapes staticsOnly = .error .overflow ↔
      ∃ m ∈ visibleMethods r t member staticsOnly, m.Takes c shapes ∧ ¬ m.Fits c shapes := by
  rw [← any_hasOverflowed_iff, ← Bool.not_eq_false, ← allFit_iff]
  refine ⟨fun h hfit => ?_, resolve_eq_overflow⟩
  by_cases hbuilt : builtCandidates c shapes (visibleMethods r t member staticsOnly) = []
  · obtain ⟨e, he, -⟩ := resolve_eq_error hfit hbuilt
    rw [he] at h
    cases h
  · rw [resolve_eq_ok hfit hbuilt] at h
    cases h

/-- Resolution fails, or ends at a sum, if it does not succeed. -/
theorem error_of_resolve
    {f : Fault}
    (h : resolve c r t member shapes staticsOnly = .error f) :
    f = .overflow ∨ ∃ e, f = .failed e := by
  by_cases hfit : AllFit c shapes (visibleMethods r t member staticsOnly)
  · by_cases hbuilt : builtCandidates c shapes (visibleMethods r t member staticsOnly) = []
    · obtain ⟨e, he, -⟩ := resolve_eq_error hfit hbuilt
      exact Or.inr ⟨e, Except.error.inj (h.symm.trans he)⟩
    · rw [resolve_eq_ok hfit hbuilt] at h
      cases h
  · exact Or.inl (Except.error.inj (h.symm.trans (resolve_eq_overflow hfit)))

/-- Candidates that are built in the order in which they are tried. -/
theorem resolve_sorted
    {m : Method}
    {ms : List Method}
    (hvisible : visibleMethods r t member staticsOnly = m :: ms)
    {cand : Candidate}
    {cands : List Candidate}
    (hfit : (buildAll c shapes (m :: ms)).any hasOverflowed = false)
    (hbuilt : (buildAll c shapes (m :: ms)).filterMap builtCandidate? = cand :: cands)
    (hsorted : (cand :: cands).Pairwise fun a b => a.precedes b = true) :
    resolve c r t member shapes staticsOnly = .ok (cand :: cands) := by
  have hfound : builtCandidates c shapes (visibleMethods r t member staticsOnly) =
      cand :: cands := by
    rw [hvisible]
    exact hbuilt
  have hfit' : AllFit c shapes (visibleMethods r t member staticsOnly) := by
    rw [hvisible]
    exact allFit_iff.2 hfit
  rw [resolve_eq_ok hfit' (hfound ▸ List.cons_ne_nil cand cands), hfound]
  exact congrArg Except.ok (List.mergeSort_of_pairwise hsorted)

/-- Candidates are found only where all sums fit. -/
theorem allFit_of_resolve
    {cands : List Candidate}
    (h : resolve c r t member shapes staticsOnly = .ok cands) :
    AllFit c shapes (visibleMethods r t member staticsOnly) := by
  by_contra hover
  rw [resolve_eq_overflow hover] at h
  cases h

/-- What is found are the candidates that are built, sorted. -/
theorem eq_of_resolve
    {cands : List Candidate}
    (h : resolve c r t member shapes staticsOnly = .ok cands) :
    cands = (builtCandidates c shapes (visibleMethods r t member staticsOnly)).mergeSort
      Candidate.precedes := by
  have hfit := allFit_of_resolve h
  by_cases hbuilt : builtCandidates c shapes (visibleMethods r t member staticsOnly) = []
  · obtain ⟨e, he, -⟩ := resolve_eq_error hfit hbuilt
    rw [he] at h
    cases h
  · rw [resolve_eq_ok hfit hbuilt] at h
    cases h
    rfl

/-- What is found stands in the order of trying. -/
theorem triedBefore_of_resolve
    {cands : List Candidate}
    (h : resolve c r t member shapes staticsOnly = .ok cands) :
    cands.Pairwise Candidate.TriedBefore := by
  rw [eq_of_resolve h]
  exact triedBefore_sorted _

/-- Each candidate that is found was built for a visible method that takes the number of
arguments. -/
theorem built_of_resolve
    {cands : List Candidate}
    (h : resolve c r t member shapes staticsOnly = .ok cands)
    {cand : Candidate}
    (hcand : cand ∈ cands) :
    ∃ m ∈ visibleMethods r t member staticsOnly, m.acceptsArity shapes.length = true ∧
      ∃ order, Candidate.build c shapes m order = .ok cand := by
  rw [eq_of_resolve h, mem_sorted] at hcand
  obtain ⟨m, order, hm, harity, hbuild⟩ := mem_builtCandidates.1 hcand
  exact ⟨m, List.mem_of_getElem? hm, harity, order, hbuild⟩

/-- Each candidate that is found serves a visible method that takes the arguments. -/
theorem serves_of_resolve
    {cands : List Candidate}
    (h : resolve c r t member shapes staticsOnly = .ok cands)
    {cand : Candidate}
    (hcand : cand ∈ cands) :
    ∃ m ∈ visibleMethods r t member staticsOnly,
      m.acceptsArity shapes.length = true ∧ cand.Serves c shapes m := by
  obtain ⟨m, hm, harity, order, hbuild⟩ := built_of_resolve h hcand
  exact ⟨m, hm, harity, (serves_of_build hbuild).2.1⟩

/-- Where all visible methods take the arguments and fit, each of them has one candidate. -/
theorem resolve_of_takes
    (hsome : visibleMethods r t member staticsOnly ≠ [])
    (hfit : AllFit c shapes (visibleMethods r t member staticsOnly))
    (hall : ∀ m ∈ visibleMethods r t member staticsOnly, m.Takes c shapes) :
    ∃ cands, resolve c r t member shapes staticsOnly = .ok cands ∧
      cands.length = (visibleMethods r t member staticsOnly).length ∧
      cands.Pairwise (fun a b => a.TriedBefore b ∧ a.order ≠ b.order) ∧
      (∀ cand ∈ cands, ∃ m, (visibleMethods r t member staticsOnly)[cand.order]? = some m ∧
        cand.Serves c shapes m) ∧
      ∀ m ∈ visibleMethods r t member staticsOnly, ∃ cand ∈ cands, cand.Serves c shapes m := by
  have hresolve := @resolve_eq_ok c shapes r t member staticsOnly hfit
  generalize visibleMethods r t member staticsOnly = visible at hsome hfit hall hresolve ⊢
  obtain ⟨m, hm⟩ := List.exists_mem_of_ne_nil _ hsome
  refine ⟨_, hresolve ((builtCandidates_ne_nil_iff hfit).2 ⟨m, hm, hall m hm⟩), ?_,
    (triedBefore_sorted visible).and (orders_sorted visible), ?_, ?_⟩
  · rw [(List.mergeSort_perm _ _).length_eq, length_builtCandidates hfit hall]
  · intro cand hcand
    obtain ⟨m, hm, -, hserves⟩ := serves_of_mem (mem_sorted.1 hcand)
    exact ⟨m, hm, hserves⟩
  · intro m hm
    obtain ⟨order, horder⟩ := List.getElem?_of_mem hm
    obtain ⟨cand, hcand, rfl⟩ := (exists_mem_builtCandidates hfit).2 ⟨m, horder, hall m hm⟩
    exact ⟨cand, mem_sorted.2 hcand, serves_of_getElem? hcand horder⟩

/-- A call fails in one way only. -/
theorem Unresolved.unique
    {visible : List Method}
    {e e' : BridgeError}
    (h : Unresolved c visible t member shapes e)
    (h' : Unresolved c visible t member shapes e') :
    e = e' := by
  have hfound : ∀ m, visible.find? (fun m => m.acceptsArity shapes.length) = some m →
      m ∈ visible ∧ m.acceptsArity shapes.length = true := by
    intro m hm
    refine ⟨List.mem_of_find?_eq_some hm, ?_⟩
    exact List.find?_some (p := fun m : Method => m.acceptsArity _) hm
  cases h with
  | unknown hnone =>
      cases h' with
      | unknown =>
          rfl
      | missing hfirst =>
          rw [hnone] at hfirst
          cases hfirst
      | unmatched hsome =>
          exact absurd hnone hsome
  | missing hfirst hmiss =>
      cases h' with
      | unknown hnone =>
          rw [hnone] at hfirst
          cases hfirst
      | missing hfirst' hmiss' =>
          rw [hfirst] at hfirst'
          cases hfirst'
          rw [hmiss] at hmiss'
          cases hmiss'
          rfl
      | unmatched _ harity =>
          obtain ⟨hmem, htakes⟩ := hfound _ hfirst
          rw [harity _ hmem] at htakes
          cases htakes
  | unmatched hsome harity =>
      cases h' with
      | unknown hnone =>
          exact absurd hnone hsome
      | missing hfirst =>
          obtain ⟨hmem, htakes⟩ := hfound _ hfirst
          rw [harity _ hmem] at htakes
          cases htakes
      | unmatched =>
          rfl

/-- There are candidates exactly if some visible method takes the arguments and all that do fit. -/
theorem resolve_ok_iff :
    (∃ cands, resolve c r t member shapes staticsOnly = .ok cands) ↔
      (∃ m ∈ visibleMethods r t member staticsOnly, m.Takes c shapes) ∧
        AllFit c shapes (visibleMethods r t member staticsOnly) := by
  constructor
  · rintro ⟨cands, h⟩
    have hfit := allFit_of_resolve h
    refine ⟨(builtCandidates_ne_nil_iff hfit).1 fun hbuilt => ?_, hfit⟩
    obtain ⟨e, he, -⟩ := resolve_eq_error hfit hbuilt
    rw [he] at h
    cases h
  · rintro ⟨hsome, hfit⟩
    exact ⟨_, resolve_eq_ok hfit ((builtCandidates_ne_nil_iff hfit).2 hsome)⟩

/-- Resolution fails exactly if no visible method takes the arguments, and in one way. -/
theorem resolve_failed_iff
    {e : BridgeError} :
    resolve c r t member shapes staticsOnly = .error (.failed e) ↔
      (∀ m ∈ visibleMethods r t member staticsOnly, ¬ m.Takes c shapes) ∧
        Unresolved c (visibleMethods r t member staticsOnly) t member shapes e := by
  constructor
  · intro h
    have hfit : AllFit c shapes (visibleMethods r t member staticsOnly) := by
      by_contra hover
      rw [resolve_eq_overflow hover] at h
      cases h
    have hbuilt : builtCandidates c shapes (visibleMethods r t member staticsOnly) = [] := by
      by_contra hsome
      rw [resolve_eq_ok hfit hsome] at h
      cases h
    obtain ⟨e', he', hunresolved⟩ := resolve_eq_error hfit hbuilt
    rw [he'] at h
    cases h
    refine ⟨fun m hm htakes => ?_, hunresolved⟩
    exact (builtCandidates_ne_nil_iff hfit).2 ⟨m, hm, htakes⟩ hbuilt
  · rintro ⟨hno, hunresolved⟩
    have hfit : AllFit c shapes (visibleMethods r t member staticsOnly) :=
      fun m hm htakes => absurd htakes (hno m hm)
    have hbuilt : builtCandidates c shapes (visibleMethods r t member staticsOnly) = [] := by
      by_contra hsome
      obtain ⟨m, hm, htakes⟩ := (builtCandidates_ne_nil_iff hfit).1 hsome
      exact hno m hm htakes
    obtain ⟨e', he', hunresolved'⟩ := resolve_eq_error hfit hbuilt
    rw [he', hunresolved'.unique hunresolved]

/-- There is one candidate for each visible method that takes the arguments; it serves its method,
and all stand in the order of trying. -/
theorem candidates_of_resolve
    {cands : List Candidate}
    (h : resolve c r t member shapes staticsOnly = .ok cands) :
    (∀ order, order ∈ cands.map Candidate.order ↔
      ∃ m, (visibleMethods r t member staticsOnly)[order]? = some m ∧ m.Takes c shapes) ∧
    (∀ cand ∈ cands, ∃ m, (visibleMethods r t member staticsOnly)[cand.order]? = some m ∧
      cand.Serves c shapes m) ∧
    (cands.map Candidate.order).Nodup ∧ cands.Pairwise Candidate.TriedBefore := by
  have hfit := allFit_of_resolve h
  rw [eq_of_resolve h]
  refine ⟨?_, ?_, List.pairwise_map.2 (orders_sorted _), triedBefore_sorted _⟩
  · intro order
    rw [List.mem_map, ← exists_mem_builtCandidates hfit]
    exact exists_congr fun cand => and_congr_left fun _ => mem_sorted
  · intro cand hcand
    obtain ⟨m, hm, -, hserves⟩ := serves_of_mem (mem_sorted.1 hcand)
    exact ⟨m, hm, hserves⟩

/-- Where all sums fit, resolution finds exactly one candidate for each visible method that takes
the arguments, with the true sums and in the order of trying.  It fails exactly where no method
takes them, and tells the reasons apart.  There is no other end but one: where a method that takes
the arguments does not fit, the addition overflows. -/
theorem resolve_exact
    (c : Catalog)
    (r : Registry)
    (t : Ty)
    (member : String)
    (shapes : List Shape)
    (staticsOnly : Bool) :
    let visible := visibleMethods r t member staticsOnly
    let found := resolve c r t member shapes staticsOnly
    (∀ cands, found = .ok cands →
      (∀ order, order ∈ cands.map Candidate.order ↔
        ∃ m, visible[order]? = some m ∧ m.Takes c shapes) ∧
      (∀ cand ∈ cands, ∃ m, visible[cand.order]? = some m ∧ cand.Serves c shapes m) ∧
      (cands.map Candidate.order).Nodup ∧ cands.Pairwise Candidate.TriedBefore) ∧
    ((∃ cands, found = .ok cands) ↔
      (∃ m ∈ visible, m.Takes c shapes) ∧ AllFit c shapes visible) ∧
    (∀ e, found = .error (.failed e) ↔
      (∀ m ∈ visible, ¬ m.Takes c shapes) ∧ Unresolved c visible t member shapes e) ∧
    (found = .error .overflow ↔ ∃ m ∈ visible, m.Takes c shapes ∧ ¬ m.Fits c shapes) ∧
    ((∃ cands, found = .ok cands) ∨ (∃ e, found = .error (.failed e)) ∨
      found = .error .overflow) := by
  intro visible found
  refine ⟨fun cands h => candidates_of_resolve h, resolve_ok_iff, fun e => resolve_failed_iff,
    resolve_eq_overflow_iff, ?_⟩
  cases hfound : found with
  | ok cands =>
      exact Or.inl ⟨cands, rfl⟩
  | error f =>
      rcases error_of_resolve hfound with rfl | ⟨e, rfl⟩
      · exact Or.inr (Or.inr rfl)
      · exact Or.inr (Or.inl ⟨e, rfl⟩)

end Resolution

section Desk

/-! A desk, where one can pick things.  Two numbers for two truth values call for a sum that does
not fit. -/

/-- A rule of which only the shape, the type and the priority matter. -/
def plainRule
    (name : String)
    (shape : Shape)
    (type : Ty)
    (priority : Int32) : Rule :=
  Rule.ofType name shape type priority
    (fun _ _ => Action.fail (.conversion "not written"))
    (fun _ _ _ => Action.fail (.conversion "not read"))

def picking
    (params : List Ty) : Method :=
  .staticMethod "pick" params .void fun _ _ => Action.create .void .unit

def deskType : Ty :=
  .object (.root "Desk")

def desk
    (methods : List Method) : Registry :=
  .register .empty { ClassDescriptor.ofType deskType with methods := methods }

/-- Numbers become truth values by a rule of the largest priority that there is. -/
def loudRule : Rule :=
  plainRule "loud" .number .bool 2147483647

def loudCatalog : Catalog :=
  .register .empty loudRule

def pickFlags : Method :=
  picking [.bool, .bool]

/-- The only method of the name takes two numbers, and is not found: twice the largest priority is
no priority. -/
theorem resolution_overflows :
    let found := resolve loudCatalog (desk [pickFlags]) deskType "pick" [.number, .number] true
    visibleMethods (desk [pickFlags]) deskType "pick" true = [pickFlags] ∧
      pickFlags.Takes loudCatalog [.number, .number] ∧ found = .error .overflow ∧
      ¬ ∃ cands, found = .ok cands := by
  intro found
  have hbuild : Candidate.build loudCatalog [.number, .number] pickFlags 0 = .error .overflowed :=
    rfl
  have hover : found = .error .overflow := resolve_of_overflowed 0 rfl rfl hbuild
  refine ⟨rfl, ⟨rfl, by decide⟩, hover, ?_⟩
  rw [hover]
  rintro ⟨cands, h⟩
  cases h

end Desk

end CellBridge
