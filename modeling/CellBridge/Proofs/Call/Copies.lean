import CellBridge.Proofs.Call.TameCalls
import CellBridge.Proofs.Conversion.Gaps

/-!
# Calls by copies of rules

Two catalogs can hold the same rules up to a copying function, and two candidates the same choice of
rules.  Where the copies read and write as the originals do outside of a gap, arguments and results
of a call are converted alike outside of it: `covers_convertArguments` and `covers_convertResult`.
-/

namespace CellBridge

section Defs

/-- The copies of the rules of the first catalog do in the second one what the rules do in the
first, outside of the gap, and they are found in their places. -/
structure Gap.CoversCatalog
    (g : Gap)
    (copy : Rule → Rule)
    (c c' : Catalog) : Prop where
  reads : ∀ r ∈ c.rules, ∀ t v, g.Covers (c.read r t v) (c'.read (copy r) t v)
  writes : ∀ r ∈ c.rules, ∀ o, g.Covers (c.write r o) (c'.write (copy r) o)
  finds : ∀ t, c'.findByType? t = (c.findByType? t).map copy

/-- The second candidate has the copies of the rules, for the same arguments. -/
structure Candidate.CopiedBy
    (copy : Rule → Rule)
    (cand cand' : Candidate) : Prop where
  targets : cand'.targets = cand.targets
  rules : cand'.rules = cand.rules.map copy
  returnRule : cand'.returnRule = cand.returnRule.map copy
  fixed : cand'.method.fixed = cand.method.fixed
  rest : cand'.method.rest = cand.method.rest

end Defs

namespace Candidate

variable {g : Gap} {copy : Rule → Rule} {c c' : Catalog} {cand cand' : Candidate}

theorem CopiedBy.refl
    (cand : Candidate) :
    cand.CopiedBy id cand := by
  exact ⟨rfl, (List.map_id _).symm, Option.map_id_apply.symm, rfl, rfl⟩

theorem covers_readArguments
    (hc : g.CoversCatalog copy c c')
    (routes : List (Value × Ty × Rule))
    (hroutes : ∀ route ∈ routes, route.2.2 ∈ c.rules) :
    g.Covers (readArguments c routes)
      (readArguments c' (routes.map fun route => (route.1, route.2.1, copy route.2.2))) := by
  induction routes with
  | nil =>
      exact Gap.Covers.refl _
  | cons route routes ih =>
      obtain ⟨v, t, r⟩ := route
      have hr : r ∈ c.rules := hroutes _ List.mem_cons_self
      refine (hc.reads r hr t v).bind fun o => ?_
      exact (ih fun x hx => hroutes x (List.mem_cons_of_mem _ hx)).bind_left _

/-- Arguments are converted by the copies of the rules. -/
theorem covers_convertArguments
    (hc : g.CoversCatalog copy c c')
    (hcand : cand.Draws c)
    (hcopied : cand.CopiedBy copy cand')
    (args : List Value) :
    g.Covers (cand.convertArguments c args) (cand'.convertArguments c' args) := by
  have hzip : args.zip (cand'.targets.zip cand'.rules) =
      (args.zip (cand.targets.zip cand.rules)).map
        fun route => (route.1, route.2.1, copy route.2.2) := by
    rw [hcopied.targets, hcopied.rules, List.zip_map_right, List.zip_map_right]
    rfl
  have hpack : packArguments cand'.method = packArguments cand.method := by
    funext os
    rw [packArguments, packArguments, hcopied.rest, hcopied.fixed]
  rw [convertArguments, convertArguments, hzip, hpack]
  refine (covers_readArguments hc _ ?_).bind_left _
  rintro ⟨v, route⟩ hroute
  exact hcand.routes route (List.of_mem_zip hroute).2

/-- Results are converted by the copies of the rules. -/
theorem covers_convertResult
    (hc : g.CoversCatalog copy c c')
    (hcand : cand.Draws c)
    (hcopied : cand.CopiedBy copy cand')
    (mode : ResultMode)
    (o : Object) :
    g.Covers (cand.convertResult c mode o) (cand'.convertResult c' mode o) := by
  have hwrite : g.Covers
      (Action.orFail (.noReturnConverter o.type.display)
        ((c.findByType? o.type).or cand.returnRule) >>= fun rule => c.write rule o)
      (Action.orFail (.noReturnConverter o.type.display)
        ((c'.findByType? o.type).or cand'.returnRule) >>= fun rule => c'.write rule o) := by
    rw [hc.finds, hcopied.returnRule, ← Option.map_or]
    cases hrule : (c.findByType? o.type).or cand.returnRule with
    | none =>
        exact Gap.Covers.refl _
    | some rule =>
        refine hc.writes rule ?_ o
        rcases Option.or_eq_some_iff.1 hrule with hactual | ⟨-, hdeclared⟩
        · exact List.mem_of_find?_eq_some hactual
        · exact hcand.returnRule rule hdeclared
  refine Gap.Covers.bind_right _ fun p => ?_
  split
  · exact Gap.Covers.refl _
  · exact Gap.Covers.refl _
  · exact Gap.Covers.refl _
  · exact hwrite

end Candidate

end CellBridge
