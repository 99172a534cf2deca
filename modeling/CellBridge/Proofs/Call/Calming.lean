import CellBridge.Proofs.Call.Attempts
import CellBridge.Proofs.Call.Copies
import CellBridge.Proofs.Conversion.Softening
import CellBridge.Proofs.Heap.TableKeys

/-!
# Calm copies

A `Calming` gives each rule and each method a copy that fails wherever the original ends abruptly,
and does the same otherwise.  Nothing else about rules and methods changes, so lookups and
resolution find the copies of what they find (`resolve_calmed`).

The copies of rules reach copies only.  If the rules of a catalog soften, the conversions by the
copies soften those by the originals (`softens_conversions`); then every attempt ends alike
(`attempt_calmed`), and trying all candidates comes to exactly the same: `invokeMember_calmed`.
-/

namespace CellBridge

section Defs

/-- Copies of the actions of rules and of the bodies of methods, which fail wherever the originals
end abruptly. -/
structure Calming where
  toCell : Rule → Conversions → Writer
  toManaged : Rule → Conversions → Reader
  body : Method → Body
  calms_toCell : ∀ r cx o, Calms (r.toCell cx o) (toCell r cx o)
  calms_toManaged : ∀ r cx t v, Calms (r.toManaged cx t v) (toManaged r cx t v)
  calms_body : ∀ m receiver args, Calms (m.body receiver args) (body m receiver args)

namespace Calming

variable (κ : Calming)

/-- The copy of a rule. -/
def rule
    (r : Rule) : Rule :=
  { r with toCell := κ.toCell r, toManaged := κ.toManaged r }

def method
    (m : Method) : Method :=
  { m with body := κ.body m }

def catalog
    (c : Catalog) : Catalog :=
  { c with buckets := c.buckets.map fun b => { b with rules := b.rules.map κ.rule } }

def descriptor
    (d : ClassDescriptor) : ClassDescriptor :=
  { d with
    constructors := d.constructors.map κ.method
    methods := d.methods.map κ.method }

/-- The registry of the classes with copies. -/
def registry
    (r : Registry) : Registry :=
  { r with classes := r.classes.mapValues κ.descriptor }

/-- The candidate with copies of its method and its rules. -/
def candidate
    (cand : Candidate) : Candidate :=
  { cand with
    method := κ.method cand.method
    rules := cand.rules.map κ.rule
    returnRule := cand.returnRule.map κ.rule }

end Calming

/-- All rules of the catalog soften when the conversions that they call do. -/
def Catalog.Softening
    (c : Catalog) : Prop :=
  ∀ r ∈ c.rules, r.KeepsTo Gap.panics

end Defs

section Copies

variable {α : Type}

/-- The action with every panic turned into a failure with its message. -/
def Action.calmed
    (act : Action α) : Action α :=
  tryCatch act fun
    | .panicked m => Action.fail (.invocationFailure (m.getD Action.unknownPanic))
    | f => throw f

theorem calms_calmed
    (act : Action α) :
    Calms act act.calmed := by
  intro w
  rw [Action.calmed, tryCatch_run]
  cases act w with
  | mk result w' =>
      cases result with
      | ok a =>
          rfl
      | error f =>
          cases f with
          | panicked m =>
              exact ⟨_, rfl⟩
          | _ =>
              rfl

/-- The copies that report each panic as a failure with its message. -/
def Calming.reporting : Calming where
  toCell r cx o := (r.toCell cx o).calmed
  toManaged r cx t v := (r.toManaged cx t v).calmed
  body m receiver args := (m.body receiver args).calmed
  calms_toCell _ _ _ := calms_calmed _
  calms_toManaged _ _ _ _ := calms_calmed _
  calms_body _ _ _ := calms_calmed _

end Copies

namespace Calming

variable (κ : Calming)

section Lookups

variable (c : Catalog)

@[simp] theorem rules_catalog :
    (κ.catalog c).rules = c.rules.map κ.rule := by
  simp [Catalog.rules, catalog, List.map_flatMap, List.flatMap_map]

/-- The rule that reads a shape is the copy of the one that did. -/
@[simp] theorem findByShape?_catalog
    (s : Shape)
    (required : Ty) :
    (κ.catalog c).findByShape? s required = (c.findByShape? s required).map κ.rule := by
  rw [Catalog.findByShape?, rules_catalog, List.find?_map]
  rfl

/-- The rule that writes a type is the copy of the one that did. -/
@[simp] theorem findByType?_catalog
    (actual : Ty) :
    (κ.catalog c).findByType? actual = (c.findByType? actual).map κ.rule := by
  rw [Catalog.findByType?, rules_catalog, List.find?_map]
  rfl

end Lookups

section Methods

variable (r : Registry)

@[simp] theorem named?_registry
    (name : String) :
    (κ.registry r).named? name = (r.named? name).map κ.descriptor := by
  exact Table.get?_mapValues κ.descriptor r.classes name

@[simp] theorem lookup?_registry
    (name : String) :
    (κ.registry r).lookup? name = (r.lookup? name).map κ.descriptor := by
  rw [Registry.lookup?, Registry.lookup?, named?_registry, Option.map_or]
  congr 1
  show (r.aliases.get? name).bind (κ.registry r).named? = _
  cases r.aliases.get? name <;> simp

/-- Signatures are those of the originals, so the same methods are visible. -/
theorem foldl_addVisible_method
    (found ms : List Method) :
    (ms.map κ.method).foldl Registry.addVisible (found.map κ.method) =
      (ms.foldl Registry.addVisible found).map κ.method := by
  induction ms generalizing found with
  | nil =>
      rfl
  | cons m ms ih =>
      have hadd : Registry.addVisible (found.map κ.method) (κ.method m) =
          (Registry.addVisible found m).map κ.method := by
        have hany : ((found.map κ.method).any fun f => f.sameSignature (κ.method m)) =
            found.any fun f => f.sameSignature m := by
          rw [List.any_map]
          rfl
        rw [Registry.addVisible, Registry.addVisible, hany]
        split <;> simp
      rw [List.map_cons, List.foldl_cons, List.foldl_cons, hadd, ih]

@[simp] theorem declaredBy_registry
    (method name : String) :
    (κ.registry r).declaredBy method name = (r.declaredBy method name).map κ.method := by
  rw [Registry.declaredBy, Registry.declaredBy, named?_registry]
  cases r.named? name with
  | none =>
      rfl
  | some d =>
      show (κ.descriptor d).methods.filter _ = _
      rw [descriptor, List.filter_map]
      rfl

/-- The methods that a call can mean are copies of those that it could mean. -/
theorem visibleMethods_calmed
    (t : Ty)
    (member : String)
    (staticsOnly : Bool) :
    visibleMethods (κ.registry r) t member staticsOnly =
      (visibleMethods r t member staticsOnly).map κ.method := by
  rw [visibleMethods, visibleMethods]
  split
  · rw [Registry.constructorsOf, Registry.constructorsOf, Registry.descriptorFor?,
      Registry.descriptorFor?, named?_registry]
    cases r.named? t.key <;> rfl
  · have hdeclared : t.keyChain.flatMap ((κ.registry r).declaredBy member) =
        (t.keyChain.flatMap (r.declaredBy member)).map κ.method := by
      rw [List.map_flatMap, funext (κ.declaredBy_registry r member)]
    rw [Registry.methodsNamed, Registry.methodsNamed, hdeclared]
    have hvisible := κ.foldl_addVisible_method [] (t.keyChain.flatMap (r.declaredBy member))
    rw [List.map_nil] at hvisible
    rw [hvisible, List.filter_map]
    rfl

end Methods

section Resolution

variable (c : Catalog)

/-- The copies of the routes. -/
theorem routes_calmed
    (m : Method)
    (i : Nat)
    (shapes : List Shape) :
    Candidate.routes (κ.catalog c) (κ.method m) i shapes =
      (Candidate.routes c m i shapes).map (List.map fun route => (route.1, κ.rule route.2)) := by
  induction shapes generalizing i with
  | nil =>
      rfl
  | cons s shapes ih =>
      have htarget : (κ.method m).target i = m.target i := rfl
      rw [Candidate.routes, Candidate.routes, findByShape?_catalog, htarget]
      cases c.findByShape? s (m.target i) with
      | none =>
          rfl
      | some rule =>
          rw [Option.map_some]
          dsimp only
          rw [ih]
          cases Candidate.routes c m (i + 1) shapes <;> rfl

theorem totalPriority?_map_rule
    (rules : List Rule) :
    Candidate.totalPriority? (rules.map κ.rule) = Candidate.totalPriority? rules := by
  rw [Candidate.totalPriority?, List.foldlM_map]
  rfl

/-- The copy of the candidate that is built. -/
theorem build_calmed
    (shapes : List Shape)
    (m : Method)
    (order : Nat) :
    Candidate.build (κ.catalog c) shapes (κ.method m) order =
      (Candidate.build c shapes m order).map κ.candidate := by
  rw [Candidate.build, Candidate.build, routes_calmed]
  cases Candidate.routes c m 0 shapes with
  | error miss =>
      rfl
  | ok routes =>
      have hreturns : (κ.catalog c).findByType? (κ.method m).returns =
          (c.findByType? m.returns).map κ.rule := κ.findByType?_catalog c m.returns
      have htargets : (routes.map fun route => (route.1, κ.rule route.2)).map Prod.fst =
          routes.map Prod.fst := by
        simp
      have hrules : (routes.map fun route => (route.1, κ.rule route.2)).map Prod.snd =
          (routes.map Prod.snd).map κ.rule := by
        simp
      simp only [Except.map, hreturns, htargets, hrules, totalPriority?_map_rule]
      cases Candidate.totalSpecificity? (routes.map Prod.fst) with
      | none =>
          rfl
      | some specificity =>
          cases Candidate.totalPriority? (routes.map Prod.snd) <;> rfl

theorem buildAll_calmed
    (shapes : List Shape)
    (methods : List Method) :
    buildAll (κ.catalog c) shapes (methods.map κ.method) =
      (buildAll c shapes methods).map (Except.map κ.candidate) := by
  rw [buildAll, buildAll, List.zipIdx_map, List.filter_map, List.map_map, List.map_map]
  refine List.map_congr_left ?_
  rintro ⟨m, i⟩ -
  exact κ.build_calmed c shapes m i

/-- Copies stand in the order of the originals. -/
theorem mergeSort_candidate
    (cands : List Candidate) :
    (cands.map κ.candidate).mergeSort Candidate.precedes =
      (cands.mergeSort Candidate.precedes).map κ.candidate := by
  refine (List.map_mergeSort ?_).symm
  intro a _ b _
  rfl

/-- Resolution finds the copies of the candidates that it found, or fails as it did. -/
theorem resolve_calmed
    (r : Registry)
    (t : Ty)
    (member : String)
    (shapes : List Shape)
    (staticsOnly : Bool) :
    resolve (κ.catalog c) (κ.registry r) t member shapes staticsOnly =
      (resolve c r t member shapes staticsOnly).map (List.map κ.candidate) := by
  have hbuilt : ∀ results : List (Except Candidate.Setback Candidate),
      (results.map (Except.map κ.candidate)).filterMap builtCandidate? =
        (results.filterMap builtCandidate?).map κ.candidate := by
    intro results
    rw [List.filterMap_map, List.map_filterMap]
    congr 1
    funext result
    cases result <;> rfl
  have hmissed : ∀ results : List (Except Candidate.Setback Candidate),
      (results.map (Except.map κ.candidate)).findSome? missedArgument? =
        results.findSome? missedArgument? := by
    intro results
    rw [List.findSome?_map]
    congr 1
    funext result
    cases result <;> rfl
  have hoverflowed : ∀ results : List (Except Candidate.Setback Candidate),
      (results.map (Except.map κ.candidate)).any hasOverflowed = results.any hasOverflowed := by
    intro results
    rw [List.any_map]
    congr 1
    funext result
    cases result <;> rfl
  rw [resolve, resolve, visibleMethods_calmed]
  cases visibleMethods r t member staticsOnly with
  | nil =>
      rfl
  | cons m ms =>
      rw [List.map_cons]
      dsimp only
      rw [← List.map_cons, buildAll_calmed, hbuilt, hmissed, hoverflowed]
      split
      · rfl
      cases (buildAll c shapes (m :: ms)).filterMap builtCandidate? with
      | nil =>
          rw [List.map_nil]
          dsimp only
          cases (buildAll c shapes (m :: ms)).findSome? missedArgument? <;> rfl
      | cons cand cands =>
          rw [List.map_cons]
          dsimp only
          rw [← List.map_cons, mergeSort_candidate]
          rfl

end Resolution

section Conversions

variable {c : Catalog}

/-- Writing by the copy softens writing by the rule, if the conversions that they call do. -/
theorem softens_toCell
    {r : Rule}
    (hr : r.KeepsTo Gap.panics)
    {cx cx' : Conversions}
    (hcx : Gap.panics.CoversAll cx cx')
    (o : Object) :
    Softens (r.toCell cx o) ((κ.rule r).toCell cx' o) := by
  exact Softens.trans (hr.toCell hcx o) (κ.calms_toCell r cx' o).softens

/-- Reading by the copy softens reading by the rule, if the conversions that they call do. -/
theorem softens_toManaged
    {r : Rule}
    (hr : r.KeepsTo Gap.panics)
    {cx cx' : Conversions}
    (hcx : Gap.panics.CoversAll cx cx')
    (t : Ty)
    (v : Value) :
    Softens (r.toManaged cx t v) ((κ.rule r).toManaged cx' t v) := by
  exact Softens.trans (hr.toManaged hcx t v) (κ.calms_toManaged r cx' t v).softens

/-- Conversions by the copies soften those by the rules, however deep they are nested. -/
theorem softens_conversions
    (hc : c.Softening)
    (n : Nat) :
    Gap.panics.CoversAll (c.conversions n) ((κ.catalog c).conversions n) := by
  induction n with
  | zero =>
      constructor
      · intro s t
        simp only [Catalog.conversions, findByShape?_catalog, Option.map_map]
        exact rel_map fun _ _ _ _ => Gap.Covers.refl _
      · intro t
        simp only [Catalog.conversions, findByType?_catalog, Option.map_map]
        exact rel_map fun _ _ _ => Gap.Covers.refl _
  | succ n ih =>
      constructor
      · intro s t
        simp only [Catalog.conversions, findByShape?_catalog, Option.map_map]
        refine rel_map fun r hr => ?_
        exact κ.softens_toManaged (hc r (List.mem_of_find?_eq_some hr)) ih
      · intro t
        simp only [Catalog.conversions, findByType?_catalog, Option.map_map]
        refine rel_map fun r hr => ?_
        exact κ.softens_toCell (hc r (List.mem_of_find?_eq_some hr)) ih

theorem softens_read
    (hc : c.Softening)
    {r : Rule}
    (hr : r ∈ c.rules)
    (t : Ty)
    (v : Value) :
    Softens (c.read r t v) ((κ.catalog c).read (κ.rule r) t v) := by
  refine Gap.Covers.bind_right _ fun w => ?_
  exact κ.softens_toManaged (hc r hr) (κ.softens_conversions hc _) t v

theorem softens_write
    (hc : c.Softening)
    {r : Rule}
    (hr : r ∈ c.rules)
    (o : Object) :
    Softens (c.write r o) ((κ.catalog c).write (κ.rule r) o) := by
  refine Gap.Covers.bind_right _ fun w => ?_
  exact κ.softens_toCell (hc r hr) (κ.softens_conversions hc _) o

end Conversions

section Attempts

variable {c : Catalog} {cand : Candidate}

theorem coversCatalog
    (hc : c.Softening) :
    Gap.panics.CoversCatalog κ.rule c (κ.catalog c) := by
  exact ⟨fun r hr t v => κ.softens_read hc hr t v, fun r hr o => κ.softens_write hc hr o,
    κ.findByType?_catalog c⟩

theorem copiedBy_rule
    (cand : Candidate) :
    cand.CopiedBy κ.rule (κ.candidate cand) := by
  exact ⟨rfl, rfl, rfl, rfl, rfl⟩

/-- An attempt with the copies ends as the attempt does, but for the message of a failure. -/
theorem attempt_calmed
    (hc : c.Softening)
    (hcand : cand.Draws c)
    (receiver : Option Object)
    (args : List Value)
    (mode : ResultMode)
    (w : World) :
    SameEnding (cand.attempt c receiver args mode w).1
        ((κ.candidate cand).attempt (κ.catalog c) receiver args mode w).1 ∧
      ((κ.candidate cand).attempt (κ.catalog c) receiver args mode w).2 =
        (cand.attempt c receiver args mode w).2 := by
  have hcovers := κ.coversCatalog hc
  have hcopied := κ.copiedBy_rule cand
  refine Softens.guarded ?_ _ w
  refine (Candidate.covers_convertArguments hcovers hcand hcopied args).bind fun converted => ?_
  refine (κ.calms_body cand.method receiver converted).softens.bind fun o => ?_
  exact Candidate.covers_convertResult hcovers hcand hcopied mode o

/-- Failures of candidates are not told apart by their messages, so trying the copies of candidates
comes to the same. -/
theorem attemptAll_calmed
    (hc : c.Softening)
    (receiver : Option Object)
    (args : List Value)
    (mode : ResultMode)
    (cands : List Candidate)
    (hcands : ∀ cand ∈ cands, cand.Draws c)
    (w : World) :
    Candidate.attemptAll (κ.catalog c) receiver args mode (cands.map κ.candidate) w =
      Candidate.attemptAll c receiver args mode cands w := by
  induction cands generalizing w with
  | nil =>
      rfl
  | cons cand cands ih =>
      obtain ⟨hending, hworld⟩ :=
        κ.attempt_calmed hc (hcands cand List.mem_cons_self) receiver args mode w
      rw [List.map_cons, Candidate.attemptAll_cons_run, Candidate.attemptAll_cons_run]
      cases hrun : cand.attempt c receiver args mode w with
      | mk result w' =>
          cases hrun' : (κ.candidate cand).attempt (κ.catalog c) receiver args mode w with
          | mk result' w'' =>
              rw [hrun, hrun'] at hending hworld
              cases hworld
              have hrest := ih (fun x hx => hcands x (List.mem_cons_of_mem cand hx)) w'
              cases hending with
              | same =>
                  cases result with
                  | ok v =>
                      rfl
                  | error f =>
                      dsimp only
                      rw [hrest]
              | failed text text' =>
                  exact hrest

/-- A call of a member with the copies of candidates comes to the same. -/
theorem invokeMember_calmed
    (hc : c.Softening)
    (t : Ty)
    (member : String)
    (receiver : Option Object)
    (args : List Value)
    (mode : ResultMode)
    (cands : List Candidate)
    (hcands : ∀ cand ∈ cands, cand.Draws c)
    (w : World) :
    invokeMember (κ.catalog c) t member receiver args mode (cands.map κ.candidate) w =
      invokeMember c t member receiver args mode cands w := by
  have hname : ((cands.map κ.candidate).head?.map fun cand => cand.method.name) =
      cands.head?.map fun cand => cand.method.name := by
    cases cands <;> rfl
  rw [invokeMember, invokeMember, tryCatch_run, tryCatch_run, invoke, invoke, bind_run, bind_run,
    κ.attemptAll_calmed hc receiver args mode cands hcands, hname, List.length_map]

end Attempts

end Calming
end CellBridge
