import CellBridge.Proofs.Call.Fallback
import CellBridge.Proofs.Call.Resolution
import CellBridge.Proofs.Call.Results
import CellBridge.Proofs.Call.Visibility
import CellBridge.Proofs.Conversion.IntegerTypes

/-!
# Overloads for one number

Seven types take a number: the integer types, doubles, cell values and any object.  `order` lists
them from the narrowest to the widest, which is also the order of their ranks.  The integer types
take the integers in their range, the other three take all numbers.

A name may be declared for any of these types, anywhere along the chain of a class.  One overload of
each type is visible, and the candidates for them stand in the order of the types
(`resolve_numeric`).  A candidate whose type does not take the number fails and leaves nothing
behind, so the first one whose type does runs its body, and no other body runs
(`exists_run_of_applies`, `runs_of_rejects`).
-/

namespace CellBridge

section Defs

/-- A type that numbers can be read as. -/
inductive NumericType where
  | integer (k : IntegerType)
  | double
  | tagged
  | any
deriving DecidableEq

namespace NumericType

def type : NumericType → Ty
  | .integer k => k.type
  | .double => .double
  | .tagged => .tagged
  | .any => .any

/-- The rule that reads numbers where the type is wanted. -/
def rule : NumericType → Rule
  | .integer k => k.rule
  | .double => Scalar.double
  | .tagged => Reference.tagged
  | .any => Scalar.double

/-- All numeric types, the narrowest first. -/
def order : List NumericType :=
  [.integer .byte, .integer .short, .integer .int, .integer .long, .double, .tagged, .any]

/-- The type takes the number. -/
def Applies
    (n : Number) : NumericType → Prop
  | .integer k => n.isFinite = true ∧ ∃ i : Int, n.value = i ∧ k.low ≤ i ∧ i ≤ k.high
  | .double => True
  | .tagged => True
  | .any => True

/-- The object holds the number, in the form that the type gives to it. -/
def Holds
    (s : Store)
    (o : Object)
    (n : Number) : NumericType → Prop
  | .integer k => ∃ i : Int, n.value = i ∧ k.Holds s o i
  | .double => o.type = .double ∧ s.payload o = .double n
  | .tagged => o.type = .tagged ∧ s.payload o = .tagged (.number n)
  | .any => o.type = .double ∧ s.payload o = .double n

end NumericType

/-- A static method for one argument of a numeric type.  Its body gives a text. -/
structure Method.IsNumericOverload
    (m : Method) : Prop where
  isStatic : m.isStatic = true
  plain : m.isConstructor = false
  unary : ∃ k : NumericType, m.fixed = [k.type]
  rest : m.rest = none
  text : ∀ args w, ∃ o w' s, m.body none args w = (.ok o, w') ∧ o.type = .text ∧
    w'.store.payload o = .text s

namespace Registry

variable (r : Registry) (t : Ty) (member : String)

/-- The name is declared for the numeric type. -/
def Offers
    (k : NumericType) : Prop :=
  ∃ m ∈ r.declarations t member, m.fixed = [k.type]

/-- The first type in order for which the name is declared and that takes the number. -/
structure FirstChoice
    (n : Number)
    (k : NumericType) : Prop where
  offers : r.Offers t member k
  applies : k.Applies n
  first : ∃ narrower wider, NumericType.order = narrower ++ k :: wider ∧
    ∀ u ∈ narrower, r.Offers t member u → ¬ u.Applies n

end Registry

namespace Candidate

/-- The candidate stands for an overload of the numeric type. -/
structure Wants
    (k : NumericType)
    (cand : Candidate) : Prop where
  overload : cand.method.IsNumericOverload
  fixed : cand.method.fixed = [k.type]
  targets : cand.targets = [k.type]
  rules : cand.rules = [k.rule]
  specificity : cand.specificity.toNat = k.type.rank

/-- The type of the overload does not take the number. -/
def Rejects
    (n : Number)
    (cand : Candidate) : Prop :=
  ∃ k, cand.Wants k ∧ ¬ k.Applies n

/-- The bodies that run while candidates are tried. -/
def runs
    (c : Catalog)
    (receiver : Option Object)
    (args : List Value)
    (tried : List Attempt) : List BodyRun :=
  tried.filterMap fun a => a.candidate.bodyRun? c receiver args a.start

end Candidate

end Defs

namespace NumericType

variable {k u : NumericType} {n : Number}

section Order

theorem mem_order
    (k : NumericType) :
    k ∈ order := by
  cases k with
  | integer i =>
      cases i <;> decide
  | _ =>
      decide

/-- The narrower type has the higher rank. -/
theorem order_sorted :
    order.Pairwise fun k u => u.type.rank < k.type.rank := by
  decide

/-- The rank tells the types apart. -/
theorem rank_injective
    (h : k.type.rank = u.type.rank) :
    k = u := by
  have hall : ∀ k ∈ order, ∀ u ∈ order, k.type.rank = u.type.rank → k = u := by
    decide
  exact hall k (mem_order k) u (mem_order u) h

theorem rank_lt
    (k : NumericType) :
    k.type.rank < 2 ^ 32 := by
  have hall : ∀ k ∈ order, k.type.rank < 2 ^ 32 := by
    decide
  exact hall k (mem_order k)

/-- The types before a type are those of higher rank. -/
theorem exists_order_split
    (k : NumericType) :
    ∃ narrower wider, order = narrower ++ k :: wider ∧
      ∀ u ∈ narrower, k.type.rank < u.type.rank := by
  obtain ⟨narrower, wider, hsplit⟩ := List.append_of_mem (mem_order k)
  refine ⟨narrower, wider, hsplit, ?_⟩
  have hsorted := order_sorted
  rw [hsplit, List.pairwise_append] at hsorted
  intro u hu
  exact hsorted.2.2 u hu k List.mem_cons_self

end Order

section Reading

theorem findByShape?_number
    (k : NumericType) :
    standardCatalog.findByShape? .number k.type = some k.rule := by
  cases k with
  | integer i =>
      exact i.findByShape?_number
  | _ =>
      rfl

/-- A number that the type takes becomes an object that holds it. -/
theorem Applies.exists_read
    (h : k.Applies n)
    (w : World) :
    ∃ o w', standardCatalog.read k.rule k.type (.number n) w = (.ok o, w') ∧
      k.Holds w'.store o n := by
  cases k with
  | integer k =>
      obtain ⟨hfinite, i, hi, hrange⟩ := h
      have hwithin := Scalar.integerWithin?_eq_some_iff.2 ⟨hfinite, hi, hrange⟩
      obtain ⟨o, w', hread, -, hholds⟩ := IntegerType.exists_read hwithin w
      exact ⟨o, w', hread, i, hi, hholds⟩
  | double =>
      exact ⟨_, _, rfl, rfl, Store.payload_alloc _ _⟩
  | tagged =>
      exact ⟨_, _, rfl, rfl, Store.payload_alloc _ _⟩
  | any =>
      exact ⟨_, _, rfl, rfl, Store.payload_alloc _ _⟩

/-- Any other number is refused, and the world stays as it is. -/
theorem read_of_not_applies
    (h : ¬ k.Applies n)
    (w : World) :
    ∃ message, standardCatalog.read k.rule k.type (.number n) w =
      (.error (.failed (.conversion message)), w) := by
  cases k with
  | integer k =>
      cases hwithin : Scalar.integerWithin? k.low k.high n with
      | some i =>
          obtain ⟨hfinite, hi, hrange⟩ := Scalar.integerWithin?_eq_some_iff.1 hwithin
          exact absurd ⟨hfinite, i, hi, hrange⟩ h
      | none =>
          refine ⟨n.display ++ " is not a " ++ k.name, ?_⟩
          rw [rule, type, IntegerType.read_run, hwithin]
          rfl
  | _ =>
      exact absurd trivial h

end Reading

end NumericType

namespace Candidate

variable {cand : Candidate} {cands before : List Candidate} {k : NumericType} {n : Number}

section Single

theorem Wants.unique
    {u : NumericType}
    (hk : cand.Wants k)
    (hu : cand.Wants u) :
    k = u := by
  exact NumericType.rank_injective (hk.specificity.symm.trans hu.specificity)

/-- The only argument is read by the rule for the type. -/
theorem Wants.convertArguments_run
    (h : cand.Wants k)
    (v : Value)
    (w : World) :
    cand.convertArguments standardCatalog [v] w =
      match standardCatalog.read k.rule k.type v w with
      | (.ok o, w') => (.ok [o], w')
      | (.error f, w') => (.error f, w') := by
  have hpack : packArguments cand.method = pure := by
    funext os
    rw [packArguments, h.overload.rest]
  rw [convertArguments, h.targets, h.rules, hpack]
  simp only [List.zip_cons_cons, List.zip_nil_right, readArguments, pure_bind, bind_run]
  cases standardCatalog.read k.rule k.type v w with
  | mk result w' =>
      cases result <;> rfl

/-- An overload whose type takes the number runs its body, and the call succeeds. -/
theorem Wants.exists_run
    (h : cand.Wants k)
    (hn : k.Applies n)
    (mode : ResultMode)
    (w : World) :
    ∃ o start v w', k.Holds start.store o n ∧
      cand.bodyRun? standardCatalog none [.number n] w =
        some { method := cand.method, receiver := none, args := [o], start := start } ∧
      cand.attempt standardCatalog none [.number n] mode w = (.ok v, w') := by
  obtain ⟨o, start, hread, hholds⟩ := hn.exists_read w
  have hconvert : cand.convertArguments standardCatalog [.number n] w = (.ok [o], start) := by
    rw [h.convertArguments_run, hread]
  let run : BodyRun := { method := cand.method, receiver := none, args := [o], start := start }
  have hrun : cand.bodyRun? standardCatalog none [.number n] w = some run :=
    bodyRun?_eq_some.2 ⟨rfl, rfl, hconvert⟩
  obtain ⟨o', w₁, s, hbody, htype, hpayload⟩ := h.overload.text [o] start
  obtain ⟨v, w₂, hresult⟩ := cand.exists_convertResult_text mode htype hpayload
  exact ⟨o, start, v, w₂, hholds, hrun, attempt_run_ok.2 ⟨_, o', w₁, hrun, hbody, hresult⟩⟩

/-- An overload whose type does not take the number fails, and leaves nothing behind. -/
theorem Rejects.attempt_run
    (h : cand.Rejects n)
    (mode : ResultMode)
    (w : World) :
    cand.bodyRun? standardCatalog none [.number n] w = none ∧
      ∃ message, cand.attempt standardCatalog none [.number n] mode w =
        (.error (.failed (.conversion message)), w) := by
  obtain ⟨k, hk, hn⟩ := h
  obtain ⟨message, hread⟩ := NumericType.read_of_not_applies hn w
  have hconvert : cand.convertArguments standardCatalog [.number n] w =
      (.error (.failed (.conversion message)), w) := by
    rw [hk.convertArguments_run, hread]
  obtain ⟨hrun, hattempt⟩ := attempt_of_failed mode hconvert
  exact ⟨hrun, message, hattempt⟩

end Single

section Runs

variable {c : Catalog} {receiver : Option Object} {args : List Value}

@[simp] theorem runs_nil :
    runs c receiver args [] = [] := by
  rfl

@[simp] theorem runs_cons
    (a : Attempt)
    (tried : List Attempt) :
    runs c receiver args (a :: tried) =
      (a.candidate.bodyRun? c receiver args a.start).toList ++ runs c receiver args tried := by
  rw [runs, List.filterMap_cons]
  cases a.candidate.bodyRun? c receiver args a.start <;> rfl

@[simp] theorem runs_append
    (tried more : List Attempt) :
    runs c receiver args (tried ++ more) =
      runs c receiver args tried ++ runs c receiver args more := by
  exact List.filterMap_append

end Runs

section Several

/-- Overloads whose types do not take the number fail in turn, without a trace and without a run. -/
theorem falls_of_rejects
    (h : ∀ cand ∈ cands, cand.Rejects n)
    (mode : ResultMode)
    (w : World) :
    Falls standardCatalog none [.number n] mode cands w ∧
      worldAfter standardCatalog none [.number n] mode cands w = w ∧
      runs standardCatalog none [.number n]
        (inTurn standardCatalog none [.number n] mode cands w) = [] := by
  induction cands with
  | nil =>
      exact ⟨falls_nil, worldAfter_nil, runs_nil⟩
  | cons cand cands ih =>
      obtain ⟨hfirst, hrest⟩ := List.forall_mem_cons.1 h
      obtain ⟨hrun, message, hattempt⟩ := hfirst.attempt_run mode w
      obtain ⟨hfalls, hworld, hruns⟩ := ih hrest
      have hsetback : IsSetback (.error (.failed (.conversion message))) :=
        ⟨_, rfl, fun h => BridgeError.noConfusion⟩
      rw [falls_cons, worldAfter_cons, inTurn_cons, runs_cons, hrun, hattempt]
      exact ⟨⟨hsetback, hfalls⟩, hworld, hruns⟩

/-- The first overload whose type takes the number runs its body, and no other body runs.  What it
gives is the answer. -/
theorem exists_run_of_applies
    (hbefore : ∀ cand ∈ before, cand.Rejects n)
    (hcand : cand.Wants k)
    (hn : k.Applies n)
    (after : List Candidate)
    (t : Ty)
    (member : String)
    (mode : ResultMode)
    (w : World) :
    ∃ o start v w', k.Holds start.store o n ∧
      runs standardCatalog none [.number n]
          (attempts standardCatalog none [.number n] mode (before ++ cand :: after) w) =
        [{ method := cand.method, receiver := none, args := [o], start := start }] ∧
      invokeMember standardCatalog t member none [.number n] mode (before ++ cand :: after) w =
        (.ok v, w') := by
  obtain ⟨hfalls, hworld, hnone⟩ := falls_of_rejects hbefore mode w
  obtain ⟨o, start, v, w', hholds, hrun, hattempt⟩ := hcand.exists_run hn mode w
  have hdecides : Decides
      (resultAfter standardCatalog none [.number n] mode before w cand) := by
    rw [resultAfter, hworld, hattempt]
    exact Or.inl ⟨v, rfl⟩
  refine ⟨o, start, v, w', hholds, ?_, ?_⟩
  · rw [attempts_of_decides hfalls hdecides, inTurn_append, runs_append, hnone, hworld,
      inTurn_cons, runs_cons, hrun]
    rfl
  · rw [invokeMember_of_decides t member hfalls hdecides, hworld, hattempt]

/-- Where no overload takes the number, no body runs and the call fails. -/
theorem runs_of_rejects
    (h : ∀ cand ∈ cands, cand.Rejects n)
    (t : Ty)
    (member : String)
    (mode : ResultMode)
    (w : World) :
    runs standardCatalog none [.number n]
        (attempts standardCatalog none [.number n] mode cands w) = [] ∧
      invokeMember standardCatalog t member none [.number n] mode cands w =
        (.error (.failed (.noSuccessfulOverload t.display member 1 cands.length)), w) := by
  obtain ⟨hfalls, hworld, hnone⟩ := falls_of_rejects h mode w
  rw [attempts_of_falls hfalls, invokeMember_of_falls t member hfalls, hworld]
  exact ⟨hnone, rfl⟩

/-- Either all overloads reject the number, or there is a first one that does not. -/
theorem rejects_or_applies
    (h : ∀ cand ∈ cands, ∃ k, cand.Wants k)
    (n : Number) :
    (∀ cand ∈ cands, cand.Rejects n) ∨
      ∃ before cand after k, cands = before ++ cand :: after ∧
        (∀ cand ∈ before, cand.Rejects n) ∧ cand.Wants k ∧ k.Applies n := by
  induction cands with
  | nil =>
      exact Or.inl (List.forall_mem_nil _)
  | cons cand cands ih =>
      obtain ⟨⟨k, hk⟩, hrest⟩ := List.forall_mem_cons.1 h
      by_cases hn : k.Applies n
      · exact Or.inr ⟨[], cand, cands, k, rfl, List.forall_mem_nil _, hk, hn⟩
      · have hfirst : cand.Rejects n := ⟨k, hk, hn⟩
        rcases ih hrest with hall | ⟨before, cand', after, u, rfl, hbefore, hu⟩
        · exact Or.inl (List.forall_mem_cons.2 ⟨hfirst, hall⟩)
        · exact Or.inr ⟨cand :: before, cand', after, u, rfl,
            List.forall_mem_cons.2 ⟨hfirst, hbefore⟩, hu⟩

end Several

end Candidate

section Resolution

variable {m : Method} {cand : Candidate}

namespace Method.IsNumericOverload

/-- An overload takes one number. -/
theorem takes
    (h : m.IsNumericOverload) :
    m.Takes standardCatalog [.number] := by
  obtain ⟨k, hk⟩ := h.unary
  refine ⟨?_, ?_⟩
  · simp [acceptsArity, isVariadic, h.rest, hk]
  · intro arg harg
    obtain rfl := List.mem_singleton.1 harg
    simp [ruleFor?, target, hk, k.findByShape?_number]

/-- The rank of a numeric type is all that an overload calls for. -/
theorem fits
    (h : m.IsNumericOverload) :
    m.Fits standardCatalog [.number] := by
  obtain ⟨k, hk⟩ := h.unary
  refine fits_of_length_le_one (Nat.le_refl 1) ?_
  have htarget : m.target 0 = k.type := by
    simp [target, hk]
  rw [htarget]
  exact k.rank_lt

/-- The candidate for an overload is of its type. -/
theorem exists_wants
    (h : m.IsNumericOverload)
    (hserves : cand.Serves standardCatalog [.number] m) :
    ∃ k, cand.Wants k := by
  obtain ⟨k, hk⟩ := h.unary
  have htarget : m.target 0 = k.type := by
    simp [target, hk]
  have htargets : cand.targets = [k.type] := by
    simpa [htarget] using hserves.targets
  have hrules : cand.rules = [k.rule] := by
    have hmap : cand.rules.map some = [some k.rule] := by
      simpa [ruleFor?, htarget, k.findByShape?_number] using hserves.rules
    exact (List.map_injective_iff.2 (Option.some_injective Rule)) hmap
  refine ⟨k, ?_, ?_, htargets, hrules, ?_⟩
  · rwa [hserves.method]
  · rwa [hserves.method]
  · simp [hserves.specificity, htargets]

/-- Overloads of one type have one signature, and of different types different ones. -/
theorem sameSignature_iff
    {m' : Method}
    (h : m.IsNumericOverload)
    (h' : m'.IsNumericOverload)
    {k u : NumericType}
    (hk : m.fixed = [k.type])
    (hu : m'.fixed = [u.type]) :
    m.sameSignature m' = true ↔ k = u := by
  have houtline : ∀ k : NumericType, k.type.outline = k.type := by
    intro k
    cases k with
    | integer i =>
        cases i <;> rfl
    | _ =>
        rfl
  rw [Method.sameSignature_iff]
  constructor
  · intro hsame
    have htypes : k.type = u.type := by
      simpa [signature, params, h.rest, h'.rest, hk, hu, houtline] using congrArg Prod.snd hsame
    exact NumericType.rank_injective (congrArg Ty.rank htypes)
  · rintro rfl
    simp [signature, isVariadic, params, h.rest, h'.rest, hk, hu]

end Method.IsNumericOverload

namespace Registry

variable {r : Registry} {t : Ty} {member : String}

theorem name_of_mem_declarations
    (h : m ∈ r.declarations t member) :
    m.name = member := by
  obtain ⟨name, -, hm⟩ := List.mem_flatMap.1 h
  rw [declaredBy] at hm
  cases hd : r.named? name with
  | none =>
      rw [hd] at hm
      cases hm
  | some d =>
      rw [hd] at hm
      exact eq_of_beq (List.mem_filter.1 hm).2

theorem mem_declarations_of_nearest
    (h : r.Nearest t member m) :
    m ∈ r.declarations t member := by
  obtain ⟨before, after, hsplit, -⟩ := h
  rw [hsplit]
  exact List.mem_append_right before List.mem_cons_self

/-- No other type that is offered and takes the number has a higher rank than the first choice. -/
theorem FirstChoice.le
    {n : Number}
    {k u : NumericType}
    (h : r.FirstChoice t member n k)
    (hoffers : r.Offers t member u)
    (hn : u.Applies n) :
    u.type.rank ≤ k.type.rank := by
  obtain ⟨narrower, wider, hsplit, hnarrower⟩ := h.first
  have hu := u.mem_order
  have hsorted := NumericType.order_sorted
  rw [hsplit, List.mem_append, List.mem_cons] at hu
  rw [hsplit, List.pairwise_append, List.pairwise_cons] at hsorted
  rcases hu with hu | rfl | hu
  · exact absurd hn (hnarrower u hu hoffers)
  · exact Nat.le_refl _
  · exact Nat.le_of_lt (hsorted.2.1.1 u hu)

/-- There is one first choice. -/
theorem FirstChoice.unique
    {n : Number}
    {k u : NumericType}
    (hk : r.FirstChoice t member n k)
    (hu : r.FirstChoice t member n u) :
    k = u := by
  have hle := hu.le hk.offers hk.applies
  have hge := hk.le hu.offers hu.applies
  exact NumericType.rank_injective (Nat.le_antisymm hle hge)

/-- The first candidate whose type takes the number is of the first choice, as the candidates stand
in the order of the types. -/
theorem firstChoice_of_split
    {n : Number}
    {k : NumericType}
    {before after : List Candidate}
    (hsorted : (before ++ cand :: after).Pairwise fun a b => b.specificity < a.specificity)
    (hoffered : ∀ u, r.Offers t member u → ∃ c ∈ before ++ cand :: after, c.Wants u)
    (hbefore : ∀ c ∈ before, c.Rejects n)
    (hcand : cand.Wants k)
    (hoffers : r.Offers t member k)
    (hn : k.Applies n) :
    r.FirstChoice t member n k := by
  obtain ⟨narrower, wider, hsplit, hnarrower⟩ := k.exists_order_split
  refine ⟨hoffers, hn, narrower, wider, hsplit, ?_⟩
  intro u hu huoffers hun
  have hlt := hnarrower u hu
  obtain ⟨c, hc, hcu⟩ := hoffered u huoffers
  rw [List.pairwise_append, List.pairwise_cons] at hsorted
  rw [List.mem_append, List.mem_cons] at hc
  rcases hc with hc | rfl | hc
  · obtain ⟨v, hcv, hnot⟩ := hbefore c hc
    rw [hcv.unique hcu] at hnot
    exact hnot hun
  · rw [hcand.unique hcu] at hlt
    exact Nat.lt_irrefl _ hlt
  · have hafter := hsorted.2.1.1 c hc
    rw [UInt32.lt_iff_toNat_lt, hcu.specificity, hcand.specificity] at hafter
    exact Nat.lt_asymm hlt hafter

/-- What is visible is the nearest declaration of an overload. -/
theorem overload_of_visible
    (hall : ∀ m ∈ r.declarations t member, m.IsNumericOverload)
    (hm : m ∈ r.methodsNamed t member) :
    r.Nearest t member m ∧ m.IsNumericOverload := by
  have hnearest := (mem_methodsNamed_iff r t member).1 hm
  exact ⟨hnearest, hall m (mem_declarations_of_nearest hnearest)⟩

/-- A static call can mean all of the visible overloads. -/
theorem visibleMethods_numeric
    (hall : ∀ m ∈ r.declarations t member, m.IsNumericOverload)
    (hsome : r.declarations t member ≠ []) :
    visibleMethods r t member true = r.methodsNamed t member := by
  obtain ⟨m, hm⟩ := List.exists_mem_of_ne_nil _ hsome
  have hmember : member ≠ constructorName := by
    intro hinit
    have hplain := (hall m hm).plain
    rw [Method.isConstructor, name_of_mem_declarations hm, hinit] at hplain
    cases hplain
  rw [visibleMethods, if_neg hmember, List.filter_eq_self]
  exact fun m' hm' => (overload_of_visible hall hm').2.isStatic

/-- Of two candidates for visible overloads the one that is tried first is of higher rank: with
equal ranks they would be of one type, and only one declaration of a type is visible. -/
theorem specificity_lt_of_triedBefore
    {m' : Method}
    {a b : Candidate}
    (hm : (r.methodsNamed t member)[a.order]? = some m)
    (hm' : (r.methodsNamed t member)[b.order]? = some m')
    (h : m.IsNumericOverload)
    (h' : m'.IsNumericOverload)
    (ha : a.Serves standardCatalog [.number] m)
    (hb : b.Serves standardCatalog [.number] m')
    (hab : a.TriedBefore b)
    (hne : a.order ≠ b.order) :
    b.specificity < a.specificity := by
  obtain ⟨k, hk⟩ := h.exists_wants ha
  obtain ⟨u, hu⟩ := h'.exists_wants hb
  rcases hab with hlt | ⟨heq, -⟩
  · exact hlt
  · rw [← UInt32.toNat_inj, hk.specificity, hu.specificity] at heq
    have hsame := (h.sameSignature_iff h' (ha.method ▸ hk.fixed) (hb.method ▸ hu.fixed)).2
      (NumericType.rank_injective heq)
    exact absurd (r.position_unique t member hm hm' hsame) hne

/-- A static call with a number finds one candidate for each type that the name is declared for,
the nearest declaration of this type, and the narrower types first. -/
theorem resolve_numeric
    (hall : ∀ m ∈ r.declarations t member, m.IsNumericOverload)
    (hsome : r.declarations t member ≠ []) :
    ∃ cands, resolve standardCatalog r t member [.number] true = .ok cands ∧
      cands.length = (r.methodsNamed t member).length ∧
      cands.Pairwise (fun a b => b.specificity < a.specificity) ∧
      (∀ cand ∈ cands, r.Nearest t member cand.method ∧ ∃ k, cand.Wants k) ∧
      ∀ k, r.Offers t member k → ∃ cand ∈ cands, cand.Wants k := by
  have hvisible := visibleMethods_numeric hall hsome
  have hne : visibleMethods r t member true ≠ [] := by
    obtain ⟨m, hm⟩ := List.exists_mem_of_ne_nil _ hsome
    obtain ⟨n, hn, -⟩ := r.exists_mem_methodsNamed t member hm
    rw [hvisible]
    exact List.ne_nil_of_mem hn
  have htakes : ∀ m ∈ visibleMethods r t member true, m.Takes standardCatalog [.number] := by
    rw [hvisible]
    exact fun m hm => (overload_of_visible hall hm).2.takes
  have hfit : AllFit standardCatalog [.number] (visibleMethods r t member true) := by
    rw [hvisible]
    exact fun m hm _ => (overload_of_visible hall hm).2.fits
  obtain ⟨cands, hresolve, hlength, hpairwise, hserves, hmem⟩ := resolve_of_takes hne hfit htakes
  rw [hvisible] at hlength hserves hmem
  refine ⟨cands, hresolve, hlength, ?_, ?_, ?_⟩
  · refine hpairwise.imp_of_mem ?_
    rintro a b ha hb ⟨hab, hne⟩
    obtain ⟨m, hm, hma⟩ := hserves a ha
    obtain ⟨n, hn, hnb⟩ := hserves b hb
    exact specificity_lt_of_triedBefore hm hn
      (overload_of_visible hall (List.mem_of_getElem? hm)).2
      (overload_of_visible hall (List.mem_of_getElem? hn)).2 hma hnb hab hne
  · intro cand hcand
    obtain ⟨m, hm, hcandm⟩ := hserves cand hcand
    obtain ⟨hnearest, hoverload⟩ := overload_of_visible hall (List.mem_of_getElem? hm)
    exact ⟨hcandm.method ▸ hnearest, hoverload.exists_wants hcandm⟩
  · rintro k ⟨m, hm, hk⟩
    obtain ⟨n, hn, hsame⟩ := r.exists_mem_methodsNamed t member hm
    obtain ⟨cand, hcand, hcandn⟩ := hmem n hn
    have hoverload := (overload_of_visible hall hn).2
    obtain ⟨u, hu⟩ := hoverload.exists_wants hcandn
    obtain rfl := (hoverload.sameSignature_iff (hall m hm) (hcandn.method ▸ hu.fixed) hk).1 hsame
    exact ⟨cand, hcand, hu⟩

end Registry

end Resolution

end CellBridge
