import CellBridge.Proofs.Call.Visibility
import CellBridge.Proofs.Session.CacheKey

/-!
# Overridden methods

A call runs the bodies of visible methods only, so a method that is overridden below the class that
declares it is not run, and not tried after the overriding one either.

Candidates are remembered by the name of a type, so it is the first request of a key that decides
which methods a call can mean: `lookup_answering` says that a lookup gives the candidates of the
request `answering`, and `visible_of_bodyRun` that a call runs bodies of its methods.  These are the
methods of the type that is called if both types have the same ancestors.  A namesake with other
ancestors may lead to a body that the type itself overrides: `namesake_runs_overridden`.
-/

namespace CellBridge
namespace Bridge

section Defs

/-- The first of the requests with the key for which candidates are found. -/
def firstFound?
    (b : Bridge)
    (rs : List Request)
    (key : CandidateKey) : Option Request :=
  rs.find? fun q => q.key == key && (b.resolved q).toBool

/-- The request whose candidates a lookup for `r` gives after the requests `rs`. -/
def answering
    (b : Bridge)
    (rs : List Request)
    (r : Request) : Request :=
  if b.config.cacheCandidates then (b.firstFound? rs r.key).getD r else r

end Defs

variable {b : Bridge} {rs : List Request} {s : Session} {r q : Request} {key : CandidateKey}

section Remembering

theorem firstFound?_eq_some
    (h : b.firstFound? rs key = some q) :
    q.key = key ∧ ∃ cands, b.resolved q = .ok cands := by
  have hfound := List.find?_some h
  rw [Bool.and_eq_true, beq_iff_eq] at hfound
  refine ⟨hfound.1, ?_⟩
  cases hres : b.resolved q with
  | ok cands =>
      exact ⟨cands, rfl⟩
  | error e =>
      rw [hres] at hfound
      cases hfound.2

/-- The requests of one more are those before, or else the new one. -/
theorem firstFound?_append
    (b : Bridge)
    (rs : List Request)
    (r : Request)
    (key : CandidateKey) :
    b.firstFound? (rs ++ [r]) key =
      (b.firstFound? rs key).or
        (if r.key = key ∧ (b.resolved r).toBool = true then some r else none) := by
  simp only [firstFound?, List.find?_append, List.find?_singleton, Bool.and_eq_true, beq_iff_eq]

/-- A lookup remembers what it finds, unless something is remembered already. -/
theorem get?_cache_lookup
    (hon : b.config.cacheCandidates = true)
    (r : Request)
    (s : Session)
    (key : CandidateKey) :
    (b.lookup r s).2.cache.get? key =
      (s.cache.get? key).or (if r.key = key then (b.resolved r).toOption else none) := by
  rw [lookup_run, hon]
  by_cases hkey : r.key = key
  · rw [if_pos hkey]
    subst hkey
    cases hget : s.cache.get? r.key with
    | some known =>
        exact hget
    | none =>
        cases b.resolved r with
        | ok cands =>
            show (s.cache.insert r.key cands).get? r.key = some cands
            rw [Table.get?_insert, if_pos rfl]
        | error e =>
            exact hget
  · rw [if_neg hkey, Option.or_none]
    cases s.cache.get? r.key with
    | some known =>
        rfl
    | none =>
        cases b.resolved r with
        | ok cands =>
            show (s.cache.insert r.key cands).get? key = s.cache.get? key
            rw [Table.get?_insert, if_neg hkey]
        | error e =>
            rfl

/-- What is remembered are the candidates that were found first. -/
theorem Reached.get?_cache
    (hs : b.Reached rs s)
    (hon : b.config.cacheCandidates = true)
    (key : CandidateKey) :
    s.cache.get? key = (b.firstFound? rs key).bind fun q => (b.resolved q).toOption := by
  induction hs with
  | start w =>
      rfl
  | change hs w ih =>
      exact ih
  | @lookup rs s hs r ih =>
      rw [get?_cache_lookup hon, ih, firstFound?_append]
      cases hfirst : b.firstFound? rs key with
      | some q =>
          obtain ⟨-, cands, hres⟩ := firstFound?_eq_some hfirst
          rw [Option.some_or, Option.bind_some, hres]
          rfl
      | none =>
          rw [Option.none_or, Option.bind_none, Option.none_or]
          by_cases hkey : r.key = key
          · cases hres : b.resolved r <;> simp [hkey, hres, Except.toBool, Except.toOption]
          · simp [hkey]

/-- A lookup gives the candidates of the request that answers it. -/
theorem Reached.lookup_answering
    (hs : b.Reached rs s)
    (r : Request) :
    (b.lookup r s).1 = b.resolved (b.answering rs r) := by
  rw [lookup_run, answering]
  cases hon : b.config.cacheCandidates with
  | false =>
      rfl
  | true =>
      rw [hs.get?_cache hon, if_pos rfl]
      cases hfirst : b.firstFound? rs r.key with
      | some q =>
          obtain ⟨-, cands, hres⟩ := firstFound?_eq_some hfirst
          rw [Option.bind_some, Option.getD_some, hres]
          rfl
      | none =>
          rw [Option.bind_none, Option.getD_none]
          cases b.resolved r <;> rfl

theorem answering_key
    (b : Bridge)
    (rs : List Request)
    (r : Request) :
    (b.answering rs r).key = r.key := by
  rw [answering]
  split
  · cases hfirst : b.firstFound? rs r.key with
    | some q =>
        exact (firstFound?_eq_some hfirst).1
    | none =>
        rfl
  · rfl

/-- Without remembering, and where no request of the key found candidates before, a request answers
itself. -/
theorem answering_self
    (hfirst : b.config.cacheCandidates = true → b.firstFound? rs r.key = none) :
    b.answering rs r = r := by
  rw [answering]
  split
  · rename_i hon
    rw [hfirst hon, Option.getD_none]
  · rfl

end Remembering

section Calls

/-- Bodies that run belong to methods of the request that answers the call. -/
theorem visible_of_bodyRun
    (hs : b.Reached rs s)
    {call : HostCall}
    {m : MemberCall}
    (hm : b.memberCall? s.world call = some m)
    {run : BodyRun}
    (hrun : run ∈ b.bodyRuns call s) :
    run.method ∈ b.visible (b.answering rs m.request) := by
  obtain ⟨m', hm', hmember⟩ := mem_bodyRuns.1 hrun
  obtain rfl : m = m' := Option.some.inj (hm.symm.trans hm')
  obtain ⟨a, ha, hbody⟩ := mem_memberRuns.1 hmember
  obtain ⟨hmethod, -, -⟩ := Candidate.bodyRun?_eq_some.1 hbody
  obtain ⟨cands, s', hlookup, hattempt⟩ := mem_memberAttempts.1 ha
  have hanswer := hs.lookup_answering m.request
  rw [hlookup] at hanswer
  cases hres : b.resolved (b.answering rs m.request) with
  | error e =>
      rw [hres] at hanswer
      cases hanswer
  | ok found =>
      rw [hres] at hanswer
      cases hanswer
      obtain ⟨method, hvisible, -, hserves⟩ :=
        serves_of_resolve hres (Candidate.candidate_mem_of_attempt hattempt)
      rw [hmethod, hserves.method]
      exact hvisible

/-- The methods that a request can mean are nearest, or they are constructors of the type. -/
theorem nearest_of_visible
    {method : Method}
    (h : method ∈ b.visible r) :
    if r.member = constructorName then
      method ∈ b.registry.constructorsOf r.type
    else
      b.registry.Nearest r.type r.member method := by
  rw [visible, visibleMethods] at h
  split at h
  case isTrue hinit =>
    rw [if_pos hinit]
    exact h
  case isFalse hmember =>
    rw [if_neg hmember]
    exact (Registry.mem_methodsNamed_iff _ _ _).1 (List.mem_filter.1 h).1

end Calls

section Overriding

/-- The visible methods of a name are its declarations along the chain of the type without those
whose signature is declared earlier: no two share a signature, of each signature that is declared
the first declaration is visible and no other, and the methods of the type itself come first.  A
call on a receiver runs the bodies of such methods only, or of constructors of its type, if the
type whose candidates serve it has the ancestors of the receiver. -/
theorem nearest_methods_run
    (b : Bridge) :
    (∀ t method,
      let declared := b.registry.declarations t method
      let own := b.registry.declaredBy method t.key
      let inherited := t.ancestors.flatMap (b.registry.declaredBy method)
      let visible := b.registry.methodsNamed t method
      visible = Method.nearest [] declared ∧
        visible.Pairwise (fun m n => m.sameSignature n = false) ∧
        (∀ m ∈ declared, ∃ n, (declared.find? fun n => n.sameSignature m) = some n ∧
          visible.filter (fun n => n.sameSignature m) = [n]) ∧
        declared = own ++ inherited ∧
        visible = Method.nearest [] own ++
          (Method.nearest [] inherited).filter fun m => !m.declaredIn own) ∧
    ∀ rs s, b.Reached rs s → ∀ handle o, s.world.heap.resolve? handle = some o →
      ∀ method args mode,
        let r : Request := ⟨o.type, method, args.map Value.shape, false⟩
        (b.answering rs r).Akin r →
        ∀ run ∈ b.bodyRuns (.invoke (.handle handle) method args mode) s,
          if method = constructorName then
            run.method ∈ b.registry.constructorsOf o.type
          else
            b.registry.Nearest o.type method run.method := by
  refine ⟨?_, ?_⟩
  · intro t method declared own inherited visible
    have hdeclared : declared = own ++ inherited := by
      show t.keyChain.flatMap _ = _
      rw [Ty.keyChain_eq, List.flatMap_cons]
    have hvisible : visible = Method.nearest [] declared := b.registry.methodsNamed_eq t method
    refine ⟨hvisible, b.registry.methodsNamed_pairwise t method,
      fun m hm => b.registry.filter_methodsNamed t method hm, hdeclared, ?_⟩
    rw [hvisible, hdeclared, Method.nearest_append, ← Method.nearest_after, List.append_nil]
    rfl
  · intro rs s hs handle o ho method args mode r hakin run hrun
    let m : MemberCall :=
      { type := o.type, member := method, receiver := some o, args := args, mode := mode }
    have hm : b.memberCall? s.world (.invoke (.handle handle) method args mode) = some m := by
      rw [memberCall?, ho]
      rfl
    have hvisible : run.method ∈ b.visible (b.answering rs r) := visible_of_bodyRun hs hm hrun
    rw [visible_congr (b.answering_key rs r) hakin] at hvisible
    exact nearest_of_visible hvisible

end Overriding

section Hulls

/-! Two classes, one below the other, that both declare a method, and a class of one name below each
of them. -/

def hullClass : ManagedClass :=
  .root "Hull"

def deckClass : ManagedClass :=
  .extending "Deck" hullClass

def telling
    (text : String) : Method :=
  .instanceMethod "name" [] .text fun _ _ => Action.create .text (.text text)

/-- Decks override the method of hulls. -/
def shipyard : Bridge :=
  (((Bridge.empty {}).withStandardRules).withClass
    ((ClassDescriptor.ofType (.object hullClass)).withMethod (telling "hull"))).withClass
    ((ClassDescriptor.ofType (.object deckClass)).withMethod (telling "deck"))

def nameOf
    (c : ManagedClass) : Request :=
  { type := .object c, member := "name", shapes := [], staticsOnly := false }

def tellingOf
    (text : String) : Candidate :=
  { method := telling text, targets := [], rules := [], returnRule := some Scalar.string,
    specificity := 0, priority := 0, order := 0 }

/-- Calls the method on what is behind a handle. -/
def askName
    (h : Handle) : HostCall :=
  .invoke (.handle h) "name" [] .simplest

/-- The session with an instance of each class, behind the handles one and two. -/
def moored
    (first second : ManagedClass) : Session :=
  let heap := (shipyard.newSession 1 .empty).world.heap
  let one := heap.intern { type := .object first, id := 0 }
  let two := one.2.intern { type := .object second, id := 1 }
  { world := { store := { payloads := #[.record [], .record []] }, heap := two.2 }
    cache := .empty }

theorem resolved_hull :
    shipyard.resolved (nameOf (port hullClass)) = .ok [tellingOf "hull"] := by
  exact resolve_sorted rfl rfl rfl (List.pairwise_singleton _ _)

theorem resolved_deck :
    shipyard.resolved (nameOf deckClass) = .ok [tellingOf "deck"] := by
  exact resolve_sorted rfl rfl rfl (List.pairwise_singleton _ _)

theorem telling_injective
    {s t : String}
    (h : telling s = telling t) :
    s = t := by
  have hbody : Action.create .text (.text s) = Action.create .text (.text t) :=
    congrFun (congrFun (congrArg Method.body h) none) []
  have hrun := congrFun hbody { store := .empty, heap := (shipyard.newSession 1 .empty).world.heap }
  have hpayload := congrArg (fun p => p.2.store.payloads) hrun
  simpa [Store.alloc, Store.empty] using hpayload

/-- On a deck, the body of its own method runs. -/
theorem nearest_methods_run_deck :
    let s := moored deckClass hullClass
    ∃ run ∈ shipyard.bodyRuns (askName ⟨1⟩) s, run.method = telling "deck" ∧
      shipyard.registry.Nearest (.object deckClass) "name" run.method := by
  intro s
  let deck : Object := { type := .object deckClass, id := 0 }
  let m : MemberCall :=
    { type := deck.type, member := "name", receiver := some deck, args := [], mode := .simplest }
  have hm : shipyard.memberCall? s.world (askName ⟨1⟩) = some m := rfl
  have hlookup := lookup_new (b := shipyard) (s := s) (r := m.request) rfl rfl resolved_deck
  have hrun : (tellingOf "deck").bodyRun? shipyard.catalog m.receiver m.args s.world = some _ :=
    rfl
  have hmem := mem_bodyRuns_first hm hlookup hrun
  have hakin : (shipyard.answering [] (nameOf deckClass)).Akin (nameOf deckClass) := by
    rw [answering_self fun _ => rfl]
    exact Or.inr rfl
  have hnearest := (nearest_methods_run shipyard).2 [] s (.start s.world) ⟨1⟩ deck rfl "name" []
    .simplest hakin _ hmem
  rw [if_neg (by decide)] at hnearest
  exact ⟨_, hmem, rfl, hnearest⟩

/-- A port below the decks overrides the method of hulls.  After a call on a port below the hulls,
the body of that method runs all the same. -/
theorem namesake_runs_overridden :
    let s := (shipyard.perform (askName ⟨1⟩) (moored (port hullClass) (port deckClass))).2
    let t : Ty := .object (port deckClass)
    shipyard.Reached [nameOf (port hullClass)] s ∧
      (∃ o, s.world.heap.resolve? ⟨2⟩ = some o ∧ o.type = t) ∧
      shipyard.registry.declarations t "name" = [telling "deck", telling "hull"] ∧
      (telling "deck").sameSignature (telling "hull") = true ∧
      shipyard.registry.methodsNamed t "name" = [telling "deck"] ∧
      (∃ run ∈ shipyard.bodyRuns (askName ⟨2⟩) s, run.method = telling "hull" ∧
        ¬ shipyard.registry.Nearest t "name" run.method) ∧
      (shipyard.perform (askName ⟨2⟩) s).1 = .value (.ok (.text "hull")) := by
  intro s t
  let call : Object → MemberCall := fun o =>
    { type := o.type, member := "name", receiver := some o, args := [], mode := .simplest }
  let upper := call { type := .object (port hullClass), id := 0 }
  let lower := call { type := t, id := 1 }
  let start := moored (port hullClass) (port deckClass)
  have hupper : shipyard.memberCall? start.world (askName ⟨1⟩) = some upper := rfl
  have hs : s = _ :=
    congrArg Prod.snd (perform_found hupper (lookup_new rfl rfl resolved_hull))
  have hlower : shipyard.memberCall? s.world (askName ⟨2⟩) = some lower := by
    rw [hs]
    rfl
  have hknown : s.cache.get? lower.request.key = some [tellingOf "hull"] := by
    rw [hs]
    rfl
  have hlookup := lookup_known (b := shipyard) rfl hknown
  have hreached := (Reached.start (b := shipyard) start.world).perform (askName ⟨1⟩)
  have hvisible : shipyard.registry.methodsNamed t "name" = [telling "deck"] := rfl
  have hrun : (tellingOf "hull").bodyRun? shipyard.catalog lower.receiver lower.args s.world =
      some _ := rfl
  have hmem := mem_bodyRuns_first hlower hlookup hrun
  refine ⟨hreached, ⟨_, by rw [hs]; rfl, rfl⟩, rfl, rfl, hvisible, ⟨_, hmem, rfl, ?_⟩, ?_⟩
  · intro hnearest
    rw [← Registry.mem_methodsNamed_iff, hvisible, List.mem_singleton] at hnearest
    have htext := telling_injective (s := "hull") (t := "deck") hnearest
    revert htext
    decide
  · rw [perform_found hlower hlookup, hs]
    rfl

end Hulls

end Bridge
end CellBridge
