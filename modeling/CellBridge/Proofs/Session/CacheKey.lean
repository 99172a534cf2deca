import CellBridge.Proofs.Call.TameCalls
import CellBridge.Proofs.Session.CandidateCache
import CellBridge.Proofs.Session.MemberCalls

/-!
# What the key of remembered candidates tells

Candidates are remembered by the registered name of a type, and the methods that a call can mean
depend on its ancestors as well.  So what a lookup gives are the candidates of some request of the
same key, not always those of the request itself: `Reached.lookup_answers`.  They are the same for
constructors and for types with the same ancestors, which is `key_determines_candidates`.

`Reached` are the sessions that a bridge can come to.  Each step of it is a lookup or a change of
the world; calls of the host are made of these, `Reached.perform`.
-/

namespace CellBridge

namespace Bridge

section Defs

/-- A session that the bridge can come to, and the requests made on the way. -/
inductive Reached
    (b : Bridge) : List Request → Session → Prop
  | start
      (w : World) :
      Reached b [] { world := w, cache := .empty }
  | lookup
      {rs : List Request}
      {s : Session}
      (hs : Reached b rs s)
      (r : Request) :
      Reached b (rs ++ [r]) (b.lookup r s).2
  | change
      {rs : List Request}
      {s : Session}
      (hs : Reached b rs s)
      (w : World) :
      Reached b rs { s with world := w }

/-- After the requests `rs`, a lookup for `r` may give the candidates of `q`: it is `r` itself, or
its candidates were found and are remembered by the same key. -/
def CanAnswer
    (b : Bridge)
    (rs : List Request)
    (r q : Request) : Prop :=
  q = r ∨ b.config.cacheCandidates = true ∧ q ∈ rs ∧ q.key = r.key ∧
    ∃ cands, b.resolved q = .ok cands

end Defs

variable {b : Bridge} {rs : List Request} {s : Session} {r q : Request}

section Lookups

theorem withCaching_eq
    {on : Bool}
    (hon : b.config.cacheCandidates = on) :
    b.withCaching on = b := by
  subst hon
  rfl

/-- What a lookup gives, and what it puts into the table. -/
theorem lookup_run
    (b : Bridge)
    (r : Request)
    (s : Session) :
    b.lookup r s =
      match b.config.cacheCandidates, s.cache.get? r.key, b.resolved r with
      | true, some known, _ => (.ok known, s)
      | true, none, .ok cands => (.ok cands, { s with cache := s.cache.insert r.key cands })
      | _, _, result => (result, s) := by
  cases hon : b.config.cacheCandidates with
  | false =>
      have hrun := candidates_off b r s
      rw [withCaching_eq hon] at hrun
      exact hrun
  | true =>
      have hrun := candidates_on_run b r s
      rw [withCaching_eq hon] at hrun
      refine Eq.trans hrun ?_
      cases s.cache.get? r.key with
      | some known =>
          rfl
      | none =>
          cases b.resolved r <;> rfl

/-- A lookup of what is not remembered. -/
theorem lookup_new
    (hon : b.config.cacheCandidates = true)
    (hget : s.cache.get? r.key = none)
    {cands : List Candidate}
    (hres : b.resolved r = .ok cands) :
    b.lookup r s = (.ok cands, { s with cache := s.cache.insert r.key cands }) := by
  rw [lookup_run, hon, hget, hres]

/-- A lookup of what is remembered. -/
theorem lookup_known
    (hon : b.config.cacheCandidates = true)
    {cands : List Candidate}
    (hget : s.cache.get? r.key = some cands) :
    b.lookup r s = (.ok cands, s) := by
  rw [lookup_run, hon, hget]

/-- A lookup right after another one of its key gives the same candidates. -/
theorem lookup_second
    (hon : b.config.cacheCandidates = true)
    (hget : s.cache.get? r.key = none)
    {cands : List Candidate}
    (hres : b.resolved r = .ok cands)
    (hkey : q.key = r.key) :
    b.lookup q (b.lookup r s).2 = (.ok cands, (b.lookup r s).2) := by
  rw [lookup_new hon hget hres]
  refine lookup_known hon ?_
  rw [hkey, Table.get?_insert, if_pos rfl]

/-- A lookup keeps track of what is remembered. -/
theorem Remembers.lookup
    (hm : b.Remembers rs s.cache)
    (hon : b.config.cacheCandidates = true)
    (r : Request) :
    b.Remembers (rs ++ [r]) (b.lookup r s).2.cache := by
  rw [lookup_run, hon]
  cases hget : s.cache.get? r.key with
  | some known =>
      exact hm.hit (by rw [hget]; rfl)
  | none =>
      cases hres : b.resolved r with
      | ok cands =>
          exact hm.miss hres
      | error e =>
          exact hm.failed hres

/-- What is remembered are the candidates of requests that were made. -/
theorem Reached.remembers
    (hs : b.Reached rs s)
    (hon : b.config.cacheCandidates = true) :
    b.Remembers rs s.cache := by
  induction hs with
  | start w =>
      exact remembers_nil b
  | lookup hs r ih =>
      exact ih.lookup hon r
  | change hs w ih =>
      exact ih

/-- A lookup gives what some request of the same key gives afresh, and leaves the world alone. -/
theorem Reached.lookup_answers
    (hs : b.Reached rs s)
    (r : Request) :
    ∃ q cache, b.CanAnswer rs r q ∧
      b.lookup r s = (b.resolved q, { s with cache := cache }) := by
  rw [lookup_run]
  cases hon : b.config.cacheCandidates with
  | false =>
      exact ⟨r, s.cache, Or.inl rfl, rfl⟩
  | true =>
      cases hget : s.cache.get? r.key with
      | some known =>
          obtain ⟨q, hq, hkey, hres⟩ := (hs.remembers hon).sound r.key known hget
          refine ⟨q, s.cache, Or.inr ⟨hon, hq, hkey, known, hres⟩, ?_⟩
          rw [hres]
      | none =>
          cases hres : b.resolved r with
          | ok cands =>
              exact ⟨r, s.cache.insert r.key cands, Or.inl rfl, by rw [hres]⟩
          | error e =>
              exact ⟨r, s.cache, Or.inl rfl, by rw [hres]⟩

theorem CanAnswer.key_eq
    (hq : b.CanAnswer rs r q) :
    q.key = r.key := by
  rcases hq with rfl | ⟨-, -, hkey, -⟩
  · rfl
  · exact hkey

end Lookups

section Calls

/-- A call of the host is a lookup at most, and a change of the world. -/
theorem Reached.perform
    (hs : b.Reached rs s)
    (call : HostCall) :
    b.Reached (rs ++ (b.request? s.world call).toList) (b.perform call s).2 := by
  have hnone : b.Reached (rs ++ (none : Option Request).toList) s := by
    rw [Option.toList_none, List.append_nil]
    exact hs
  rw [request?_eq]
  cases hcall : b.memberCall? s.world call with
  | some m =>
      rw [perform_memberCall hcall]
      show b.Reached (rs ++ [m.request]) (Step.absorb _ s).2
      have hlookup := hs.lookup m.request
      rw [absorb_session, runMember_run]
      cases hrun : b.lookup m.request s with
      | mk result s' =>
          rw [hrun] at hlookup
          cases result with
          | ok cands =>
              exact hlookup.change _
          | error f =>
              exact hlookup
  | none =>
      rw [Option.map_none]
      cases hargs : call.args? with
      | some args =>
          obtain ⟨e, hperform⟩ := perform_unknown hargs hcall
          rw [hperform]
          exact hnone
      | none =>
          cases call with
          | toCell o =>
              exact hnone.change _
          | toManaged v expected =>
              exact hnone.change _
          | collect reachable =>
              exact hnone.change _
          | _ =>
              cases hargs

/-- All sessions of the host are reached. -/
theorem Reached.sessionAfter
    (hs : b.Reached rs s)
    (calls : List HostCall) :
    b.Reached (rs ++ b.requests s calls) (b.sessionAfter s calls) := by
  induction calls generalizing rs s with
  | nil =>
      rw [requests, List.append_nil]
      exact hs
  | cons call calls ih =>
      rw [requests, ← List.append_assoc, sessionAfter_cons]
      exact ih (hs.perform call)

/-- The candidates that a lookup gives serve the methods that one request of the same key can
mean. -/
theorem Reached.serves_of_lookup
    (hs : b.Reached rs s)
    {cands : List Candidate}
    {s' : Session}
    (hlookup : b.lookup r s = (.ok cands, s')) :
    s'.world = s.world ∧ ∃ q, b.CanAnswer rs r q ∧ ∀ cand ∈ cands, ∃ method ∈ b.visible q,
      method.acceptsArity r.shapes.length = true ∧ cand.Serves b.catalog r.shapes method := by
  obtain ⟨q, cache, hq, hrun⟩ := hs.lookup_answers r
  rw [hrun] at hlookup
  have hshapes : q.shapes = r.shapes := congrArg CandidateKey.shapes hq.key_eq
  cases hres : b.resolved q with
  | error e =>
      rw [hres] at hlookup
      cases hlookup
  | ok found =>
      rw [hres] at hlookup
      cases hlookup
      refine ⟨rfl, q, hq, ?_⟩
      intro cand hcand
      rw [← hshapes]
      exact serves_of_resolve hres hcand

/-- A lookup in a session that is reached gives candidates with rules of the catalog. -/
theorem Reached.draws_of_lookup
    (hs : b.Reached rs s)
    {cands : List Candidate}
    {s' : Session}
    (h : b.lookup r s = (.ok cands, s')) :
    ∀ cand ∈ cands, cand.Draws b.catalog := by
  intro cand hcand
  obtain ⟨q, cache, -, hrun⟩ := hs.lookup_answers r
  rw [hrun] at h
  cases hres : b.resolved q with
  | error e =>
      rw [hres] at h
      cases h
  | ok found =>
      rw [hres] at h
      cases h
      exact draws_of_resolve hres hcand

/-- A candidate that is tried serves a method that a request of the same key can mean. -/
theorem Reached.serves_of_attempt
    (hs : b.Reached rs s)
    {m : MemberCall}
    {a : Attempt}
    (ha : a ∈ b.memberAttempts m s) :
    ∃ q, b.CanAnswer rs m.request q ∧ ∃ method ∈ b.visible q,
      method.acceptsArity m.args.length = true ∧
        a.candidate.Serves b.catalog (m.args.map Value.shape) method := by
  obtain ⟨cands, s', hlookup, hattempt⟩ := mem_memberAttempts.1 ha
  obtain ⟨-, q, hq, hserves⟩ := hs.serves_of_lookup hlookup
  obtain ⟨method, hvisible, harity, hserves⟩ :=
    hserves a.candidate (Candidate.candidate_mem_of_attempt hattempt)
  rw [MemberCall.request, List.length_map] at harity
  exact ⟨q, hq, method, hvisible, harity, hserves⟩

end Calls

section Soundness

/-- Two requests of one key have the same candidates, or none both, if the member is looked for in
the same places.  If all requests of the key so far are of this kind, then a lookup gives what is
found afresh, whichever of them came first. -/
theorem key_determines_candidates
    (b : Bridge) :
    (∀ r q : Request, r.key = q.key → r.Akin q →
      ∀ cands, b.resolved r = .ok cands ↔ b.resolved q = .ok cands) ∧
    ∀ rs s, b.Reached rs s → ∀ r : Request, (∀ q ∈ rs, q.key = r.key → q.Akin r) →
      (b.candidates r.type r.member r.shapes r.staticsOnly s).1 = b.resolved r := by
  refine ⟨fun r q hkey hakin cands => resolved_congr hkey hakin, ?_⟩
  intro rs s hs r hakin
  obtain ⟨q, cache, hq, hrun⟩ := hs.lookup_answers r
  refine (congrArg Prod.fst hrun).trans ?_
  rcases hq with rfl | ⟨-, hmem, hkey, cands, hres⟩
  · rfl
  · rw [hres, (resolved_congr hkey (hakin q hmem hkey)).1 hres]

/-- Lists share their candidates, whatever they hold. -/
theorem key_determines_candidates_lists :
    let b := (Bridge.empty {}).withStandardRules.withBuiltins
    let r : Request := ⟨.list .int, "size", [], false⟩
    let q : Request := ⟨.list .text, "size", [], false⟩
    let s := (b.lookup r (b.newSession 0 .empty)).2
    r.key = q.key ∧ r.Akin q ∧ ∃ cands, b.resolved r = .ok cands ∧ b.resolved q = .ok cands ∧
      (b.candidates q.type q.member q.shapes q.staticsOnly s).1 = .ok cands := by
  intro b r q s
  have hakin : r.Akin q := Or.inr rfl
  have hr : b.resolved r = .ok _ := resolve_sorted rfl rfl rfl (by decide)
  have hq := ((key_determines_candidates b).1 r q rfl hakin _).1 hr
  have hs : b.Reached [r] s := (Reached.start _).lookup r
  have hlookup := (key_determines_candidates b).2 [r] s hs q fun q' hq' _ => by
    rw [List.mem_singleton.1 hq']
    exact hakin
  refine ⟨rfl, hakin, _, hr, hq, ?_⟩
  rw [hlookup, hq]

end Soundness

section Ports

/-! Two classes of one name that stand below different parents. -/

def leftSide : ManagedClass :=
  .root "Left"

def rightSide : ManagedClass :=
  .root "Right"

def port
    (side : ManagedClass) : ManagedClass :=
  .extending "Port" side

/-- A method that takes one argument and gives a text. -/
def taking
    (t : Ty)
    (text : String) : Method :=
  .instanceMethod "take" [t] .text fun _ _ => Action.create .text (.text text)

/-- The ports of the one side take any cell value, those of the other side any object. -/
def harbour : Bridge :=
  (((Bridge.empty {}).withStandardRules).withClass
    ((ClassDescriptor.ofType (.object leftSide)).withMethod (taking .tagged "left"))).withClass
    ((ClassDescriptor.ofType (.object rightSide)).withMethod (taking .any "right"))

/-- A call of the method with a handle. -/
def takeAt
    (side : ManagedClass) : Request :=
  { type := .object (port side), member := "take", shapes := [.handle], staticsOnly := false }

/-- The candidate for a port of the left side. -/
def takingLeft : Candidate :=
  { method := taking .tagged "left", targets := [.tagged], rules := [Reference.tagged],
    returnRule := some Scalar.string, specificity := 1, priority := Priority.standard, order := 0 }

/-- The candidate for a port of the right side. -/
def takingRight : Candidate :=
  { method := taking .any "right", targets := [.any], rules := [Reference.boxing],
    returnRule := some Scalar.string, specificity := 0, priority := Priority.boxing, order := 0 }

theorem resolved_harbour_left :
    harbour.resolved (takeAt leftSide) = .ok [takingLeft] := by
  exact resolve_sorted rfl rfl rfl (List.pairwise_singleton _ _)

theorem resolved_harbour_right :
    harbour.resolved (takeAt rightSide) = .ok [takingRight] := by
  exact resolve_sorted rfl rfl rfl (List.pairwise_singleton _ _)

/-- Both ports have one key and not the same candidates, and the port that was asked for first
decides what a lookup for the other one gives. -/
theorem ports_share_key :
    let s := harbour.newSession 1 .empty
    (takeAt leftSide).key = (takeAt rightSide).key ∧
      harbour.resolved (takeAt leftSide) = .ok [takingLeft] ∧
      harbour.resolved (takeAt rightSide) = .ok [takingRight] ∧
      takingLeft.method ≠ takingRight.method ∧
      (harbour.lookup (takeAt rightSide) s).1 = .ok [takingRight] ∧
      (harbour.lookup (takeAt rightSide) (harbour.lookup (takeAt leftSide) s).2).1 =
        .ok [takingLeft] := by
  intro s
  refine ⟨rfl, resolved_harbour_left, resolved_harbour_right, ?_, ?_, ?_⟩
  · intro hsame
    cases congrArg Method.fixed hsame
  · exact congrArg Prod.fst (lookup_new rfl rfl resolved_harbour_right)
  · have hget : s.cache.get? (takeAt leftSide).key = none := rfl
    have hkey : (takeAt rightSide).key = (takeAt leftSide).key := rfl
    exact congrArg Prod.fst (lookup_second rfl hget resolved_harbour_left hkey)

end Ports

end Bridge
end CellBridge
