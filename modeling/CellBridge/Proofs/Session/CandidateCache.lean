import CellBridge.Proofs.Heap.TableKeys
import CellBridge.Proofs.Session.Calls
import Mathlib.Data.Finset.Card

/-!
# Remembered candidates

A bridge that remembers candidates does exactly what it does without, as long as the types that
calls are made on are told apart by their registered names: two of them with one name have the
same ancestors.

`resolved_congr` is why: the candidates of a request depend on the registered name and the
ancestors alone, and those of a constructor on the name alone.  `Remembers` is the invariant of the
table, `candidates_on` its step for one lookup.  `Agrees` ties the two bridges to each other;
`Agrees.perform` is its step for one call and `Agrees.sessionAfter` for a run.  `cache_transparent`
is the comparison of the two bridges.
-/

namespace CellBridge

section Types

/-- The names of the ancestors of a type; only classes have any. -/
def Ty.ancestors : Ty → List String
  | .object c => c.ancestors
  | _ => []

theorem Ty.keyChain_eq
    (t : Ty) :
    t.keyChain = t.key :: t.ancestors := by
  cases t <;> rfl

end Types

/-- The member is looked for in the same places: a constructor on the type alone, other methods on
its ancestors too. -/
def Request.Akin
    (r r' : Request) : Prop :=
  r.member = constructorName ∨ r.type.ancestors = r'.type.ancestors

namespace Bridge

section Defs

/-- The bridge that remembers candidates or does not. -/
def withCaching
    (b : Bridge)
    (on : Bool) : Bridge :=
  { b with config := { b.config with cacheCandidates := on } }

/-- Are the ancestors of the types in requests given by their registered names? -/
def NamesTell
    (rs : List Request) : Prop :=
  ∀ r ∈ rs, ∀ r' ∈ rs, r.type.key = r'.type.key → r.type.ancestors = r'.type.ancestors

/-- The keys of the requests whose candidates are found. -/
def resolvedKeys
    (b : Bridge)
    (rs : List Request) : List CandidateKey :=
  (rs.filter fun r => (b.resolved r).toBool).map Request.key

/-- The table holds the candidates of all requests so far for which there are any, and nothing
else. -/
structure Remembers
    (b : Bridge)
    (rs : List Request)
    (cache : Table CandidateKey (List Candidate)) : Prop where
  distinct : cache.Distinct
  sound : ∀ key cands, cache.get? key = some cands →
    ∃ r ∈ rs, r.key = key ∧ b.resolved r = .ok cands
  complete : ∀ r ∈ rs, ∀ cands, b.resolved r = .ok cands → (cache.get? r.key).isSome = true

end Defs

section Resolution

variable {b : Bridge} {r r' : Request} {cands : List Candidate}

/-- The methods that a request can mean are given by its key and the ancestors of its type. -/
theorem visible_congr
    (hkey : r.key = r'.key)
    (hakin : r.Akin r') :
    b.visible r = b.visible r' := by
  obtain ⟨t, member, shapes, staticsOnly⟩ := r
  obtain ⟨t', member', shapes', staticsOnly'⟩ := r'
  simp only [Request.key, CandidateKey.mk.injEq] at hkey
  obtain ⟨htype, rfl, rfl, rfl⟩ := hkey
  rw [visible, visible, visibleMethods, visibleMethods]
  split
  · rw [Registry.constructorsOf, Registry.constructorsOf, Registry.descriptorFor?,
      Registry.descriptorFor?, htype]
  · rename_i hmember
    have hancestors : t.ancestors = t'.ancestors := hakin.resolve_left hmember
    rw [Registry.methodsNamed, Registry.methodsNamed, Ty.keyChain_eq, Ty.keyChain_eq, htype,
      hancestors]

/-- The candidates of a request are given by the methods that it can mean and by its shapes. -/
theorem resolved_congr_of_visible
    (hvisible : b.visible r = b.visible r')
    (hshapes : r.shapes = r'.shapes)
    (hr : b.resolved r = .ok cands) :
    b.resolved r' = .ok cands := by
  rw [visible, visible] at hvisible
  simp only [resolved, resolve, hvisible, hshapes] at hr ⊢
  -- the two results differ in the name of the type that a failure reports, and nowhere else
  split at hr
  · cases hr
  · split at hr
    · cases hr
    · rename_i hfits
      rw [if_neg hfits]
      split at hr
      · split at hr <;> cases hr
      · exact hr

/-- The candidates of a request are given by its key and the ancestors of its type. -/
theorem resolved_congr
    (hkey : r.key = r'.key)
    (hakin : r.Akin r') :
    b.resolved r = .ok cands ↔ b.resolved r' = .ok cands := by
  have hvisible : b.visible r = b.visible r' := visible_congr hkey hakin
  have hshapes : r.shapes = r'.shapes := congrArg CandidateKey.shapes hkey
  constructor
  · exact resolved_congr_of_visible hvisible hshapes
  · exact resolved_congr_of_visible hvisible.symm hshapes.symm

end Resolution

section Table

variable {b : Bridge} {rs : List Request} {cache : Table CandidateKey (List Candidate)}
  {r : Request}

theorem remembers_nil
    (b : Bridge) :
    b.Remembers [] .empty := by
  refine ⟨Table.distinct_empty, ?_, ?_⟩
  · intro key cands hget
    cases hget
  · intro r hr
    cases hr

/-- Candidates that are remembered are those that would be found. -/
theorem Remembers.resolved_eq
    (hm : b.Remembers rs cache)
    (htell : NamesTell (rs ++ [r]))
    {cands : List Candidate}
    (hget : cache.get? r.key = some cands) :
    b.resolved r = .ok cands := by
  obtain ⟨r', hr', hkey, hres⟩ := hm.sound r.key cands hget
  have htype : r'.type.key = r.type.key := congrArg CandidateKey.type hkey
  have hancestors := htell r' (by simp [hr']) r (by simp) htype
  exact (resolved_congr hkey (Or.inr hancestors)).1 hres

/-- A request whose candidates are remembered leaves the table as it is. -/
theorem Remembers.hit
    (hm : b.Remembers rs cache)
    (hget : (cache.get? r.key).isSome = true) :
    b.Remembers (rs ++ [r]) cache := by
  refine ⟨hm.distinct, ?_, ?_⟩
  · intro key cands hknown
    obtain ⟨r', hr', hres⟩ := hm.sound key cands hknown
    exact ⟨r', List.mem_append_left [r] hr', hres⟩
  · intro r' hr' cands hres
    rcases List.mem_append.1 hr' with hold | hnew
    · exact hm.complete r' hold cands hres
    · rw [List.mem_singleton] at hnew
      rw [hnew]
      exact hget

/-- A request without candidates leaves the table as it is. -/
theorem Remembers.failed
    (hm : b.Remembers rs cache)
    {f : Fault}
    (hres : b.resolved r = .error f) :
    b.Remembers (rs ++ [r]) cache := by
  refine ⟨hm.distinct, ?_, ?_⟩
  · intro key cands hknown
    obtain ⟨r', hr', hres'⟩ := hm.sound key cands hknown
    exact ⟨r', List.mem_append_left [r] hr', hres'⟩
  · intro r' hr' cands hres'
    rcases List.mem_append.1 hr' with hold | hnew
    · exact hm.complete r' hold cands hres'
    · rw [List.mem_singleton] at hnew
      rw [hnew, hres] at hres'
      cases hres'

/-- A request whose candidates are new puts them into the table. -/
theorem Remembers.miss
    (hm : b.Remembers rs cache)
    {cands : List Candidate}
    (hres : b.resolved r = .ok cands) :
    b.Remembers (rs ++ [r]) (cache.insert r.key cands) := by
  refine ⟨hm.distinct.insert r.key cands, ?_, ?_⟩
  · intro key cands' hget
    rw [Table.get?_insert] at hget
    split at hget
    · rename_i hkey
      cases hget
      exact ⟨r, by simp, hkey, hres⟩
    · obtain ⟨r', hr', hres'⟩ := hm.sound key cands' hget
      exact ⟨r', List.mem_append_left [r] hr', hres'⟩
  · intro r' hr' cands' hres'
    rw [Table.get?_insert]
    split
    · rfl
    · rename_i hkey
      rcases List.mem_append.1 hr' with hold | hnew
      · exact hm.complete r' hold cands' hres'
      · rw [List.mem_singleton] at hnew
        exact absurd (congrArg Request.key hnew.symm) hkey

/-- The number of lists that are remembered. -/
theorem Remembers.size_eq
    (hm : b.Remembers rs cache) :
    cache.size = (b.resolvedKeys rs).toFinset.card := by
  have hkeys : cache.keys.toFinset = (b.resolvedKeys rs).toFinset := by
    ext key
    rw [List.mem_toFinset, List.mem_toFinset, Table.mem_keys_iff, Table.contains,
      Option.isSome_iff_exists, resolvedKeys, List.mem_map]
    constructor
    · rintro ⟨cands, hget⟩
      obtain ⟨r, hr, hkey, hres⟩ := hm.sound key cands hget
      exact ⟨r, List.mem_filter.2 ⟨hr, by rw [hres]; rfl⟩, hkey⟩
    · rintro ⟨r, hr, rfl⟩
      rw [List.mem_filter] at hr
      cases hres : b.resolved r with
      | ok cands =>
          exact Option.isSome_iff_exists.1 (hm.complete r hr.1 cands hres)
      | error e =>
          rw [hres] at hr
          cases hr.2
  rw [← hkeys, hm.distinct.size_eq_card]

end Table

section Steps

variable {b : Bridge} {rs : List Request}

/-- A lookup with remembering. -/
theorem candidates_on_run
    (b : Bridge)
    (r : Request)
    (s : Session) :
    (b.withCaching true).candidates r.type r.member r.shapes r.staticsOnly s =
      match s.cache.get? r.key with
      | some known => (.ok known, s)
      | none =>
          match b.resolved r with
          | .ok cands => (.ok cands, { s with cache := s.cache.insert r.key cands })
          | .error f => (.error f, s) := by
  show (match s.cache.get? r.key with
    | some known => (pure known : Step (List Candidate))
    | none => do
        let cands ← Step.ofExcept (b.resolved r)
        modify fun (s : Session) => { s with cache := s.cache.insert r.key cands }
        return cands) s = _
  cases s.cache.get? r.key with
  | some known =>
      rfl
  | none =>
      cases b.resolved r <;> rfl

/-- A lookup with remembering gives what is found afresh. -/
theorem candidates_on
    {s : Session}
    (hm : b.Remembers rs s.cache)
    (r : Request)
    (htell : NamesTell (rs ++ [r])) :
    ∃ cache,
      (b.withCaching true).candidates r.type r.member r.shapes r.staticsOnly s =
          (b.resolved r, { s with cache := cache }) ∧
        b.Remembers (rs ++ [r]) cache := by
  rw [candidates_on_run]
  cases hget : s.cache.get? r.key with
  | some known =>
      refine ⟨s.cache, ?_, hm.hit (by rw [hget]; rfl)⟩
      rw [hm.resolved_eq htell hget]
  | none =>
      cases hres : b.resolved r with
      | ok cands =>
          exact ⟨s.cache.insert r.key cands, rfl, hm.miss hres⟩
      | error e =>
          exact ⟨s.cache, rfl, hm.failed hres⟩

/-- A lookup without remembering. -/
theorem candidates_off
    (b : Bridge)
    (r : Request)
    (s : Session) :
    (b.withCaching false).candidates r.type r.member r.shapes r.staticsOnly s =
      (b.resolved r, s) := by
  exact ofExcept_run (b.resolved r) s

end Steps

section Agreement

/-- Two sessions after the same requests, with and without remembering. -/
structure Agrees
    (b : Bridge)
    (rs : List Request)
    (s s₀ : Session) : Prop where
  world : s.world = s₀.world
  remembers : b.Remembers rs s.cache
  forgets : s₀.cache = .empty

/-- Two results after the same requests, with and without remembering. -/
def SameResult
    {α : Type}
    (b : Bridge)
    (rs : List Request)
    (p p₀ : Except Fault α × Session) : Prop :=
  p.1 = p₀.1 ∧ b.Agrees rs p.2 p₀.2

variable {b : Bridge} {rs : List Request} {s s₀ : Session}

/-- Actions cannot tell the sessions apart. -/
theorem Agrees.toStep
    {α : Type}
    (ha : b.Agrees rs s s₀)
    (act : Action α) :
    b.SameResult rs (act.toStep s) (act.toStep s₀) := by
  rw [toStep_run, toStep_run, ha.world]
  exact ⟨rfl, rfl, ha.remembers, ha.forgets⟩

theorem SameResult.absorb
    {step step₀ : Step Value}
    (hsame : b.SameResult rs (step s) (step₀ s₀)) :
    b.SameResult rs (step.absorb s) (step₀.absorb s₀) := by
  rw [absorb_run, absorb_run]
  cases hrun : step s with
  | mk result s' =>
      cases hrun₀ : step₀ s₀ with
      | mk result₀ s₀' =>
          rw [hrun, hrun₀] at hsame
          obtain ⟨hresult, hagrees⟩ := hsame
          cases hresult
          cases result with
          | ok v =>
              exact ⟨rfl, hagrees⟩
          | error f =>
              cases f <;> exact ⟨rfl, hagrees⟩

/-- A call of a member, with and without remembering. -/
theorem Agrees.callMember
    (ha : b.Agrees rs s s₀)
    (t : Ty)
    (member : String)
    (receiver : Option Object)
    (args : List Value)
    (mode : ResultMode)
    (htell : NamesTell (rs ++ [⟨t, member, args.map Value.shape, receiver.isNone⟩])) :
    b.SameResult (rs ++ [⟨t, member, args.map Value.shape, receiver.isNone⟩])
      ((b.withCaching true).callMember t member receiver args mode s)
      ((b.withCaching false).callMember t member receiver args mode s₀) := by
  obtain ⟨cache, hon, hm⟩ := candidates_on ha.remembers _ htell
  have hoff := candidates_off b ⟨t, member, args.map Value.shape, receiver.isNone⟩ s₀
  rw [callMember_run, callMember_run, hon, hoff]
  have hagrees : b.Agrees (rs ++ [⟨t, member, args.map Value.shape, receiver.isNone⟩])
      { s with cache := cache } s₀ := ⟨ha.world, hm, ha.forgets⟩
  cases b.resolved ⟨t, member, args.map Value.shape, receiver.isNone⟩ with
  | ok cands =>
      exact hagrees.toStep (invokeMember b.catalog t member receiver args mode cands)
  | error e =>
      exact ⟨rfl, hagrees⟩

/-- A call that names a type, with and without remembering. -/
theorem Agrees.callNamed
    (ha : b.Agrees rs s s₀)
    (type member : String)
    (args : List Value)
    (mode : ResultMode)
    (htell : NamesTell (rs ++ (b.namedRequest? type member args).toList)) :
    b.SameResult (rs ++ (b.namedRequest? type member args).toList)
      (match b.registry.lookup? type with
        | some d => (b.withCaching true).callMember d.type member none args mode s
        | none => (.error (.failed (.unknownType type)), s))
      (match b.registry.lookup? type with
        | some d => (b.withCaching false).callMember d.type member none args mode s₀
        | none => (.error (.failed (.unknownType type)), s₀)) := by
  rw [namedRequest?] at htell ⊢
  cases hd : b.registry.lookup? type with
  | none =>
      rw [Option.map_none, Option.toList_none, List.append_nil]
      exact ⟨rfl, ha⟩
  | some d =>
      rw [hd] at htell
      exact ha.callMember d.type member none args mode htell

/-- A call of the host, with and without remembering. -/
theorem Agrees.perform
    (ha : b.Agrees rs s s₀)
    (call : HostCall)
    (htell : NamesTell (rs ++ (b.request? s₀.world call).toList)) :
    ((b.withCaching true).perform call s).1 = ((b.withCaching false).perform call s₀).1 ∧
      b.Agrees (rs ++ (b.request? s₀.world call).toList)
        ((b.withCaching true).perform call s).2 ((b.withCaching false).perform call s₀).2 := by
  have hanswer : ∀ {α : Type} (make : Except Fault α → Answer) {step step₀ : Step α}
      {rs' : List Request}, b.SameResult rs' (step s) (step₀ s₀) →
      (Step.answer make step s).1 = (Step.answer make step₀ s₀).1 ∧
        b.Agrees rs' (Step.answer make step s).2 (Step.answer make step₀ s₀).2 := by
    rintro α make step step₀ rs' ⟨hresult, hagrees⟩
    exact ⟨congrArg make hresult, hagrees⟩
  have hnamed : ∀ name method args mode,
      NamesTell (rs ++ (b.namedRequest? name method args).toList) →
      b.SameResult (rs ++ (b.namedRequest? name method args).toList)
        ((b.withCaching true).tryInvoke (.type name) method args mode s)
        ((b.withCaching false).tryInvoke (.type name) method args mode s₀) := by
    intro name method args mode htell
    rw [tryInvoke_type_run, tryInvoke_type_run]
    exact ha.callNamed name method args mode htell
  have hnone : rs ++ (none : Option Request).toList = rs := List.append_nil rs
  cases call with
  | invoke target method args mode =>
      refine hanswer .value (SameResult.absorb ?_)
      cases target with
      | handle h =>
          rw [tryInvoke_handle_run, tryInvoke_handle_run, ha.world]
          rw [request?] at htell ⊢
          cases ho : s₀.world.heap.resolve? h with
          | none =>
              rw [Option.map_none, hnone]
              exact ⟨rfl, ha⟩
          | some o =>
              rw [ho] at htell
              exact ha.callMember o.type method (some o) args mode htell
      | type name =>
          exact hnamed name method args mode htell
  | construct type args =>
      refine hanswer .value (SameResult.absorb ?_)
      rw [tryConstruct_run, tryConstruct_run]
      exact ha.callNamed type constructorName args .object htell
  | invokeStatic type method args mode =>
      exact hanswer .value (SameResult.absorb (hnamed type method args mode htell))
  | toCell o =>
      rw [request?, hnone]
      exact hanswer .value (ha.toStep (b.toCell o))
  | toManaged v expected =>
      rw [request?, hnone]
      exact hanswer .object (ha.toStep (b.toManaged v expected))
  | collect reachable =>
      rw [request?, hnone]
      exact hanswer .report (ha.toStep (collect reachable))

theorem NamesTell.of_append
    {rs' : List Request}
    (htell : NamesTell (rs ++ rs')) :
    NamesTell rs := by
  intro r hr r' hr'
  exact htell r (List.mem_append_left rs' hr) r' (List.mem_append_left rs' hr')

/-- A run, with and without remembering. -/
theorem Agrees.sessionAfter
    (ha : b.Agrees rs s s₀)
    (calls : List HostCall)
    (htell : NamesTell (rs ++ (b.withCaching false).requests s₀ calls)) :
    b.Agrees (rs ++ (b.withCaching false).requests s₀ calls)
      ((b.withCaching true).sessionAfter s calls)
      ((b.withCaching false).sessionAfter s₀ calls) := by
  induction calls generalizing rs s s₀ with
  | nil =>
      rw [requests, List.append_nil]
      exact ha
  | cons call calls ih =>
      rw [requests, ← List.append_assoc] at htell ⊢
      exact ih (ha.perform call htell.of_append).2 htell

end Agreement

section Transparency

/-- Remembering candidates changes no answer and no world, and remembers one list for each key
that was resolved.  This is so for every bridge, with whatever room its catalog has for nested
conversions. -/
theorem cache_transparent
    (b : Bridge)
    (ambient : UInt64)
    (store : Store)
    (calls : List HostCall)
    (tell : NamesTell
      ((b.withCaching false).requests ((b.withCaching false).newSession ambient store) calls)) :
    let on := b.withCaching true
    let off := b.withCaching false
    let after := on.sessionAfter (on.newSession ambient store)
    let after₀ := off.sessionAfter (off.newSession ambient store)
    (∀ n call, calls[n]? = some call →
        (on.perform call (after (calls.take n))).1 =
          (off.perform call (after₀ (calls.take n))).1) ∧
      ∀ n,
        (after (calls.take n)).world = (after₀ (calls.take n)).world ∧
          (after (calls.take n)).cache.size =
            (b.resolvedKeys
              (off.requests (off.newSession ambient store) (calls.take n))).toFinset.card ∧
          (after₀ (calls.take n)).cache.size = 0 := by
  intro on off after after₀
  have hstart : b.Agrees [] (on.newSession ambient store) (off.newSession ambient store) :=
    ⟨rfl, remembers_nil b, rfl⟩
  have htake : ∀ n, NamesTell (off.requests (off.newSession ambient store) (calls.take n)) := by
    intro n
    have hsplit := off.requests_append (off.newSession ambient store) (calls.take n) (calls.drop n)
    rw [List.take_append_drop] at hsplit
    rw [hsplit] at tell
    exact tell.of_append
  have hagrees : ∀ n, b.Agrees (off.requests (off.newSession ambient store) (calls.take n))
      (after (calls.take n)) (after₀ (calls.take n)) := by
    intro n
    exact hstart.sessionAfter (calls.take n) (htake n)
  refine ⟨?_, ?_⟩
  · intro n call hcall
    have hnext := htake (n + 1)
    rw [List.take_add_one, hcall, requests_append] at hnext
    simp only [Option.toList_some, requests, List.append_nil] at hnext
    exact ((hagrees n).perform call hnext).1
  · intro n
    refine ⟨(hagrees n).world, (hagrees n).remembers.size_eq, ?_⟩
    rw [(hagrees n).forgets]
    rfl

/-- Two lists that are made one after the other share their candidates. -/
theorem cache_transparent_lists :
    let b := (Bridge.empty {}).withStandardRules.withBuiltins
    let calls := [HostCall.construct "List" [], .construct "ArrayList" []]
    let on := b.withCaching true
    (on.sessionAfter (on.newSession 0 .empty) calls).cache.size = 1 := by
  intro b calls on
  let r : Request := ⟨.list .any, constructorName, [], true⟩
  have hrequests :
      (b.withCaching false).requests ((b.withCaching false).newSession 0 .empty) calls =
        List.replicate 2 r := by
    rfl
  have htell : NamesTell (List.replicate 2 r) := by
    intro r₁ h₁ r₂ h₂ _
    rw [List.eq_of_mem_replicate h₁, List.eq_of_mem_replicate h₂]
  have hkeys : b.resolvedKeys (List.replicate 2 r) = List.replicate 2 r.key := by
    rfl
  have hall := cache_transparent b 0 .empty calls (by rw [hrequests]; exact htell)
  have hsize := (hall.2 2).2.1
  rw [show calls.take 2 = calls from rfl, hrequests, hkeys] at hsize
  exact hsize.trans (by simp)

end Transparency

end Bridge
end CellBridge
