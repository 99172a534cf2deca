import CellBridge.Proofs.Call.CollectionCalls
import CellBridge.Proofs.Heap.Run
import CellBridge.Proofs.Session.CacheKey
import CellBridge.Proofs.Session.Termination

/-!
# Sessions with collections

Lists and sets behave as the collections on a shelf, in whatever order they are created and asked,
and whether candidates are remembered or not.

`Shelf.Fits` is the invariant of a session: the handle that is issued next is that of the shelf,
each collection is carried by the object behind its handle, and different handles lead to different
objects.  `Fits.create`, `Fits.ask` and `Fits.collect` are its steps, and `fits_shelfSession` the
run.  `collections_answer` compares all answers, those about counts and positions within the
integers of thirty-two bits that they are given as.
-/

namespace CellBridge

section Defs

def ShelfCall.toHost : ShelfCall → HostCall
  | .create kind => .construct kind.className []
  | .ask h q => .invoke (.handle h) q.member q.args .simplest
  | .collect reachable => .collect reachable

/-- Handles lead to objects of the store, and different handles to different objects. -/
structure World.Tidy
    (w : World) : Prop where
  named : ∀ id h, w.heap.handles.get? id = some h → id < w.store.size
  bound : ∀ h o, w.heap.resolve? h = some o → o.id < w.store.size
  apart : ∀ h h' o o', w.heap.resolve? h = some o → w.heap.resolve? h' = some o' →
    o.id = o'.id → h = h'

/-- The session has the collections of the shelf, and members were looked up on types without
ancestors only. -/
structure Shelf.Fits
    (shelf : Shelf)
    (b : Bridge)
    (s : Session) : Prop where
  next : s.world.heap.nextHandle = shelf.next
  tidy : s.world.Tidy
  carries : ∀ h c, shelf.at? h = some c →
    ∃ o, s.world.heap.resolve? h = some o ∧ s.world.store.Carries o c
  reached : ∃ rs, b.Reached rs s ∧ ∀ r ∈ rs, r.type.ancestors = []

/-- The result of a call as the host gets to see it. -/
def seenByHost : Except Fault Value → Except Fault Value
  | .error (.failed e) => .ok e.toValue
  | result => result

end Defs

section Worlds

variable {w w' : World}

theorem tidy_newHeap
    (config : HeapConfig)
    (ambient : UInt64)
    (store : Store) :
    ({ store := store, heap := config.newHeap ambient } : World).Tidy := by
  refine ⟨?_, ?_, ?_⟩
  · intro id h hh
    cases hh
  · intro h o ho
    cases ho
  · intro h h' o o' ho
    cases ho

theorem World.Tidy.grow
    (hw : w.Tidy)
    (hheap : w'.heap = w.heap)
    (hsize : w.store.size ≤ w'.store.size) :
    w'.Tidy := by
  refine ⟨?_, ?_, ?_⟩
  · intro id h hh
    rw [hheap] at hh
    exact Nat.lt_of_lt_of_le (hw.named id h hh) hsize
  · intro h o ho
    rw [hheap] at ho
    exact Nat.lt_of_lt_of_le (hw.bound h o ho) hsize
  · intro h h' o o' ho ho'
    rw [hheap] at ho ho'
    exact hw.apart h h' o o' ho ho'

end Worlds

namespace Heap

variable {h : Heap} {o : Object}

/-- Interning a new object gives it the next handle, and changes no other one. -/
theorem resolve?_intern_of_none
    (hnew : h.handleOf? o = none)
    (handle : Handle) :
    (h.intern o).2.resolve? handle =
      if h.nextHandle = handle then some o else h.resolve? handle := by
  rw [intern_of_none hnew]
  exact Table.get?_insert _ _ _ _

theorem handles_intern_of_none
    (hnew : h.handleOf? o = none)
    (id : Nat) :
    (h.intern o).2.handles.get? id =
      if o.id = id then some h.nextHandle else h.handles.get? id := by
  rw [intern_of_none hnew]
  exact Table.get?_insert _ _ _ _

/-- A cycle of the heap brings no way back from an object to its handle. -/
theorem handles_of_cycle
    {reachable : List Handle}
    {id : Nat}
    {handle : Handle}
    (hid : (h.cycle reachable).2.handles.get? id = some handle) :
    h.handles.get? id = some handle := by
  have hcycle : (h.cycle reachable).2.handles.get? id =
      (h.sweep (h.doomed reachable)).handles.get? id := rfl
  rw [hcycle, sweep_handles] at hid
  split at hid
  · cases hid
  · exact hid

/-- The end of a cycle evicts no handle that the host shows. -/
theorem resolve?_cycle_of_shown
    {reachable : List Handle}
    {handle : Handle}
    (hshown : handle ∈ reachable) :
    (h.cycle reachable).2.resolve? handle = h.resolve? handle := by
  have hspared : handle ∉ (h.doomed reachable).map fun e => e.1 := by
    intro hdoomed
    obtain ⟨e, he, rfl⟩ := List.mem_map.1 hdoomed
    have hlost := (List.mem_filter.1 (List.mem_filter.1 he).1).2
    exact of_decide_eq_true hlost hshown
  show (h.sweep (h.doomed reachable)).objects.get? handle = _
  rw [sweep_objects, Table.get?_foldl_erase, if_neg hspared, resolve?]

theorem nextHandle_cycle
    (h : Heap)
    (reachable : List Handle) :
    (h.cycle reachable).2.nextHandle = h.nextHandle := by
  show (⟨(h.endCycle reachable).2.base + (h.endCycle reachable).2.issued⟩ : Handle) = _
  rw [endCycle_base, endCycle_issued, nextHandle]

end Heap

namespace World

variable {w : World}

/-- A new object, and its handle. -/
theorem Tidy.create
    (hw : w.Tidy)
    (t : Ty)
    (p : Payload) :
    w.heap.handleOf? (w.store.alloc t p).1 = none ∧
      ({ store := (w.store.alloc t p).2, heap := (w.heap.intern (w.store.alloc t p).1).2 } :
        World).Tidy := by
  have hnew : w.heap.handleOf? (w.store.alloc t p).1 = none := by
    cases hhandle : w.heap.handleOf? (w.store.alloc t p).1 with
    | none =>
        rfl
    | some handle =>
        exact absurd (hw.named _ handle hhandle) (Nat.lt_irrefl _)
  have hlt := Store.lt_size_alloc (s := w.store) t p
  have hsize := (Store.extends_alloc (s := w.store) t p).size_le
  refine ⟨hnew, ?_, ?_, ?_⟩
  · intro id h hh
    rw [Heap.handles_intern_of_none hnew] at hh
    split at hh
    · rename_i hid
      exact hid ▸ hlt
    · exact Nat.lt_of_lt_of_le (hw.named id h hh) hsize
  · intro h o ho
    rw [Heap.resolve?_intern_of_none hnew] at ho
    split at ho
    · cases ho
      exact hlt
    · exact Nat.lt_of_lt_of_le (hw.bound h o ho) hsize
  · intro h h' o o' ho ho' hid
    rw [Heap.resolve?_intern_of_none hnew] at ho ho'
    split at ho
    · cases ho
      split at ho'
      · rename_i hh hh'
        exact hh.symm.trans hh'
      · exact absurd hid.symm (Nat.ne_of_lt (hw.bound h' o' ho'))
    · split at ho'
      · cases ho'
        exact absurd hid (Nat.ne_of_lt (hw.bound h o ho))
      · exact hw.apart h h' o o' ho ho' hid

theorem Tidy.collect
    (hw : w.Tidy)
    (reachable : List Handle) :
    ({ w with heap := (w.heap.cycle reachable).2 } : World).Tidy := by
  refine ⟨?_, ?_, ?_⟩
  · intro id h hh
    exact hw.named id h (Heap.handles_of_cycle hh)
  · intro h o ho
    exact hw.bound h o (Heap.resolve?_of_cycle ho)
  · intro h h' o o' ho ho'
    exact hw.apart h h' o o' (Heap.resolve?_of_cycle ho) (Heap.resolve?_of_cycle ho')

end World

section Constructors

/-- An attempt that takes no arguments and creates an object. -/
theorem attempt_object_of_create
    {cand : Candidate}
    (hrest : cand.method.rest = none)
    {t : Ty}
    {p : Payload}
    (hbody : cand.method.body none [] = Action.create t p)
    (hcarried : Reference.carriedHandle? p = none)
    (htype : t ≠ .void)
    (w : World) :
    cand.attempt standardCatalog none [] .object w =
      (.ok (.handle (w.heap.intern (w.store.alloc t p).1).1),
        { store := (w.store.alloc t p).2
          heap := (w.heap.intern (w.store.alloc t p).1).2 }) := by
  let w' : World := { w with store := (w.store.alloc t p).2 }
  have hpayload : w'.store.payload (w.store.alloc t p).1 = p := Store.payload_alloc t p
  rw [attempt_of_routes hrest rfl, Action.guarded_run_ok]
  show (cand.method.body none [] >>= cand.convertResult standardCatalog .object) w = _
  rw [hbody, bind_run_ok (Action.create_run t p w)]
  exact Candidate.convertResult_object_intern standardCatalog cand (w := w')
    (hpayload.symm ▸ hcarried) htype

/-- The construction of a collection: what its first attempt gives. -/
theorem exists_constructors
    (kind : CollectionKind) :
    ∃ cand cands, resolve standardCatalog builtinRegistry kind.type constructorName [] true =
        .ok (cand :: cands) ∧
      ∀ w : World, cand.attempt standardCatalog none [] .object w =
        (.ok (.handle (w.heap.intern (w.store.alloc kind.type (kind.wrap [])).1).1),
          { store := (w.store.alloc kind.type (kind.wrap [])).2
            heap := (w.heap.intern (w.store.alloc kind.type (kind.wrap [])).1).2 }) := by
  have hsorted : ∀ {a b : Candidate}, a.precedes b = true →
      [a, b].Pairwise fun a b => a.precedes b = true := by
    intro a b hab
    exact List.pairwise_pair.2 hab
  cases kind with
  | list =>
      exact ⟨_, _, resolve_sorted rfl rfl rfl (hsorted rfl),
        attempt_object_of_create rfl rfl rfl Ty.noConfusion⟩
  | set =>
      exact ⟨_, _, resolve_sorted rfl rfl rfl (hsorted rfl),
        attempt_object_of_create rfl rfl rfl Ty.noConfusion⟩

end Constructors

namespace Bridge

variable {b : Bridge} {rs : List Request} {s : Session}

theorem absorb_toStep_run
    (act : Action Value)
    (s : Session) :
    act.toStep.absorb s =
      (seenByHost (act s.world).1, { s with world := (act s.world).2 }) := by
  rw [absorb_run, toStep_run]
  cases (act s.world).1 with
  | ok v =>
      rfl
  | error f =>
      cases f <;> rfl

/-- On types without ancestors a lookup gives what is found afresh, remembered or not. -/
theorem Reached.lookup_ok
    (hs : b.Reached rs s)
    (hrs : ∀ r ∈ rs, r.type.ancestors = [])
    {r : Request}
    (hr : r.type.ancestors = [])
    {cands : List Candidate}
    (hres : b.resolved r = .ok cands) :
    ∃ cache, b.lookup r s = (.ok cands, { s with cache := cache }) := by
  obtain ⟨q, cache, hq, hrun⟩ := hs.lookup_answers r
  have hancestors : q.type.ancestors = [] := by
    rcases hq with rfl | ⟨-, hq, -⟩
    · exact hr
    · exact hrs q hq
  have hres' : b.resolved q = .ok cands :=
    (resolved_congr hq.key_eq (Or.inr (hancestors.trans hr.symm))).2 hres
  exact ⟨cache, by rw [hrun, hres']⟩

end Bridge

namespace Shelf

open Bridge

variable {shelf : Shelf} {config : BridgeConfig} {s : Session}

/-- A call of a member of a collection, with the candidates that are found afresh. -/
theorem Fits.perform_run
    (hfits : shelf.Fits (standard config) s)
    {call : HostCall}
    {m : MemberCall}
    (hcall : (standard config).memberCall? s.world call = some m)
    (hancestors : m.type.ancestors = [])
    {cands : List Candidate}
    (hres : (standard config).resolved m.request = .ok cands)
    {result : Except Fault Value}
    {w' : World}
    (hrun : invokeMember standardCatalog m.type m.member m.receiver m.args m.mode cands s.world =
      (result, w')) :
    ∃ s', (standard config).perform call s = (.value (seenByHost result), s') ∧ s'.world = w' ∧
      ∃ rs, (standard config).Reached rs s' ∧ ∀ r ∈ rs, r.type.ancestors = [] := by
  obtain ⟨rs, hreached, hrs⟩ := hfits.reached
  obtain ⟨cache, hlookup⟩ := hreached.lookup_ok hrs (r := m.request) hancestors hres
  have hperform : (standard config).perform call s =
      (.value (seenByHost result), { world := w', cache := cache }) := by
    rw [perform_found hcall hlookup, Step.answer, absorb_toStep_run]
    exact Prod.ext (congrArg (fun p => Answer.value (seenByHost p.1)) hrun)
      (congrArg (fun p => ({ world := p.2, cache := cache } : Session)) hrun)
  refine ⟨_, hperform, rfl, rs ++ [m.request], ?_, ?_⟩
  · have hrequest := hreached.perform call
    rw [request?_eq, hcall, hperform] at hrequest
    exact hrequest
  · intro r hr
    rcases List.mem_append.1 hr with hold | hnew
    · exact hrs r hold
    · rw [List.mem_singleton.1 hnew]
      exact hancestors

/-- After a question, the collections that were not asked are carried as before. -/
theorem Fits.carries_put
    (hfits : shelf.Fits (standard config) s)
    {h : Handle}
    {o : Object}
    (ho : s.world.heap.resolve? h = some o)
    {c c' : Collection}
    (hc : s.world.store.Carries o c)
    {w' : World}
    (hheap : w'.heap = s.world.heap)
    (hgrowth : s.world.store.ExtendsBut o.id w'.store)
    (hc' : w'.store.Carries o c')
    {k : Handle}
    {d : Collection}
    (hd : (shelf.put h c').at? k = some d) :
    ∃ x, w'.heap.resolve? k = some x ∧ w'.store.Carries x d := by
  rw [at?_put] at hd
  rw [hheap]
  split at hd
  · rename_i hsame
    cases hd
    exact ⟨o, hsame ▸ ho, hc'⟩
  · rename_i hother
    obtain ⟨x, hx, hcarries⟩ := hfits.carries k d hd
    have hne : x.id ≠ o.id := fun hid => hother (hfits.tidy.apart k h x o hx ho hid)
    exact ⟨x, hx, hcarries.of_extendsBut hne (fun _ _ hy => hc.ne_of_depicts hy) hgrowth⟩

/-- A question is answered as by the collection, and changes no other one. -/
theorem Fits.ask
    (hfits : shelf.Fits (standard config) s)
    {h : Handle}
    {c : Collection}
    (hc : shelf.at? h = some c)
    {q : Question}
    (hanswers : c.kind.Answers q) :
    ∃ s', (standard config).perform (ShelfCall.ask h q).toHost s =
        (.value (.ok (c.answer q)), s') ∧
      (shelf.after (.ask h q)).Fits (standard config) s' := by
  obtain ⟨o, ho, hcarries⟩ := hfits.carries h c hc
  let m : MemberCall :=
    { type := c.kind.type, member := q.member, receiver := some o, args := q.args,
      mode := .simplest }
  have hcall : (standard config).memberCall? s.world (ShelfCall.ask h q).toHost = some m := by
    rw [ShelfCall.toHost, memberCall?, ho, Option.map_some, hcarries.type]
  have hancestors : m.type.ancestors = [] := by
    show c.kind.type.ancestors = []
    cases c.kind <;> rfl
  obtain ⟨cand, hres, hattempt⟩ := exists_candidate hanswers
  obtain ⟨result, w', hrun, hasked⟩ := asked cand hcarries hanswers
  have hinvoke := invokeMember_asked (hattempt o) hrun hasked.replies
  obtain ⟨s', hperform, rfl, hreached⟩ := hfits.perform_run hcall hancestors hres hinvoke
  refine ⟨s', ?_, ?_⟩
  · rw [hperform, Collection.answer]
    cases c.answer? q <;> rfl
  · rw [after_ask hc]
    have hheap : s'.world.heap = s.world.heap := hasked.heap
    refine ⟨?_, hfits.tidy.grow hheap hasked.growth.size_le, ?_, hreached⟩
    · rw [hheap]
      exact hfits.next
    · intro k d hd
      exact hfits.carries_put ho hcarries hheap hasked.growth hasked.carries hd

/-- A new collection is carried by the object that was made for it, and the others as before. -/
theorem Fits.carries_create
    (hfits : shelf.Fits (standard config) s)
    (kind : CollectionKind)
    {k : Handle}
    {d : Collection}
    (hd : (shelf.after (.create kind)).at? k = some d) :
    ∃ x, (s.world.heap.intern (s.world.store.alloc kind.type (kind.wrap [])).1).2.resolve? k =
        some x ∧
      (s.world.store.alloc kind.type (kind.wrap [])).2.Carries x d := by
  obtain ⟨hnew, -⟩ := hfits.tidy.create kind.type (kind.wrap [])
  rw [at?_after_create] at hd
  rw [Heap.resolve?_intern_of_none hnew, hfits.next]
  by_cases hk : k = shelf.next
  · rw [if_pos hk.symm]
    rw [if_pos hk] at hd
    cases hd
    exact ⟨_, rfl, rfl, Store.lt_size_alloc _ _, [], Store.payload_alloc _ _, .nil⟩
  · rw [if_neg (Ne.symm hk)]
    rw [if_neg hk] at hd
    obtain ⟨x, hx, hcarries⟩ := hfits.carries k d hd
    exact ⟨x, hx, hcarries.extend (Store.extends_alloc kind.type (kind.wrap []))⟩

/-- A new collection gets the next handle. -/
theorem Fits.create
    (hfits : shelf.Fits (standard config) s)
    (kind : CollectionKind) :
    ∃ s', (standard config).perform (ShelfCall.create kind).toHost s =
        (.value (.ok (.handle shelf.next)), s') ∧
      (shelf.after (.create kind)).Fits (standard config) s' := by
  let m : MemberCall :=
    { type := kind.type, member := constructorName, receiver := none, args := [], mode := .object }
  have hcall : (standard config).memberCall? s.world (ShelfCall.create kind).toHost = some m := by
    cases kind <;> rfl
  have hancestors : m.type.ancestors = [] := by
    show kind.type.ancestors = []
    cases kind <;> rfl
  obtain ⟨cand, cands, hres, hattempt⟩ := exists_constructors kind
  have hinvoke := invokeMember_of_first kind.type constructorName (hattempt s.world) cands
  obtain ⟨s', hperform, hworld, hreached⟩ := hfits.perform_run hcall hancestors hres hinvoke
  obtain ⟨hnew, htidy⟩ := hfits.tidy.create kind.type (kind.wrap [])
  refine ⟨s', ?_, ?_, hworld ▸ htidy, ?_, hreached⟩
  · rw [hperform, Heap.intern_of_none hnew, hfits.next]
    rfl
  · rw [hworld]
    show (s.world.heap.intern _).2.nextHandle = ⟨shelf.next.value + 1⟩
    rw [Heap.intern_of_none hnew, ← hfits.next]
    show (⟨_ + (_ + 1)⟩ : Handle) = ⟨_ + _ + 1⟩
    rw [UInt64.add_assoc]
  · intro k d hd
    rw [hworld]
    exact hfits.carries_create kind hd

/-- The end of a cycle changes nothing, as long as no handle of the shelf is evicted. -/
theorem Fits.collect
    (hfits : shelf.Fits (standard config) s)
    {reachable : List Handle}
    {s' : Session}
    (hs' : ((standard config).perform (ShelfCall.collect reachable).toHost s).2 = s')
    (hkept : ∀ h c, shelf.at? h = some c → s'.world.heap.contains h = true) :
    shelf.Fits (standard config) s' := by
  subst hs'
  obtain ⟨rs, hreached, hrs⟩ := hfits.reached
  refine ⟨?_, hfits.tidy.collect reachable, ?_, rs, ?_, hrs⟩
  · exact (Heap.nextHandle_cycle s.world.heap reachable).trans hfits.next
  · intro h c hc
    obtain ⟨o, ho, hcarries⟩ := hfits.carries h c hc
    obtain ⟨o', ho'⟩ := (Heap.contains_iff _ h).1 (hkept h c hc)
    have hsame : s.world.heap.resolve? h = some o' := Heap.resolve?_of_cycle ho'
    cases ho.symm.trans hsame
    exact ⟨o, ho', hcarries⟩
  · have hperform := hreached.perform (ShelfCall.collect reachable).toHost
    rw [ShelfCall.toHost, request?, Option.toList_none, List.append_nil] at hperform
    exact hperform

/-- A cycle whose report shows the whole shelf evicts none of its handles. -/
theorem Fits.contains_of_shown
    (hfits : shelf.Fits (standard config) s)
    {reachable : List Handle}
    {h : Handle}
    {c : Collection}
    (hc : shelf.at? h = some c)
    (hshown : h ∈ reachable) :
    ((standard config).perform (ShelfCall.collect reachable).toHost s).2.world.heap.contains h =
      true := by
  obtain ⟨o, ho, -⟩ := hfits.carries h c hc
  exact (Heap.contains_iff _ h).2 ⟨o, (Heap.resolve?_cycle_of_shown hshown).trans ho⟩

/-- One call: the answer is that of the shelf, and the session goes on to fit. -/
theorem Fits.perform
    (hfits : shelf.Fits (standard config) s)
    {call : ShelfCall}
    (hallowed : shelf.Allows call)
    (hkept : ∀ reachable, call = .collect reachable → ∀ h c, shelf.at? h = some c →
      ((standard config).perform call.toHost s).2.world.heap.contains h = true) :
    (∀ v, shelf.answer? call = some v →
      ((standard config).perform call.toHost s).1 = .value (.ok v)) ∧
    (shelf.after call).Fits (standard config) ((standard config).perform call.toHost s).2 := by
  cases call with
  | create kind =>
      obtain ⟨s', hperform, hfits'⟩ := hfits.create kind
      rw [hperform]
      refine ⟨?_, hfits'⟩
      intro v hv
      cases hv
      rfl
  | ask h q =>
      obtain ⟨c, hc, hanswers⟩ := hallowed
      obtain ⟨s', hperform, hfits'⟩ := hfits.ask hc hanswers
      rw [hperform]
      refine ⟨?_, hfits'⟩
      intro v hv
      rw [answer?, hc] at hv
      cases hv
      rfl
  | collect reachable =>
      refine ⟨?_, hfits.collect rfl (hkept reachable rfl)⟩
      intro v hv
      cases hv

end Shelf

namespace Bridge

section Runs

/-- The session after calls on collections, from the empty heap on. -/
def shelfSession
    (config : BridgeConfig)
    (ambient : UInt64)
    (store : Store)
    (calls : List ShelfCall) : Session :=
  (standard config).sessionAfter ((standard config).newSession ambient store)
    (calls.map ShelfCall.toHost)

/-- The shelf after calls, from the first handle of the heap on. -/
def shelfAfter
    (config : BridgeConfig)
    (ambient : UInt64)
    (calls : List ShelfCall) : Shelf :=
  (Shelf.empty (config.heap.newHeap ambient).nextHandle).afterAll calls

variable {config : BridgeConfig} {ambient : UInt64} {store : Store} {calls : List ShelfCall}

theorem shelfSession_take_succ
    {n : Nat}
    {call : ShelfCall}
    (hcall : calls[n]? = some call) :
    shelfSession config ambient store (calls.take (n + 1)) =
      ((standard config).perform call.toHost
        (shelfSession config ambient store (calls.take n))).2 := by
  have hhost : (calls.map ShelfCall.toHost)[n]? = some call.toHost := by
    rw [List.getElem?_map, hcall, Option.map_some]
  rw [shelfSession, shelfSession, List.map_take, List.map_take, sessionAfter_take_succ _ _ hhost]

theorem fits_start :
    (shelfAfter config ambient []).Fits (standard config)
      (shelfSession config ambient store []) := by
  refine ⟨rfl, tidy_newHeap config.heap ambient store, ?_, [], .start _, ?_⟩
  · intro h c hc
    cases hc
  · intro r hr
    cases hr

/-- The session fits the shelf all along, if no cycle evicts a handle of a shelf that fits. -/
theorem fits_shelfSession
    (hallowed : ∀ n call, calls[n]? = some call →
      (shelfAfter config ambient (calls.take n)).Allows call)
    (hkept : ∀ n reachable, calls[n]? = some (.collect reachable) →
      (shelfAfter config ambient (calls.take n)).Fits (standard config)
        (shelfSession config ambient store (calls.take n)) → ∀ h c,
      (shelfAfter config ambient (calls.take n)).at? h = some c →
        (shelfSession config ambient store (calls.take (n + 1))).world.heap.contains h = true)
    (n : Nat) :
    (shelfAfter config ambient (calls.take n)).Fits (standard config)
      (shelfSession config ambient store (calls.take n)) := by
  induction n with
  | zero =>
      exact fits_start
  | succ n ih =>
      cases hcall : calls[n]? with
      | none =>
          have hend : calls.take (n + 1) = calls.take n := by
            rw [List.take_add_one, hcall, Option.toList_none, List.append_nil]
          rw [hend]
          exact ih
      | some call =>
          have hstep := ih.perform (hallowed n call hcall) ?_
          · rw [shelfSession_take_succ hcall, shelfAfter, Shelf.afterAll_take_succ hcall]
            exact hstep.2
          · rintro reachable rfl
            rw [← shelfSession_take_succ hcall]
            exact hkept n reachable hcall ih

/-- Cycles whose reports show the whole shelf evict none of its handles. -/
theorem kept_of_shown
    (hallowed : ∀ n call, calls[n]? = some call →
      (shelfAfter config ambient (calls.take n)).Allows call)
    (hshown : ∀ n reachable, calls[n]? = some (.collect reachable) → ∀ h c,
      (shelfAfter config ambient (calls.take n)).at? h = some c → h ∈ reachable)
    (n : Nat)
    (reachable : List Handle)
    (hcall : calls[n]? = some (.collect reachable))
    (h : Handle)
    (c : Collection)
    (hc : (shelfAfter config ambient (calls.take n)).at? h = some c) :
    (shelfSession config ambient store (calls.take (n + 1))).world.heap.contains h = true := by
  have hstep : ∀ n reachable, calls[n]? = some (.collect reachable) →
      (shelfAfter config ambient (calls.take n)).Fits (standard config)
        (shelfSession config ambient store (calls.take n)) → ∀ h c,
      (shelfAfter config ambient (calls.take n)).at? h = some c →
        (shelfSession config ambient store (calls.take (n + 1))).world.heap.contains h = true := by
    intro n reachable hcall hfits h c hc
    rw [shelfSession_take_succ hcall]
    exact hfits.contains_of_shown hc (hshown n reachable hcall h c hc)
  exact hstep n reachable hcall (fits_shelfSession hallowed hstep n) h c hc

/-- Collections answer as lists of values.  In a session of constructions of empty lists and sets,
of questions to them and of collection cycles that evict none of them, each answer is that of the
shelf; and a collection on a shelf holds what equals a value that was added to it.

Counts and positions are integers of thirty-two bits.  So a collection of `2 ^ 31` values or more
does not tell its size, and a list gives the value at a position below `2 ^ 31` only; the answer to
other such questions is an error value.  All other answers are without a limit. -/
theorem collections_answer
    (hallowed : ∀ n call, calls[n]? = some call →
      (shelfAfter config ambient (calls.take n)).Allows call)
    (hkept : ∀ n reachable, calls[n]? = some (.collect reachable) → ∀ h c,
      (shelfAfter config ambient (calls.take n)).at? h = some c →
        (shelfSession config ambient store (calls.take (n + 1))).world.heap.contains h = true) :
    (∀ n call v, calls[n]? = some call →
      (shelfAfter config ambient (calls.take n)).answer? call = some v →
        ((standard config).perform call.toHost
          (shelfSession config ambient store (calls.take n))).1 = .value (.ok v)) ∧
    ∀ (kind : CollectionKind) (qs : List Question), (∀ q ∈ qs, kind.Answers q) → ∀ v,
      ((Collection.new kind).afterAll qs).holds v = true ↔
        ∃ u, .add u ∈ qs ∧ (u == v) = true := by
  refine ⟨?_, ?_⟩
  · intro n call v hcall
    have hfits := fits_shelfSession hallowed (fun n reachable hcall _ => hkept n reachable hcall) n
    refine (hfits.perform (hallowed n call hcall) ?_).1 v
    rintro reachable rfl
    rw [← shelfSession_take_succ hcall]
    exact hkept n reachable hcall
  · intro kind qs hqs v
    rw [Collection.holds_afterAll (c := .new kind) hqs]
    exact or_iff_right Bool.false_ne_true

/-- A set and a list side by side: zeros of both signs are equal in the set, a cycle that shows both
handles leaves them alone, and there is nothing at position one of the list. -/
theorem collections_answer_mixed :
    let minusZero : Number := ⟨9223372036854775808⟩
    let calls : List ShelfCall :=
      [.create .set, .create .list, .ask ⟨7⟩ (.add (.number .zero)),
        .ask ⟨7⟩ (.add (.number minusZero)), .ask ⟨8⟩ (.add (.text "a")), .collect [⟨7⟩, ⟨8⟩],
        .ask ⟨7⟩ .toArray, .ask ⟨8⟩ (.get ⟨4607182418800017408⟩)]
    let answerAt (n : Nat) (call : ShelfCall) :=
      ((standard {}).perform call.toHost (shelfSession {} 7 .empty (calls.take n))).1
    answerAt 1 (.create .list) = .value (.ok (.handle ⟨8⟩)) ∧
      answerAt 3 (.ask ⟨7⟩ (.add (.number minusZero))) = .value (.ok (.boolean false)) ∧
      answerAt 6 (.ask ⟨7⟩ .toArray) =
        .value (.ok (.array (Value.gridOfRow [.number .zero]))) ∧
      ∃ message, answerAt 7 (.ask ⟨8⟩ (.get ⟨4607182418800017408⟩)) =
        .value (.ok (.error { code := .null, message := some message })) := by
  intro minusZero calls answerAt
  have hallowed : ∀ n call, calls[n]? = some call →
      (shelfAfter {} 7 (calls.take n)).Allows call := by
    intro n call hcall
    match n, hcall with
    | 0, rfl | 1, rfl | 5, rfl => trivial
    | 2, rfl | 3, rfl | 4, rfl => exact ⟨_, rfl, rfl⟩
    | 6, rfl | 7, rfl => exact ⟨_, rfl, trivial⟩
  have hshown : ∀ n reachable, calls[n]? = some (.collect reachable) → ∀ h c,
      (shelfAfter {} 7 (calls.take n)).at? h = some c → h ∈ reachable := by
    intro n reachable hcall h c hc
    match n, hcall with
    | 5, rfl =>
        by_contra hnone
        obtain ⟨hset, hlist⟩ : h ≠ ⟨7⟩ ∧ h ≠ ⟨8⟩ := by
          simpa using hnone
        have hlast : (shelfAfter {} 7 (calls.take 5)).at? h = none := by
          show ((((((Shelf.empty ⟨7⟩).after (.create .set)).after (.create .list)).after
            (.ask ⟨7⟩ _)).after (.ask ⟨7⟩ _)).after (.ask ⟨8⟩ _)).at? h = none
          rw [Shelf.at?_after_ask hlist, Shelf.at?_after_ask hset, Shelf.at?_after_ask hset,
            Shelf.at?_after_create, Shelf.at?_after_create]
          exact (if_neg hlist).trans (if_neg hset)
        cases hlast.symm.trans hc
    | 0, h | 1, h | 2, h | 3, h | 4, h | 6, h | 7, h | n + 8, h => cases h
  have hrefused : Collection.takes ⟨.set, [.number .zero]⟩ (.number minusZero) = false := by
    show (!([Value.number .zero].any fun x => x.beq (.number minusZero))) = false
    rw [List.any_cons, Value.beq]
    decide
  have htaken : (shelfAfter {} 7 (calls.take 6)).at? ⟨7⟩ = some ⟨.set, [.number .zero]⟩ := by
    show some (if Collection.takes ⟨.set, [.number .zero]⟩ (.number minusZero) then _
      else (⟨.set, [.number .zero]⟩ : Collection)) = _
    rw [hrefused]
    rfl
  have hkept : ∀ n reachable, calls[n]? = some (.collect reachable) → ∀ h c,
      (shelfAfter {} 7 (calls.take n)).at? h = some c →
        (shelfSession {} 7 .empty (calls.take (n + 1))).world.heap.contains h = true :=
    kept_of_shown hallowed hshown
  obtain ⟨hanswers, -⟩ := collections_answer hallowed hkept
  refine ⟨hanswers 1 _ _ rfl rfl, hanswers 3 _ _ rfl ?_, hanswers 6 _ _ rfl ?_, _,
    hanswers 7 _ _ rfl rfl⟩
  · exact congrArg (fun b => some (Value.boolean b)) hrefused
  · rw [Shelf.answer?, htaken]
    rfl

end Runs

end Bridge
end CellBridge
