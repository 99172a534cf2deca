import CellBridge.Proofs.Call.Fallback
import CellBridge.Proofs.Call.Results
import CellBridge.Proofs.Call.Shelf
import CellBridge.Proofs.Conversion.Rows

/-!
# Questions to built-in collections

An object carries a collection if its payload has an item for each value, and each item depicts its
value: `Store.Carries`.  Every question has one candidate, whose attempt reads the arguments, looks
at the items and converts the result.  `ask_run` is the step: the attempt gives the answer of the
collection, the object carries the collection as it is after the question, and nothing else that was
there has changed.

The items are told apart by what they depict, since a fresh object is never one of them
(`valueEq_of_depicts`).
-/

namespace CellBridge

section Defs

namespace CollectionKind

/-- The payload with the given items. -/
def wrap : CollectionKind → List Object → Payload
  | .list => .list
  | .set => .set

/-- The items of a receiver of the kind. -/
def these : CollectionKind → Option Object → Action (Object × List Object)
  | .list => Builtin.thisList
  | .set => Builtin.thisSet

/-- The body of the method that answers a question. -/
def body
    (k : CollectionKind) : Question → Body
  | .add _ =>
      match k with
      | .list => Builtin.listAdd.body
      | .set => Builtin.setAdd.body
  | .contains _ => fun receiver args => do
      let (_, os) ← k.these receiver
      let o ← Builtin.argument args 0
      Builtin.boolResult ((← get).store.hasEqual os o)
  | .size => fun receiver _ => do
      Builtin.countResult (← k.these receiver).2.length
  | .isEmpty => fun receiver _ => do
      Builtin.boolResult (← k.these receiver).2.isEmpty
  | .toArray => fun receiver _ => do
      Action.createArray .any (← k.these receiver).2
  | .get _ => fun receiver args => do
      let (_, items) ← k.these receiver
      Builtin.itemAt items (← Builtin.argument args 0)

end CollectionKind

/-- The types that the arguments of a question are read at. -/
def Question.targets : Question → List Ty
  | .add _ => [.any]
  | .contains _ => [.any]
  | .get _ => [.int]
  | _ => []

/-- Reads a plain value as an object that depicts it. -/
def readPlain
    (v : Value) : Action (List Object) :=
  match v.plain? with
  | some (t, p) => do return [← Action.create t p]
  | none => return []

/-- Reads the arguments of a question. -/
def Question.read : Question → Action (List Object)
  | .add v => readPlain v
  | .contains v => readPlain v
  | .get index => do return [← Scalar.readInt (.number index)]
  | _ => return []

namespace Store

/-- The second store has the payloads of the first one apart from one, and perhaps more. -/
structure ExtendsBut
    (i : Nat)
    (s s' : Store) : Prop where
  size_le : s.size ≤ s'.size
  same : ∀ j, j < s.size → j ≠ i → s'.payloads.getD j .unit = s.payloads.getD j .unit

/-- The object is a collection whose items depict the values. -/
structure Carries
    (s : Store)
    (o : Object)
    (c : Collection) : Prop where
  type : o.type = c.kind.type
  bound : o.id < s.size
  items : ∃ items, s.payload o = c.kind.wrap items ∧
    List.Forall₂ (fun x v => x.id < s.size ∧ s.Depicts x v) items c.values

end Store

/-- Reads the arguments of a question, runs the body on the receiver and converts the result. -/
def Candidate.ask
    (cand : Candidate)
    (k : CollectionKind)
    (q : Question)
    (o : Object) : Action Value := do
  let os ← q.read
  let result ← k.body q (some o) os
  cand.convertResult standardCatalog .simplest result

/-- The result of an attempt gives the answer to a question, and is a setback if there is none. -/
def Collection.Replies
    (c : Collection)
    (q : Question)
    (result : Except Fault Value) : Prop :=
  match c.answer? q with
  | some v => result = .ok v
  | none => Candidate.IsSetback result

end Defs

section Payloads

variable {v u : Value} {t t' : Ty} {p p' : Payload}

/-- Plain contents are equal if the host takes the values for equal. -/
theorem contentEq_of_plain
    (hv : v.plain? = some (t, p))
    (hu : u.plain? = some (t', p')) :
    Store.contentEq t t' p p' = (v == u) := by
  show _ = Value.beq v u
  cases v <;> cases hv <;> cases u <;> cases hu <;> simp only [Value.beq] <;> rfl

theorem wrap_ne_of_plain
    (hv : v.plain? = some (t, p))
    (k : CollectionKind)
    (items : List Object) :
    k.wrap items ≠ p := by
  cases v <;> cases hv <;> cases k <;> exact Payload.noConfusion

end Payloads

namespace Store

variable {s s' s'' : Store} {i : Nat} {o x y : Object} {c : Collection} {v u : Value}

section Growth

theorem Extends.but
    (h : s.Extends s')
    (i : Nat) :
    s.ExtendsBut i s' := by
  exact ⟨h.size_le, fun j hj _ => h.same j hj⟩

theorem ExtendsBut.trans
    (h : s.ExtendsBut i s')
    (h' : s'.ExtendsBut i s'') :
    s.ExtendsBut i s'' := by
  refine ⟨h.size_le.trans h'.size_le, ?_⟩
  intro j hj hne
  exact (h'.same j (Nat.lt_of_lt_of_le hj h.size_le) hne).trans (h.same j hj hne)

theorem extendsBut_replace
    (hbound : o.id < s.size)
    (p : Payload) :
    s.ExtendsBut o.id (s.replace o p) := by
  refine ⟨Nat.le_of_eq size_replace.symm, ?_⟩
  intro j _ hne
  rw [getD_replace hbound, if_neg hne]

/-- Where nothing happens to the one object either, the store has grown. -/
theorem ExtendsBut.extends
    (h : s.ExtendsBut o.id s')
    (hsame : s'.payload o = s.payload o) :
    s.Extends s' := by
  refine ⟨h.size_le, ?_⟩
  intro i hi
  by_cases hid : i = o.id
  · subst hid
    exact hsame
  · exact h.same i hi hid

end Growth

section Depicting

/-- Different objects are equal if they depict equal values. -/
theorem valueEq_of_depicts
    (hx : s.Depicts x v)
    (hy : s.Depicts y u)
    (hne : x.id ≠ y.id) :
    s.valueEq x y = (v == u) := by
  rw [valueEq_eq, sameIdentity, beq_false_of_ne hne, Bool.false_or]
  exact contentEq_of_plain hx hy

/-- A collection is not one of the objects that depict values. -/
theorem Carries.ne_of_depicts
    (h : s.Carries o c)
    (hx : s.Depicts x v) :
    x.id ≠ o.id := by
  obtain ⟨items, hpayload, -⟩ := h.items
  intro hid
  have hsame : s.payload x = s.payload o := by
    rw [payload, payload, hid]
  rw [Depicts, hsame, hpayload] at hx
  exact wrap_ne_of_plain hx _ _ rfl

/-- An object goes on to depict its value while another one changes. -/
theorem Depicts.of_extendsBut
    (h : s.Depicts x v)
    (hlt : x.id < s.size)
    (hne : x.id ≠ i)
    (hs : s.ExtendsBut i s') :
    s'.Depicts x v := by
  have hsame : s'.payload x = s.payload x := hs.same x.id hlt hne
  rw [Depicts, hsame]
  exact h

/-- A collection stays as it is while another object changes. -/
theorem Carries.of_extendsBut
    (h : s.Carries o c)
    (hne : o.id ≠ i)
    (hitems : ∀ x v, s.Depicts x v → x.id ≠ i)
    (hs : s.ExtendsBut i s') :
    s'.Carries o c := by
  obtain ⟨items, hpayload, hdepicts⟩ := h.items
  refine ⟨h.type, Nat.lt_of_lt_of_le h.bound hs.size_le, items, ?_, hdepicts.imp ?_⟩
  · exact (hs.same o.id h.bound hne).trans hpayload
  · rintro x v ⟨hlt, hx⟩
    exact ⟨Nat.lt_of_lt_of_le hlt hs.size_le, hx.of_extendsBut hlt (hitems x v hx) hs⟩

/-- A collection with other items. -/
theorem Carries.replace
    (h : s.Carries o c)
    {c' : Collection}
    (hkind : c'.kind = c.kind)
    {items : List Object}
    (hitems : List.Forall₂ (fun x v => x.id < s.size ∧ s.Depicts x v) items c'.values) :
    (s.replace o (c.kind.wrap items)).Carries o c' := by
  have hbut : s.ExtendsBut o.id (s.replace o (c.kind.wrap items)) := extendsBut_replace h.bound _
  have hpayload : (s.replace o (c.kind.wrap items)).payload o = c'.kind.wrap items := by
    rw [payload, getD_replace h.bound, if_pos rfl, hkind]
  refine ⟨hkind ▸ h.type, Nat.lt_of_lt_of_le h.bound hbut.size_le, items, hpayload, hitems.imp ?_⟩
  rintro x v ⟨hlt, hx⟩
  exact ⟨Nat.lt_of_lt_of_le hlt hbut.size_le, hx.of_extendsBut hlt (h.ne_of_depicts hx) hbut⟩

/-- A collection stays as it is while the store grows. -/
theorem Carries.extend
    (h : s.Carries o c)
    (hs : s.Extends s') :
    s'.Carries o c := by
  obtain ⟨items, hpayload, hdepicts⟩ := h.items
  refine ⟨h.type, Nat.lt_of_lt_of_le h.bound hs.size_le, items, ?_, hdepicts.imp ?_⟩
  · exact (hs.same o.id h.bound).trans hpayload
  · rintro x v ⟨hlt, hx⟩
    exact ⟨Nat.lt_of_lt_of_le hlt hs.size_le, hx.extend hlt hs⟩

end Depicting

end Store

section Methods

variable {k : CollectionKind} {q : Question}

theorem these_run
    {o : Object}
    {items : List Object}
    {w : World}
    (h : w.store.payload o = k.wrap items) :
    k.these (some o) w = (.ok (o, items), w) := by
  cases k with
  | list =>
      show (Action.payload o >>= fun p => Action.orFail _ p.list? >>= fun os => pure (o, os)) w = _
      rw [bind_run_ok (Action.payload_run o w), h]
      rfl
  | set =>
      show (Action.payload o >>= fun p => Action.orFail _ p.set? >>= fun os => pure (o, os)) w = _
      rw [bind_run_ok (Action.payload_run o w), h]
      rfl

/-- A question is answered by one method. -/
theorem exists_method
    (h : k.Answers q) :
    ∃ m, visibleMethods builtinRegistry k.type q.member false = [m] ∧ m.rest = none ∧
      m.fixed = q.targets ∧ m.body = k.body q := by
  cases k with
  | list =>
      cases q <;> exact ⟨_, rfl, rfl, rfl, rfl⟩
  | set =>
      cases q with
      | get index =>
          exact h.elim
      | _ =>
          exact ⟨_, rfl, rfl, rfl, rfl⟩

end Methods

section Candidates

variable {k : CollectionKind} {q : Question}

/-- The arguments of a question are read at their types. -/
theorem exists_routes
    (h : k.Answers q)
    {m : Method}
    (hm : m.fixed = q.targets) :
    ∃ routes, Candidate.routes standardCatalog m 0 (q.args.map Value.shape) = .ok routes ∧
      Candidate.readArguments standardCatalog (q.args.zip routes) = q.read := by
  have hplain : ∀ v, v.plain?.isSome = true → q.args = [v] → q.targets = [.any] →
      q.read = readPlain v → ∃ routes,
        Candidate.routes standardCatalog m 0 (q.args.map Value.shape) = .ok routes ∧
          Candidate.readArguments standardCatalog (q.args.zip routes) = q.read := by
    intro v hv hargs htargets hread
    obtain ⟨⟨t, p⟩, hp⟩ := Option.isSome_iff_exists.1 hv
    obtain ⟨r, hr, hmanaged⟩ := exists_reader_of_plain hp
    have htarget : m.target 0 = .any := by
      rw [Method.target, hm, htargets]
      rfl
    refine ⟨[(.any, r)], ?_, ?_⟩
    · rw [hargs, List.map_singleton, Candidate.routes, htarget, hr]
      rfl
    · rw [hargs, hread, readPlain, hp]
      funext w
      simp only [List.zip_cons_cons, List.zip_nil_right, Candidate.readArguments, Catalog.read,
        hmanaged]
      rfl
  cases q with
  | add v =>
      exact hplain v (by cases k <;> exact h) rfl rfl rfl
  | contains v =>
      exact hplain v (by cases k <;> exact h) rfl rfl rfl
  | get index =>
      have htarget : m.target 0 = .int := by
        rw [Method.target, hm]
        rfl
      refine ⟨[(.int, Scalar.int)], ?_, rfl⟩
      show Candidate.routes standardCatalog m 0 [.number] = _
      rw [Candidate.routes, htarget]
      rfl
  | _ =>
      exact ⟨[], rfl, rfl⟩

/-- A question has one candidate, whose attempt asks it. -/
theorem exists_candidate
    (h : k.Answers q) :
    ∃ cand, resolve standardCatalog builtinRegistry k.type q.member (q.args.map Value.shape) false =
        .ok [cand] ∧
      ∀ o, cand.attempt standardCatalog (some o) q.args .simplest =
        Action.guarded cand.method.display (cand.ask k q o) := by
  obtain ⟨m, hvisible, hrest, hfixed, hbody⟩ := exists_method h
  obtain ⟨routes, hroutes, hread⟩ := exists_routes h hfixed
  have harity : m.acceptsArity (q.args.map Value.shape).length = true := by
    rw [Method.acceptsArity, Method.isVariadic, hrest, hfixed]
    cases q <;> rfl
  have hfits : m.Fits standardCatalog (q.args.map Value.shape) := by
    refine fits_of_length_le_one ?_ ?_
    · cases q with
      | get => exact Nat.le_refl 1
      | add => exact Nat.le_refl 1
      | contains => exact Nat.le_refl 1
      | _ => exact Nat.zero_le 1
    · rw [Method.target, hfixed, hrest]
      cases q with
      | get => exact (by decide : Ty.int.rank < 2 ^ 32)
      | _ => exact (by decide : Ty.any.rank < 2 ^ 32)
  obtain ⟨cand, hresolve, rfl, hzip, -⟩ := resolve_one_ok hvisible harity hfits hroutes
  refine ⟨cand, hresolve, ?_⟩
  intro o
  rw [attempt_of_routes hrest hzip, hread, hbody]
  rfl

end Candidates

section Asking

variable {c : Collection} {q : Question} {o : Object} {w w' w₁ w₂ : World} {cand : Candidate}
  {items os : List Object} {result : Except Fault Value}

/-- What an attempt does for a question: the result is the reply, the object carries the collection
after the question, and all else that was there is as before. -/
structure Asked
    (c : Collection)
    (q : Question)
    (o : Object)
    (w : World)
    (result : Except Fault Value)
    (w' : World) : Prop where
  replies : c.Replies q result
  heap : w'.heap = w.heap
  growth : w.store.ExtendsBut o.id w'.store
  carries : w'.store.Carries o (c.after q)

/-- A question that changes nothing. -/
theorem Asked.of_adds
    (hc : w.store.Carries o c)
    (hafter : c.after q = c)
    (hadds : w.Adds w')
    (hreplies : c.Replies q result) :
    Asked c q o w result w' := by
  refine ⟨hreplies, hadds.heap, hadds.growth.but o.id, ?_⟩
  rw [hafter]
  exact hc.extend hadds.growth

/-- The arguments are read, and then the body gives an object that is converted. -/
theorem ask_run
    (hread : q.read w = (.ok os, w₁))
    {r : Object}
    (hbody : c.kind.body q (some o) os w₁ = (.ok r, w₂)) :
    cand.ask c.kind q o w = cand.convertResult standardCatalog .simplest r w₂ := by
  rw [Candidate.ask, bind_run_ok hread, bind_run_ok hbody]

/-- The arguments are read, and then the body fails. -/
theorem ask_run_failed
    (hread : q.read w = (.ok os, w₁))
    {f : Fault}
    (hbody : c.kind.body q (some o) os w₁ = (.error f, w₂)) :
    cand.ask c.kind q o w = (.error f, w₂) := by
  rw [Candidate.ask, bind_run_ok hread, bind_run_error hbody]

section Results

/-- A new object of plain type and payload comes back as the value. -/
theorem convertResult_create
    (cand : Candidate)
    {v : Value}
    {t : Ty}
    {p : Payload}
    (h : v.plain? = some (t, p))
    (w : World) :
    ∃ r w', Action.create t p w = (.ok r, w') ∧ w.Adds w' ∧
      cand.convertResult standardCatalog .simplest r w' = (.ok v, w') := by
  let w' : World := { w with store := (w.store.alloc t p).2 }
  exact ⟨(w.store.alloc t p).1, w', rfl, ⟨rfl, Store.extends_alloc t p⟩,
    cand.convertResult_of_depicts (w := w') (Store.depicts_alloc h)⟩

/-- An integer comes back as a number. -/
theorem convertResult_createInt
    (cand : Candidate)
    (n : Int32)
    (w : World) :
    ∃ r w', Action.create .int (.int n) w = (.ok r, w') ∧ w.Adds w' ∧
      cand.convertResult standardCatalog .simplest r w' =
        (.ok (.number (Number.ofInt n.toInt)), w') := by
  let r := (w.store.alloc .int (.int n)).1
  let w' : World := { w with store := (w.store.alloc .int (.int n)).2 }
  have hpayload : w'.store.payload r = .int n := Store.payload_alloc _ _
  refine ⟨r, w', rfl, ⟨rfl, Store.extends_alloc .int (.int n)⟩, ?_⟩
  rw [cand.convertResult_simplest_run (by rw [hpayload]; rfl)]
  show (Action.payload r >>= fun p => Action.orFail _
    (p.int?.map fun n => Scalar.integerValue n.toInt)) w' = _
  rw [bind_run_ok (Action.payload_run r w'), hpayload]
  rfl

end Results

section Questions

theorem asked_isEmpty
    (cand : Candidate)
    (hc : w.store.Carries o c) :
    ∃ result w', cand.ask c.kind .isEmpty o w = (result, w') ∧ Asked c .isEmpty o w result w' := by
  obtain ⟨items, hpayload, hitems⟩ := hc.items
  have hempty : items.isEmpty = c.values.isEmpty := by
    rw [Bool.eq_iff_iff, List.isEmpty_iff_length_eq_zero, List.isEmpty_iff_length_eq_zero,
      hitems.length_eq]
  obtain ⟨r, w', hresult, hadds, hconvert⟩ :=
    convertResult_create cand (v := .boolean c.values.isEmpty) rfl w
  have hbody : c.kind.body .isEmpty (some o) [] w = (.ok r, w') := by
    show (c.kind.these (some o) >>= fun x => Builtin.boolResult x.2.isEmpty) w = _
    rw [bind_run_ok (these_run hpayload), hempty]
    exact hresult
  exact ⟨_, w', (ask_run rfl hbody).trans hconvert, .of_adds hc rfl hadds rfl⟩

theorem asked_size
    (cand : Candidate)
    (hc : w.store.Carries o c) :
    ∃ result w', cand.ask c.kind .size o w = (result, w') ∧ Asked c .size o w result w' := by
  obtain ⟨items, hpayload, hitems⟩ := hc.items
  have hcount : c.kind.body .size (some o) [] w = Builtin.countResult c.values.length w := by
    show (c.kind.these (some o) >>= fun x => Builtin.countResult x.2.length) w = _
    rw [bind_run_ok (these_run hpayload), hitems.length_eq]
  by_cases hlt : c.values.length < 2 ^ 31
  · obtain ⟨r, w', hresult, hadds, hconvert⟩ :=
      convertResult_createInt cand (Int32.ofNat c.values.length) w
    have hbody : c.kind.body .size (some o) [] w = (.ok r, w') := by
      rw [hcount, Builtin.countResult, Nat.pow_eq, if_pos hlt]
      exact hresult
    refine ⟨_, w', (ask_run rfl hbody).trans hconvert, .of_adds hc rfl hadds ?_⟩
    rw [Int32.toInt_ofNat_of_lt hlt, Collection.Replies, Collection.answer?, if_pos hlt]
  · have hbody : c.kind.body .size (some o) [] w =
        (.error (.failed (.invocationFailure (toString c.values.length ++
          " does not fit in an int"))), w) := by
      rw [hcount, Builtin.countResult, Nat.pow_eq, if_neg hlt]
      exact Action.fail_run _ w
    refine ⟨_, w, ask_run_failed rfl hbody, .of_adds hc rfl (.refl w) ?_⟩
    rw [Collection.Replies, Collection.answer?, if_neg hlt]
    exact ⟨_, rfl, fun _ => BridgeError.noConfusion⟩

theorem asked_toArray
    (cand : Candidate)
    (hc : w.store.Carries o c) :
    ∃ result w', cand.ask c.kind .toArray o w = (result, w') ∧ Asked c .toArray o w result w' := by
  obtain ⟨items, hpayload, hitems⟩ := hc.items
  let r := (w.store.alloc (.array .any) (.array items)).1
  let w' : World := { w with store := (w.store.alloc (.array .any) (.array items)).2 }
  have hadds : w.Adds w' := ⟨rfl, Store.extends_alloc (.array .any) (.array items)⟩
  have hbody : c.kind.body .toArray (some o) [] w = (.ok r, w') := by
    show (c.kind.these (some o) >>= fun x => Action.createArray .any x.2) w = _
    rw [bind_run_ok (these_run hpayload)]
    rfl
  have hdepicts : List.Forall₂ w'.store.Depicts items c.values :=
    hitems.imp fun x v hx => hx.2.extend hx.1 hadds.growth
  have hpayload' : w'.store.payload r = .array items := Store.payload_alloc _ _
  have hconvert : cand.convertResult standardCatalog .simplest r w' =
      (.ok (.array (Value.gridOfRow c.values)), w') := by
    rw [cand.convertResult_simplest_run (by rw [hpayload']; rfl), ← rowValue_eq]
    refine rowsAt_array.writeCell_run hpayload' ?_ (hdepicts.imp fun x v hx => hx.writeCell_run _)
    intro x hx
    obtain ⟨v, -, hv⟩ := exists_of_mem_right hdepicts.flip hx
    exact within_of_plain hv ∅
  exact ⟨_, w', (ask_run rfl hbody).trans hconvert, .of_adds hc rfl hadds rfl⟩

/-- A plain argument becomes a new object, which none of the items is. -/
theorem readPlain_run
    (hc : w.store.Carries o c)
    {v : Value}
    (hv : v.plain?.isSome = true) :
    ∃ x w', readPlain v w = (.ok [x], w') ∧ w.Adds w' ∧ x.id < w'.store.size ∧
      w'.store.Depicts x v ∧ ∃ items, w'.store.payload o = c.kind.wrap items ∧
        List.Forall₂ (fun y u => y.id < w'.store.size ∧ w'.store.Depicts y u) items c.values ∧
          w'.store.hasEqual items x = c.holds v := by
  obtain ⟨⟨t, p⟩, hp⟩ := Option.isSome_iff_exists.1 hv
  obtain ⟨items, hpayload, hitems⟩ := hc.items
  let x := (w.store.alloc t p).1
  let w' : World := { w with store := (w.store.alloc t p).2 }
  have hadds : w.Adds w' := ⟨rfl, Store.extends_alloc t p⟩
  have hx : w'.store.Depicts x v := Store.depicts_alloc hp
  refine ⟨x, w', by rw [readPlain, hp]; rfl, hadds, Store.lt_size_alloc t p, hx, items,
    (hadds.growth.same o.id hc.bound).trans hpayload, hitems.imp ?_, ?_⟩
  · rintro y u ⟨hlt, hy⟩
    exact ⟨Nat.lt_of_lt_of_le hlt hadds.growth.size_le, hy.extend hlt hadds.growth⟩
  · rw [Store.hasEqual, Collection.holds]
    refine any_of_forall₂ (hitems.imp ?_)
    rintro y u ⟨hlt, hy⟩
    exact Store.valueEq_of_depicts (hy.extend hlt hadds.growth) hx (Nat.ne_of_lt hlt)

theorem asked_contains
    (cand : Candidate)
    (hc : w.store.Carries o c)
    {v : Value}
    (hv : v.plain?.isSome = true) :
    ∃ result w', cand.ask c.kind (.contains v) o w = (result, w') ∧
      Asked c (.contains v) o w result w' := by
  obtain ⟨x, w₁, hread, hadds₁, -, -, items, hpayload, -, hequal⟩ := readPlain_run hc hv
  obtain ⟨r, w₂, hresult, hadds₂, hconvert⟩ :=
    convertResult_create cand (v := .boolean (c.holds v)) rfl w₁
  have hbody : c.kind.body (.contains v) (some o) [x] w₁ = (.ok r, w₂) := by
    have hargument : Builtin.argument [x] 0 w₁ = (.ok x, w₁) := rfl
    show (c.kind.these (some o) >>= fun y => Builtin.argument [x] 0 >>= fun z => get >>= fun w =>
      Builtin.boolResult (w.store.hasEqual y.2 z)) w₁ = _
    rw [bind_run_ok (these_run hpayload), bind_run_ok hargument, bind_run_ok (get_run w₁), hequal]
    exact hresult
  have hadds : w.Adds w₂ := IsTrans.trans _ _ _ hadds₁ hadds₂
  exact ⟨_, w₂, (ask_run (q := .contains v) hread hbody).trans hconvert, .of_adds hc rfl hadds rfl⟩

/-- The body of `add` puts in a new item, unless the collection is a set that holds it. -/
theorem body_add_run
    {items : List Object}
    {x : Object}
    (v : Value)
    (hpayload : w.store.payload o = c.kind.wrap items)
    (hequal : w.store.hasEqual items x = c.holds v) :
    c.kind.body (.add v) (some o) [x] w =
      Builtin.boolResult (c.takes v)
        { w with
          store := w.store.replace o
            (c.kind.wrap (if c.takes v then items ++ [x] else items)) } := by
  obtain ⟨kind, values⟩ := c
  cases kind with
  | list =>
      exact listAdd_run hpayload
  | set =>
      have htakes : Collection.takes ⟨.set, values⟩ v = !w.store.hasEqual items x := by
        rw [hequal]
        rfl
      rw [htakes]
      refine (setAdd_run hpayload).trans ?_
      rw [Store.insertItem]
      cases w.store.hasEqual items x <;> rfl

theorem asked_add
    (cand : Candidate)
    (hc : w.store.Carries o c)
    {v : Value}
    (hv : v.plain?.isSome = true) :
    ∃ result w', cand.ask c.kind (.add v) o w = (result, w') ∧
      Asked c (.add v) o w result w' := by
  obtain ⟨x, w₁, hread, hadds₁, hlt, hx, items, hpayload, hitems, hequal⟩ := readPlain_run hc hv
  have hc₁ : w₁.store.Carries o c := hc.extend hadds₁.growth
  let items' := if c.takes v then items ++ [x] else items
  let w₂ : World := { w₁ with store := w₁.store.replace o (c.kind.wrap items') }
  have hbut : w₁.store.ExtendsBut o.id w₂.store := Store.extendsBut_replace hc₁.bound _
  have hc₂ : w₂.store.Carries o (c.after (.add v)) := by
    refine hc₁.replace Collection.kind_after ?_
    rw [Collection.after]
    show List.Forall₂ _ (if c.takes v then _ else _) _
    split
    · exact List.rel_append hitems (.cons ⟨hlt, hx⟩ .nil)
    · exact hitems
  obtain ⟨r, w₃, hresult, hadds₂, hconvert⟩ :=
    convertResult_create cand (v := .boolean (c.takes v)) rfl w₂
  have hbody : c.kind.body (.add v) (some o) [x] w₁ = (.ok r, w₃) := by
    rw [body_add_run v hpayload hequal]
    exact hresult
  refine ⟨_, w₃, (ask_run (q := .add v) hread hbody).trans hconvert, rfl,
    hadds₂.heap.trans hadds₁.heap, ?_, hc₂.extend hadds₂.growth⟩
  exact ((hadds₁.growth.but o.id).trans hbut).trans (hadds₂.growth.but o.id)

/-- Numbers that are no integers of thirty-two bits are no positions. -/
theorem Collection.valueAt?_of_none
    {index : Number}
    (h : Scalar.integerWithin? (-2147483648) 2147483647 index = none) :
    c.valueAt? index = none := by
  rw [Scalar.integerWithin?, Option.filter_eq_none_iff] at h
  rw [Collection.valueAt?, Option.filter_eq_none_iff.2, Option.bind_none]
  intro i hi hpos
  have hwithin := of_decide_eq_true hpos
  exact h i hi (decide_eq_true (by omega))

theorem Collection.valueAt?_of_some
    {index : Number}
    {i : Int}
    (h : Scalar.integerWithin? (-2147483648) 2147483647 index = some i) :
    c.valueAt? index = if i < 0 then none else c.values[i.toNat]? := by
  rw [Scalar.integerWithin?, Option.filter_eq_some_iff] at h
  obtain ⟨hi, hwithin⟩ := h
  have hwithin := of_decide_eq_true hwithin
  rw [Collection.valueAt?, hi, Option.filter_some]
  by_cases hneg : i < 0
  · have hfalse : ¬decide (0 ≤ i ∧ i < 2 ^ 31) = true := by
      simp [Int.not_le.2 hneg]
    rw [if_pos hneg, if_neg hfalse, Option.bind_none]
  · rw [if_neg hneg, if_pos (decide_eq_true (by omega)), Option.bind_some]

/-- The item at a position that is given as an object. -/
theorem itemAt_run
    {items : List Object}
    {x : Object}
    {i : Int}
    (hpayload : w.store.payload x = .int (Int32.ofInt i))
    {index : Number}
    (hindex : Scalar.integerWithin? (-2147483648) 2147483647 index = some i) :
    ∃ e, (∀ h, e ≠ .notFound h) ∧
      Builtin.itemAt items x w =
        Action.orFail e (if i < 0 then none else items[i.toNat]?) w := by
  have hint : ((Payload.int (Int32.ofInt i)).int?.map Int32.toInt).getD (-1) = i := by
    rw [Scalar.integerWithin?, Option.filter_eq_some_iff] at hindex
    have hwithin := of_decide_eq_true hindex.2
    exact Int32.toInt_ofInt_of_le (by omega) (by omega)
  refine ⟨.invocationFailure ("index " ++ toString i ++ " out of bounds for length " ++
    toString items.length), fun _ => BridgeError.noConfusion, ?_⟩
  rw [Builtin.itemAt, bind_run_ok (Action.payload_run x w), hpayload, hint]

/-- The body of `get` gives an item where the collection has a value, and the one depicts the
other. -/
theorem body_get_run
    (hc : w.store.Carries o c)
    {x : Object}
    {i : Int}
    (hx : w.store.payload x = .int (Int32.ofInt i))
    {index : Number}
    (hindex : Scalar.integerWithin? (-2147483648) 2147483647 index = some i) :
    ∃ e item, (∀ h, e ≠ .notFound h) ∧
      Option.Rel (fun y u => y.id < w.store.size ∧ w.store.Depicts y u) item (c.valueAt? index) ∧
      c.kind.body (.get index) (some o) [x] w = Action.orFail e item w := by
  obtain ⟨items, hpayload, hitems⟩ := hc.items
  obtain ⟨e, he, hitem⟩ := itemAt_run hx hindex
  refine ⟨e, if i < 0 then none else items[i.toNat]?, he, ?_, ?_⟩
  · rw [Collection.valueAt?_of_some hindex]
    split
    · exact .none
    · exact rel_getElem?_of_forall₂ hitems i.toNat
  · have hargument : Builtin.argument [x] 0 w = (.ok x, w) := rfl
    show (c.kind.these (some o) >>= fun y => Builtin.argument [x] 0 >>= fun z =>
      Builtin.itemAt y.2 z) w = _
    rw [bind_run_ok (these_run hpayload), bind_run_ok hargument]
    exact hitem

theorem asked_get
    (cand : Candidate)
    (hc : w.store.Carries o c)
    (index : Number) :
    ∃ result w', cand.ask c.kind (.get index) o w = (result, w') ∧
      Asked c (.get index) o w result w' := by
  cases hindex : Scalar.integerWithin? (-2147483648) 2147483647 index with
  | none =>
      have hread : Question.read (.get index) w =
          (.error (.failed (.conversion (index.display ++ " is not a " ++ "int"))), w) := by
        rw [Question.read, Scalar.readInt_number, hindex]
        rfl
      refine ⟨_, w, bind_run_error hread, .of_adds hc rfl (.refl w) ?_⟩
      rw [Collection.Replies, Collection.answer?, Collection.valueAt?_of_none hindex]
      exact ⟨_, rfl, fun _ => BridgeError.noConfusion⟩
  | some i =>
      let x := (w.store.alloc .int (.int (Int32.ofInt i))).1
      let w' : World := { w with store := (w.store.alloc .int (.int (Int32.ofInt i))).2 }
      have hadds : w.Adds w' := ⟨rfl, Store.extends_alloc .int (.int (Int32.ofInt i))⟩
      have hread : Question.read (.get index) w = (.ok [x], w') := by
        rw [Question.read, Scalar.readInt_number, hindex]
        rfl
      have hpayload : w'.store.payload x = .int (Int32.ofInt i) := Store.payload_alloc _ _
      obtain ⟨e, item, he, hrel, hbody⟩ := body_get_run (hc.extend hadds.growth) hpayload hindex
      cases hvalue : c.valueAt? index with
      | some u =>
          rw [hvalue] at hrel
          cases hrel with
          | some hy =>
              refine ⟨_, w', (ask_run (q := .get index) hread hbody).trans
                (cand.convertResult_of_depicts hy.2), .of_adds hc rfl hadds ?_⟩
              rw [Collection.Replies, Collection.answer?, hvalue]
      | none =>
          rw [hvalue] at hrel
          cases hrel
          refine ⟨_, w', ask_run_failed (q := .get index) hread hbody, .of_adds hc rfl hadds ?_⟩
          rw [Collection.Replies, Collection.answer?, hvalue]
          exact ⟨e, rfl, he⟩

/-- Every question gets the answer of the collection. -/
theorem asked
    (cand : Candidate)
    (hc : w.store.Carries o c)
    (h : c.kind.Answers q) :
    ∃ result w', cand.ask c.kind q o w = (result, w') ∧ Asked c q o w result w' := by
  cases q with
  | add v =>
      exact asked_add cand hc (by cases hkind : c.kind <;> rw [hkind] at h <;> exact h)
  | contains v =>
      exact asked_contains cand hc (by cases hkind : c.kind <;> rw [hkind] at h <;> exact h)
  | size =>
      exact asked_size cand hc
  | isEmpty =>
      exact asked_isEmpty cand hc
  | toArray =>
      exact asked_toArray cand hc
  | get index =>
      exact asked_get cand hc index

end Questions

/-- The call of a question's method gives the answer, or says that no attempt has succeeded. -/
theorem invokeMember_asked
    (hattempt : cand.attempt standardCatalog (some o) q.args .simplest =
      Action.guarded cand.method.display (cand.ask c.kind q o))
    (hrun : cand.ask c.kind q o w = (result, w'))
    (hreplies : c.Replies q result) :
    invokeMember standardCatalog c.kind.type q.member (some o) q.args .simplest [cand] w =
      ((c.answer? q).elim
        (.error (.failed (.noSuccessfulOverload c.kind.type.display q.member q.args.length 1))) .ok,
        w') := by
  rw [Collection.Replies] at hreplies
  cases hanswer : c.answer? q with
  | some v =>
      rw [hanswer] at hreplies
      refine invokeMember_of_first c.kind.type q.member ?_ []
      rw [hattempt, Action.guarded_run_ok, hrun, hreplies]
  | none =>
      rw [hanswer] at hreplies
      obtain ⟨e, rfl, he⟩ := hreplies
      have hfailed : cand.attempt standardCatalog (some o) q.args .simplest w =
          (.error (.failed e), w') := by
        rw [hattempt, Action.guarded, tryCatch_run, hrun]
        rfl
      have hfalls : Candidate.Falls standardCatalog (some o) q.args .simplest [cand] w :=
        Candidate.falls_cons.2
          ⟨⟨e, congrArg Prod.fst hfailed, he⟩, Candidate.falls_nil⟩
      rw [invokeMember_of_falls c.kind.type q.member hfalls, Candidate.worldAfter_cons, hfailed]
      rfl

end Asking

end CellBridge
