import CellBridge.Conversion.Action

/-!
# What actions do to the world

An action is a function of the world.  The equations here say what each of the building blocks
gives and which world it leaves, so that the later proofs about actions need not look at monads.
-/

namespace CellBridge

/-! Steps that can end with a fault, on a state of any kind. -/

section Sequencing

variable {σ α β : Type}

@[simp] theorem pure_run
    (a : α)
    (w : σ) :
    (pure a : ExceptT Fault (StateM σ) α) w = (.ok a, w) := by
  rfl

/-- A step that is followed by another one. -/
theorem bind_run
    (act : ExceptT Fault (StateM σ) α)
    (next : α → ExceptT Fault (StateM σ) β)
    (w : σ) :
    (act >>= next) w =
      match act w with
      | (.ok a, w') => next a w'
      | (.error f, w') => (.error f, w') := by
  show ExceptT.bindCont next (act w).1 (act w).2 = _
  cases act w with
  | mk result w' =>
      cases result <;> rfl

theorem bind_run_ok
    {act : ExceptT Fault (StateM σ) α}
    {next : α → ExceptT Fault (StateM σ) β}
    {a : α}
    {w w' : σ}
    (h : act w = (.ok a, w')) :
    (act >>= next) w = next a w' := by
  rw [bind_run, h]

theorem bind_run_error
    {act : ExceptT Fault (StateM σ) α}
    {next : α → ExceptT Fault (StateM σ) β}
    {f : Fault}
    {w w' : σ}
    (h : act w = (.error f, w')) :
    (act >>= next) w = (.error f, w') := by
  rw [bind_run, h]

/-- Two steps succeed together if the first one does and then the second one. -/
theorem bind_run_eq_ok
    {act : ExceptT Fault (StateM σ) α}
    {next : α → ExceptT Fault (StateM σ) β}
    {b : β}
    {w w' : σ} :
    (act >>= next) w = (.ok b, w') ↔
      ∃ a w₁, act w = (.ok a, w₁) ∧ next a w₁ = (.ok b, w') := by
  rw [bind_run]
  cases hact : act w with
  | mk result w₁ =>
      cases result with
      | ok a =>
          constructor
          · intro h
            exact ⟨a, w₁, rfl, h⟩
          · rintro ⟨_, _, heq, h⟩
            cases heq
            exact h
      | error f =>
          constructor
          · intro h
            cases h
          · rintro ⟨_, _, heq, -⟩
            cases heq

@[simp] theorem throw_run
    (f : Fault)
    (w : σ) :
    (throw f : ExceptT Fault (StateM σ) α) w = (.error f, w) := by
  rfl

@[simp] theorem get_run
    (w : σ) :
    (get : ExceptT Fault (StateM σ) σ) w = (.ok w, w) := by
  rfl

/-- A handler sees the state as the fault left it. -/
theorem tryCatch_run
    (act : ExceptT Fault (StateM σ) α)
    (handler : Fault → ExceptT Fault (StateM σ) α)
    (w : σ) :
    (tryCatch act handler) w =
      match act w with
      | (.ok a, w') => (.ok a, w')
      | (.error f, w') => handler f w' := by
  simp only [tryCatch, tryCatchThe, MonadExceptOf.tryCatch, ExceptT.tryCatch, ExceptT.mk, bind,
    StateT.bind]
  cases act w with
  | mk result w' =>
      cases result <;> rfl

end Sequencing

namespace Action

section Endings

variable {α : Type}

@[simp] theorem fail_run
    (e : BridgeError)
    (w : World) :
    (fail e : Action α) w = (.error (.failed e), w) := by
  rfl

@[simp] theorem panic_run
    (m : Option String)
    (w : World) :
    (panic m : Action α) w = (.error (.panicked m), w) := by
  rfl

@[simp] theorem orFail_some_run
    (e : BridgeError)
    (a : α)
    (w : World) :
    orFail e (some a) w = (.ok a, w) := by
  rfl

@[simp] theorem orFail_none_run
    (e : BridgeError)
    (w : World) :
    (orFail e none : Action α) w = (.error (.failed e), w) := by
  rfl

/-- A guarded action succeeds exactly as the action does. -/
theorem guarded_run_ok
    {what : String}
    {act : Action α}
    {w w' : World}
    {a : α} :
    guarded what act w = (.ok a, w') ↔ act w = (.ok a, w') := by
  rw [guarded, tryCatch_run]
  cases act w with
  | mk result w'' =>
      cases result with
      | ok a' =>
          exact Iff.rfl
      | error f =>
          cases f <;> constructor <;> intro h <;> cases h

end Endings

section Objects

@[simp] theorem payload_run
    (o : Object)
    (w : World) :
    payload o w = (.ok (w.store.payload o), w) := by
  rfl

@[simp] theorem create_run
    (t : Ty)
    (p : Payload)
    (w : World) :
    create t p w =
      (.ok (w.store.alloc t p).1, { w with store := (w.store.alloc t p).2 }) := by
  rfl

/-- A new set takes of equal items the first. -/
theorem createSet_run
    (e : Ty)
    (items : List Object)
    (w : World) :
    createSet e items w =
      (.ok (w.store.alloc (.set e) (.set (w.store.distinct items))).1,
        { w with store := (w.store.alloc (.set e) (.set (w.store.distinct items))).2 }) := by
  rfl

@[simp] theorem replace_run
    (o : Object)
    (p : Payload)
    (w : World) :
    replace o p w = (.ok (), { w with store := w.store.replace o p }) := by
  rfl

@[simp] theorem intern_run
    (o : Object)
    (w : World) :
    intern o w = (.ok (w.heap.intern o).1, { w with heap := (w.heap.intern o).2 }) := by
  rfl

/-- A handle is looked up without any change of the world. -/
theorem resolve_run
    (handle : Handle)
    (w : World) :
    resolve handle w =
      match w.heap.resolve? handle with
      | some o => (.ok o, w)
      | none => (.error (.failed (.notFound handle)), w) := by
  show orFail (.notFound handle) (w.heap.resolve? handle) w = _
  cases w.heap.resolve? handle <;> rfl

end Objects

end Action
end CellBridge
