import CellBridge.Proofs.Conversion.ActionRuns
import CellBridge.Proofs.Conversion.Positions
import CellBridge.Proofs.Heap.Interning

/-!
# Sketches of actions

Writing an object reads nothing of the heap but the handles of the objects that it interns itself.
So it can be sketched ahead: a `Sketch` lists the objects that will be interned, with the positions
at which they will be shown, and says what is made of their handles, or how the action fails.

`Describes` ties a sketch to an action on all worlds with a given store.  Sketches are put together
as actions are (`Describes.both`, `Describes.all`), and an action with a sketch repeats itself:
`Describes.again`.
-/

namespace CellBridge

/-- The objects that an action interns, each with the position at which it is shown, and what the
action makes of the handles. -/
structure Sketch (α : Type) where
  shown : List (Position × Object)
  result : Except BridgeError ((Object → Handle) → α)

namespace Sketch

variable {α β γ : Type}

section Defs

/-- The sketch of an action that gives a value at once. -/
def of
    (a : α) : Sketch α :=
  { shown := [], result := .ok fun _ => a }

/-- The sketch of an action that fails at once. -/
def fail
    (e : BridgeError) : Sketch α :=
  { shown := [], result := .error e }

/-- The sketch of an action that gives the handle of an object. -/
def handle
    (o : Object) : Sketch Value :=
  { shown := [([], o)], result := .ok fun handles => .handle (handles o) }

/-- One sketch after the other; what comes after a failure is not done. -/
def both
    (f : α → β → γ)
    (a : Sketch α)
    (b : Sketch β) : Sketch γ :=
  match a.result, b.result with
  | .error e, _ => { shown := a.shown, result := .error e }
  | .ok _, .error e => { shown := a.shown ++ b.shown, result := .error e }
  | .ok give, .ok give' =>
      { shown := a.shown ++ b.shown
        result := .ok fun handles => f (give handles) (give' handles) }

def all : List (Sketch α) → Sketch (List α)
  | [] => of []
  | sk :: sks => both List.cons sk (all sks)

def map
    (f : α → β)
    (sk : Sketch α) : Sketch β :=
  match sk.result with
  | .error e => { shown := sk.shown, result := .error e }
  | .ok give => { shown := sk.shown, result := .ok fun handles => f (give handles) }

/-- A sketch of what is shown in a cell. -/
def below
    (cell : Nat × Nat)
    (sk : Sketch α) : Sketch α :=
  { shown := sk.shown.map fun e => (cell :: e.1, e.2), result := sk.result }

/-- The objects that are interned. -/
def objects
    (sk : Sketch α) : List Object :=
  sk.shown.map Prod.snd

/-- The result, given a heap that knows the objects. -/
def answer
    (sk : Sketch α)
    (h : Heap) : Except Fault α :=
  match sk.result with
  | .error e => .error (.failed e)
  | .ok give => .ok (give h.handleOf)

/-- What the sketch says of a world: the objects are interned, and then there is a result. -/
def run
    (sk : Sketch α)
    (w : World) : Except Fault α × World :=
  let h := w.heap.internAll sk.objects
  (sk.answer h, { w with heap := h })

/-- The action does what the sketch says, in all worlds with the store, and what the sketch makes of
the handles depends on those of the objects that it lists. -/
structure Describes
    (s : Store)
    (sk : Sketch α)
    (act : Action α) : Prop where
  run : ∀ w, w.store = s → act w = sk.run w
  depends : ∀ give, sk.result = .ok give → ∀ f g, (∀ e ∈ sk.shown, f e.2 = g e.2) →
    give f = give g

end Defs

variable {s : Store} {sk : Sketch α} {act : Action α}

section Results

@[simp] theorem shown_map
    (f : α → β)
    (sk : Sketch α) :
    (sk.map f).shown = sk.shown := by
  cases hresult : sk.result <;> simp [map, hresult]

theorem result_map_eq_ok
    {f : α → β}
    {give : (Object → Handle) → β} :
    (sk.map f).result = .ok give ↔
      ∃ give', sk.result = .ok give' ∧ (fun handles => f (give' handles)) = give := by
  cases hresult : sk.result <;> simp [map, hresult]

/-- A value comes from a sketch that does not fail. -/
theorem exists_of_run_ok
    {w : World}
    {a : α}
    (h : (sk.run w).1 = .ok a) :
    ∃ give, sk.result = .ok give ∧ give (w.heap.internAll sk.objects).handleOf = a := by
  simp only [run, answer] at h
  cases hresult : sk.result with
  | error e =>
      rw [hresult] at h
      cases h
  | ok give =>
      rw [hresult] at h
      cases h
      exact ⟨give, rfl, rfl⟩

end Results

section Running

theorem Describes.congr
    {act' : Action α}
    (h : sk.Describes s act)
    (heq : ∀ w, w.store = s → act' w = act w) :
    sk.Describes s act' := by
  exact ⟨fun w hw => (heq w hw).trans (h.run w hw), h.depends⟩

theorem Describes.store
    (h : sk.Describes s act)
    {w : World}
    (hw : w.store = s) :
    (act w).2.store = s := by
  rw [h.run w hw]
  exact hw

/-- A second time nothing new is interned, and the result is the same. -/
theorem Describes.again
    (h : sk.Describes s act)
    {w : World}
    (hw : w.store = s) :
    act (act w).2 = act w := by
  rw [h.run _ (h.store hw), h.run w hw]
  simp only [Sketch.run, Heap.internAll_internAll]

/-- There is no panic to guard against. -/
theorem Describes.guarded_run
    (h : sk.Describes s act)
    (what : String)
    {w : World}
    (hw : w.store = s) :
    Action.guarded what act w = act w := by
  rw [Action.guarded, tryCatch_run, h.run w hw, Sketch.run, answer]
  cases sk.result <;> rfl

end Running

section Single

theorem describes_of
    {a : α}
    (h : ∀ w, w.store = s → act w = (.ok a, w)) :
    (of a).Describes s act := by
  refine ⟨h, ?_⟩
  rintro give ⟨⟩ f g _
  rfl

theorem describes_fail
    {e : BridgeError}
    (h : ∀ w, w.store = s → act w = (.error (.failed e), w)) :
    (fail e).Describes s act := by
  refine ⟨h, ?_⟩
  rintro give ⟨⟩

theorem describes_handle
    {o : Object}
    {act : Action Value}
    (h : ∀ w, w.store = s →
      act w = (.ok (.handle (w.heap.intern o).1), { w with heap := (w.heap.intern o).2 })) :
    (handle o).Describes s act := by
  refine ⟨?_, ?_⟩
  · intro w hw
    rw [h w hw]
    simp [Sketch.run, answer, handle, objects, Heap.handleOf_intern]
  · rintro give ⟨⟩ f g hfg
    exact congrArg Value.handle (hfg ([], o) (List.mem_singleton.2 rfl))

end Single

section Many

/-- What one action and then another one do. -/
theorem Describes.run_both
    {f : α → β → γ}
    {sk' : Sketch β}
    {act' : Action β}
    (h : sk.Describes s act)
    (h' : sk'.Describes s act')
    {w : World}
    (hw : w.store = s) :
    (do
        let a ← act
        let b ← act'
        return f a b) w =
      (both f sk sk').run w := by
  have hsecond : act' { w with heap := w.heap.internAll sk.objects } =
      sk'.run { w with heap := w.heap.internAll sk.objects } := h'.run _ hw
  rw [bind_run, h.run w hw]
  cases hresult : sk.result with
  | error e =>
      simp [Sketch.run, answer, both, hresult, objects]
  | ok give =>
      simp only [Sketch.run, answer, hresult]
      rw [bind_run, hsecond]
      cases hresult' : sk'.result with
      | error e =>
          simp [Sketch.run, answer, both, hresult, hresult', objects, Heap.internAll_append]
      | ok give' =>
          -- the handles that the first action read are the same at the end
          have hkept : give (w.heap.internAll sk.objects).handleOf =
              give ((w.heap.internAll sk.objects).internAll sk'.objects).handleOf := by
            refine h.depends give hresult _ _ ?_
            intro e he
            exact (Heap.handleOf_internAll (List.mem_map.2 ⟨e, he, rfl⟩)).symm
          rw [hkept]
          simp [Sketch.run, answer, both, hresult, hresult', objects, Heap.internAll_append]

/-- Two actions, one after the other. -/
theorem Describes.both
    {f : α → β → γ}
    {sk' : Sketch β}
    {act' : Action β}
    (h : sk.Describes s act)
    (h' : sk'.Describes s act') :
    (both f sk sk').Describes s do
      let a ← act
      let b ← act'
      return f a b := by
  refine ⟨fun w hw => h.run_both h' hw, ?_⟩
  intro give hgive k k' hk
  cases hresult : sk.result with
  | error e =>
      simp [Sketch.both, hresult] at hgive
  | ok first =>
      cases hresult' : sk'.result with
      | error e =>
          simp [Sketch.both, hresult, hresult'] at hgive
      | ok second =>
          simp only [Sketch.both, hresult, hresult', Except.ok.injEq] at hgive hk
          have hfirst := h.depends first hresult k k' fun e he => hk e (List.mem_append_left _ he)
          have hsecond := h'.depends second hresult' k k' fun e he =>
            hk e (List.mem_append_right _ he)
          rw [← hgive]
          exact congrArg₂ f hfirst hsecond

theorem Describes.map
    (h : sk.Describes s act)
    (f : α → β) :
    (sk.map f).Describes s do
      let a ← act
      return f a := by
  refine ⟨?_, ?_⟩
  · intro w hw
    rw [bind_run, h.run w hw]
    cases hresult : sk.result <;> simp [Sketch.run, answer, Sketch.map, hresult, objects]
  · intro give hgive k k' hk
    obtain ⟨first, hfirst, rfl⟩ := result_map_eq_ok.1 hgive
    rw [shown_map] at hk
    exact congrArg f (h.depends first hfirst k k' hk)

theorem Describes.below
    (h : sk.Describes s act)
    (cell : Nat × Nat) :
    (sk.below cell).Describes s act := by
  refine ⟨?_, ?_⟩
  · intro w hw
    rw [h.run w hw]
    simp [Sketch.run, answer, Sketch.below, objects, Function.comp_def]
  · intro give hgive k k' hk
    refine h.depends give hgive k k' ?_
    intro e he
    exact hk (cell :: e.1, e.2) (List.mem_map.2 ⟨e, he, rfl⟩)

/-- A pass over a list. -/
theorem describes_all
    {f : β → Action α}
    {xs : List β}
    {sks : List (Sketch α)}
    (h : List.Forall₂ (fun x sk => sk.Describes s (f x)) xs sks) :
    (all sks).Describes s (xs.mapM f) := by
  induction h with
  | nil =>
      exact describes_of fun _ _ => rfl
  | cons hhead _ ih =>
      rw [List.mapM_cons]
      exact hhead.both ih

end Many

section Shown

/-- Sketches list what their parts list, up to the part that fails. -/
theorem sublist_shown_all
    (sks : List (Sketch α)) :
    (all sks).shown.Sublist (sks.flatMap shown) := by
  induction sks with
  | nil =>
      exact .slnil
  | cons sk sks ih =>
      cases hresult : sk.result with
      | error e =>
          simp [all, both, hresult]
      | ok give =>
          cases hrest : (all sks).result <;> simpa [all, both, hresult, hrest] using ih

/-- Sketches that succeed list all that their parts list, and their results are those of the
parts. -/
theorem all_ok
    {sks : List (Sketch α)}
    {give : (Object → Handle) → List α}
    (h : (all sks).result = .ok give) :
    (all sks).shown = sks.flatMap shown ∧
      ∃ gives, List.Forall₂ (fun sk give => sk.result = .ok give) sks gives ∧
        ∀ f, give f = gives.map fun give => give f := by
  induction sks generalizing give with
  | nil =>
      cases h
      exact ⟨rfl, [], .nil, fun _ => rfl⟩
  | cons sk sks ih =>
      cases hresult : sk.result with
      | error e =>
          simp [all, both, hresult] at h
      | ok first =>
          cases hrest : (all sks).result with
          | error e =>
              simp [all, both, hresult, hrest] at h
          | ok rest =>
              obtain ⟨hshown, gives, hgives, heq⟩ := ih hrest
              simp only [all, both, hresult, hrest, Except.ok.injEq] at h
              subst h
              refine ⟨?_, first :: gives, .cons hresult hgives, ?_⟩
              · simp [all, both, hresult, hrest, hshown]
              · intro f
                simp [heq f]

/-- Sketches succeed if all parts do. -/
theorem all_succeeds
    {sks : List (Sketch α)}
    (h : ∀ sk ∈ sks, ∃ give, sk.result = .ok give) :
    ∃ give, (all sks).result = .ok give := by
  induction sks with
  | nil =>
      exact ⟨_, rfl⟩
  | cons sk sks ih =>
      obtain ⟨first, hfirst⟩ := h sk List.mem_cons_self
      obtain ⟨rest, hrest⟩ := ih fun x hx => h x (List.mem_cons_of_mem sk hx)
      simp [all, both, hfirst, hrest]

end Shown

end Sketch
end CellBridge
