import CellBridge.Proofs.Conversion.ActionRuns
import CellBridge.Proofs.Managed.Containment

/-!
# Contracts of actions

`Ends R act w P` says that the action does not run for ever in the world `w`, that it leads to a
world that is related to `w` by `R`, whether it fails or not, and that its result, if there is
one, satisfies `P` there.

Three relations keep the world sound.  `Grows` is what reading values does: new payloads, the old
ones as they were.  `Renders` is what writing objects does: the store stays as it is.  `Keeps` is
what methods do in general.  `Adds` is reading again, in a world of any kind.
-/

namespace CellBridge

section Worlds

/-- The store is sound, and the heap knows only objects of the store. -/
structure World.Sound
    (w : World) : Prop where
  store : w.store.Sound
  heap : ∀ handle o, w.heap.resolve? handle = some o → w.store.Knows o

/-- The world knows the object. -/
def Known
    (o : Object)
    (w : World) : Prop :=
  w.store.Knows o

/-- The world stays sound. -/
def World.Keeps
    (_w w' : World) : Prop :=
  w'.Sound

/-- The world stays sound, and all payloads stay as they are. -/
structure World.Grows
    (w w' : World) : Prop where
  sound : w'.Sound
  growth : w.store.Extends w'.store

/-- The world stays sound, and the store stays as it is. -/
structure World.Renders
    (w w' : World) : Prop where
  sound : w'.Sound
  store : w'.store = w.store

/-- There are new payloads, and nothing else has changed. -/
structure World.Adds
    (w w' : World) : Prop where
  heap : w'.heap = w.heap
  growth : w.store.Extends w'.store

namespace World

theorem Adds.refl
    (w : World) :
    w.Adds w := by
  exact ⟨rfl, .refl _⟩

theorem Sound.grows
    {w : World}
    (hs : w.Sound) :
    w.Grows w := by
  exact ⟨hs, Store.Extends.refl _⟩

theorem Sound.renders
    {w : World}
    (hs : w.Sound) :
    w.Renders w := by
  exact ⟨hs, rfl⟩

theorem Renders.grows
    {w w' : World}
    (h : w.Renders w') :
    w.Grows w' := by
  refine ⟨h.sound, ?_⟩
  rw [h.store]
  exact Store.Extends.refl _

theorem Grows.knows
    {w w' : World}
    (h : w.Grows w')
    {o : Object}
    (ho : w.store.Knows o) :
    w'.store.Knows o := by
  exact ho.extend h.growth

instance : IsTrans World Keeps where
  trans _ _ _ _ h := h

instance : IsTrans World Grows where
  trans _ _ _ h h' := ⟨h'.sound, h.growth.trans h'.growth⟩

instance : IsTrans World Renders where
  trans _ _ _ h h' := ⟨h'.sound, h'.store.trans h.store⟩

instance : IsTrans World Adds where
  trans _ _ _ h h' := ⟨h'.heap.trans h.heap, h.growth.trans h'.growth⟩

end World

end Worlds

/-- The action ends, related to the start by `R`, and its result satisfies `P`. -/
structure Ends
    {α : Type}
    (R : World → World → Prop)
    (act : Action α)
    (w : World)
    (P : α → World → Prop) : Prop where
  halts : (act w).1 ≠ .error .diverged
  leads : R w (act w).2
  gives : ∀ a, (act w).1 = .ok a → P a (act w).2

namespace Ends

variable {α β : Type} {R R' : World → World → Prop} {w : World}

section Rules

theorem of_run
    {act : Action α}
    {a : α}
    {w' : World}
    {P : α → World → Prop}
    (hrun : act w = (.ok a, w'))
    (hlead : R w w')
    (hp : P a w') :
    Ends R act w P := by
  refine ⟨?_, ?_, ?_⟩
  · rw [hrun]
    intro h
    cases h
  · rw [hrun]
    exact hlead
  · intro b hb
    rw [hrun] at hb ⊢
    cases hb
    exact hp

theorem of_error
    {act : Action α}
    {f : Fault}
    {w' : World}
    {P : α → World → Prop}
    (hrun : act w = (.error f, w'))
    (hf : f ≠ .diverged)
    (hlead : R w w') :
    Ends R act w P := by
  refine ⟨?_, ?_, ?_⟩
  · rw [hrun]
    intro h
    cases h
    exact hf rfl
  · rw [hrun]
    exact hlead
  · intro b hb
    rw [hrun] at hb
    cases hb

theorem pure
    {a : α}
    {P : α → World → Prop}
    (hw : R w w)
    (hp : P a w) :
    Ends R (Pure.pure a) w P := by
  exact of_run (pure_run a w) hw hp

theorem fail
    {P : α → World → Prop}
    (e : BridgeError)
    (hw : R w w) :
    Ends R (Action.fail e) w P := by
  refine of_error (Action.fail_run e w) ?_ hw
  intro h
  cases h

theorem panic
    {P : α → World → Prop}
    (m : Option String)
    (hw : R w w) :
    Ends R (Action.panic m) w P := by
  refine of_error (Action.panic_run m w) ?_ hw
  intro h
  cases h

theorem orFail
    {x : Option α}
    {P : α → World → Prop}
    (e : BridgeError)
    (hw : R w w)
    (hp : ∀ a, x = some a → P a w) :
    Ends R (Action.orFail e x) w P := by
  cases x with
  | none =>
      exact fail e hw
  | some a =>
      exact pure hw (hp a rfl)

/-- The rule for an action that is followed by another one. -/
theorem bind
    [IsTrans World R]
    {act : Action α}
    {next : α → Action β}
    {P : α → World → Prop}
    {Q : β → World → Prop}
    (hact : Ends R act w P)
    (hnext : ∀ a w', R w w' → P a w' → Ends R (next a) w' Q) :
    Ends R (act >>= next) w Q := by
  obtain ⟨hhalts, hleads, hgives⟩ := hact
  cases hrun : act w with
  | mk result w' =>
      rw [hrun] at hhalts hleads hgives
      cases result with
      | ok a =>
          have hend := hnext a w' hleads (hgives a rfl)
          have heq : (act >>= next) w = next a w' := bind_run_ok hrun
          refine ⟨?_, ?_, ?_⟩
          · rw [heq]
            exact hend.halts
          · rw [heq]
            exact trans_of R hleads hend.leads
          · rw [heq]
            exact hend.gives
      | error f =>
          have heq : (act >>= next) w = (.error f, w') := bind_run_error hrun
          refine of_error heq ?_ hleads
          rintro rfl
          exact hhalts rfl

/-- A weaker contract. -/
theorem mono
    {act : Action α}
    {P Q : α → World → Prop}
    (hact : Ends R act w P)
    (hR : ∀ w', R w w' → R' w w')
    (hP : ∀ a w', R w w' → P a w' → Q a w') :
    Ends R' act w Q := by
  refine ⟨hact.halts, hR _ hact.leads, ?_⟩
  intro a ha
  exact hP a _ hact.leads (hact.gives a ha)

/-- An action that does what another one does in another world. -/
theorem of_eq
    {act act' : Action α}
    {w' : World}
    {P : α → World → Prop}
    (heq : act w = act' w')
    (hact : Ends R act' w' P)
    (hR : ∀ w'', R w' w'' → R' w w'') :
    Ends R' act w P := by
  refine ⟨?_, ?_, ?_⟩
  · rw [heq]
    exact hact.halts
  · rw [heq]
    exact hR _ hact.leads
  · rw [heq]
    exact hact.gives

/-- What is known about the run of the action holds of its result. -/
theorem and_run
    {act : Action α}
    {P Q : α → World → Prop}
    (hact : Ends R act w P)
    (hq : ∀ a w', act w = (.ok a, w') → Q a w') :
    Ends R act w fun a w' => P a w' ∧ Q a w' := by
  refine ⟨hact.halts, hact.leads, ?_⟩
  intro a ha
  exact ⟨hact.gives a ha, hq a _ (Prod.ext ha rfl)⟩

/-- The rule for a handler. -/
theorem tryCatch
    [IsTrans World R]
    {act : Action α}
    {handler : Fault → Action α}
    {P : α → World → Prop}
    (hact : Ends R act w P)
    (hhandler : ∀ f w', R w w' → f ≠ .diverged → Ends R (handler f) w' P) :
    Ends R (MonadExcept.tryCatch act handler) w P := by
  obtain ⟨hhalts, hleads, hgives⟩ := hact
  have heq := tryCatch_run act handler w
  cases hrun : act w with
  | mk result w' =>
      rw [hrun] at hhalts hleads hgives heq
      cases result with
      | ok a =>
          exact of_run heq hleads (hgives a rfl)
      | error f =>
          have hf : f ≠ .diverged := by
            rintro rfl
            exact hhalts rfl
          have hend := hhandler f w' hleads hf
          refine ⟨?_, ?_, ?_⟩
          · rw [heq]
            exact hend.halts
          · rw [heq]
            exact trans_of R hleads hend.leads
          · rw [heq]
            exact hend.gives

/-- A guarded action ends as the action does. -/
theorem guarded
    [IsTrans World R]
    {act : Action α}
    {P : α → World → Prop}
    (what : String)
    (hact : Ends R act w P)
    (hrefl : ∀ w', R w w' → R w' w') :
    Ends R (Action.guarded what act) w P := by
  refine hact.tryCatch ?_
  intro f w' hw' hf
  cases f with
  | failed e =>
      exact of_error (throw_run _ w') hf (hrefl w' hw')
  | panicked m =>
      exact fail _ (hrefl w' hw')
  | diverged =>
      exact absurd rfl hf

end Rules

section Blocks

theorem get
    (hw : R w w) :
    Ends R (MonadState.get : Action World) w fun a w' => a = w ∧ w' = w := by
  exact of_run (get_run w) hw ⟨rfl, rfl⟩

theorem payload
    (o : Object)
    (hw : R w w) :
    Ends R (Action.payload o) w fun p w' => p = w.store.payload o ∧ w' = w := by
  exact of_run (Action.payload_run o w) hw ⟨rfl, rfl⟩

/-- A new object is known from then on. -/
theorem create
    {t : Ty}
    {p : Payload}
    (hs : w.Sound)
    (hfits : t.Fits p)
    (hplain : t.plain = true)
    (hitems : ∀ o ∈ p.items?.getD [], w.store.Knows o) :
    Ends World.Grows (Action.create t p) w Known := by
  have hgrowth : w.store.Extends (w.store.alloc t p).2 := Store.extends_alloc t p
  refine of_run (Action.create_run t p w) ⟨⟨hs.store.alloc t p hitems, ?_⟩, hgrowth⟩
    (Store.knows_alloc t p hfits hplain)
  intro handle o ho
  exact (hs.heap handle o ho).extend hgrowth

theorem createArray
    {e : Ty}
    {items : List Object}
    (hs : w.Sound)
    (hplain : e.plain = true)
    (hitems : ∀ o ∈ items, w.store.Knows o) :
    Ends World.Grows (Action.createArray e items) w Known := by
  exact create hs rfl hplain hitems

theorem createList
    {e : Ty}
    {items : List Object}
    (hs : w.Sound)
    (hplain : e.plain = true)
    (hitems : ∀ o ∈ items, w.store.Knows o) :
    Ends World.Grows (Action.createList e items) w Known := by
  exact create hs rfl hplain hitems

theorem mem_distinct
    {s : Store}
    {items : List Object}
    {o : Object}
    (ho : o ∈ s.distinct items) :
    o ∈ items := by
  have hfold : ∀ (rest found : List Object), o ∈ rest.foldl s.insertItem found →
      o ∈ found ∨ o ∈ rest := by
    intro rest
    induction rest with
    | nil =>
        intro found hmem
        exact Or.inl hmem
    | cons x rest ih =>
        intro found hmem
        rcases ih _ hmem with hfound | hrest
        · rw [Store.insertItem] at hfound
          split at hfound
          · exact Or.inl hfound
          · rcases List.mem_append.1 hfound with hold | hnew
            · exact Or.inl hold
            · rw [List.mem_singleton] at hnew
              exact Or.inr (hnew ▸ List.mem_cons_self)
        · exact Or.inr (List.mem_cons_of_mem x hrest)
  rcases hfold items [] ho with hnil | hmem
  · cases hnil
  · exact hmem

theorem createSet
    {e : Ty}
    {items : List Object}
    (hs : w.Sound)
    (hplain : e.plain = true)
    (hitems : ∀ o ∈ items, w.store.Knows o) :
    Ends World.Grows (Action.createSet e items) w Known := by
  refine (get hs.grows).bind ?_
  rintro _ _ - ⟨rfl, rfl⟩
  refine create hs rfl hplain ?_
  intro o ho
  exact hitems o (mem_distinct ho)

/-- An object that is known may be interned. -/
theorem intern
    {o : Object}
    (hs : w.Sound)
    (ho : w.store.Knows o) :
    Ends World.Renders (Action.intern o) w fun _ _ => True := by
  refine of_run (Action.intern_run o w) ⟨⟨hs.store, ?_⟩, rfl⟩ trivial
  intro handle x hx
  cases hhandle : w.heap.handles.get? o.id with
  | some known =>
      have hsame : (w.heap.intern o).2 = w.heap := by
        rw [Heap.intern, hhandle]
      rw [hsame] at hx
      exact hs.heap handle x hx
  | none =>
      have hobjects : (w.heap.intern o).2.objects =
          w.heap.objects.insert w.heap.nextHandle o := by
        rw [Heap.intern, hhandle]
      rw [Heap.resolve?, hobjects, Table.get?_insert] at hx
      split at hx
      · cases hx
        exact ho
      · exact hs.heap handle x hx

/-- A handle leads to an object that is known. -/
theorem resolve
    (handle : Handle)
    (hs : w.Sound)
    (hw : R w w) :
    Ends R (Action.resolve handle) w Known := by
  have hrun := Action.resolve_run handle w
  cases ho : w.heap.resolve? handle with
  | none =>
      rw [ho] at hrun
      refine of_error hrun ?_ hw
      intro h
      cases h
  | some o =>
      rw [ho] at hrun
      exact of_run hrun hw (hs.heap handle o ho)

end Blocks

end Ends
end CellBridge
