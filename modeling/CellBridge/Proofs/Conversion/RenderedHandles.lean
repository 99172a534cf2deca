import CellBridge.Proofs.Conversion.Rendering

/-!
# The handles of a rendered object

With the standard rules, rendering an object does no more to the heap than to intern the elements
that are shown as handles, in reading order.  `Bridge.RendersOnce` says this for a list of elements
with their positions: they are all elements of types that are written as handles; they are what the
heap gains, as far as it did not know them; they are where the value has its handles; and rendering
the object again changes nothing.

`Bridge.rendering_interns` is about every object that has no cycles and carries no cell values.
-/

namespace CellBridge

/-- Rendering the object interns the elements listed, in reading order, and shows exactly these as
handles, which lead to them afterwards.  None of a type that is written as a handle is left out.
Another time the result is the same. -/
structure Bridge.RendersOnce
    (b : Bridge)
    (o : Object)
    (w : World)
    (shown : List (Position × Object)) : Prop where
  placed : ∀ e ∈ shown, w.store.elementAt? o e.1 = some e.2
  boxed : ∀ e ∈ shown, e.2.type.isBoxed = true
  ordered : shown.Pairwise fun e e' => Position.Before e.1 e'.1
  complete : ∀ v, (b.toCell o w).1 = .ok v → ∀ p x, w.store.elementAt? o p = some x →
    x.type.isBoxed = true → (p, x) ∈ shown
  interned : (b.toCell o w).2 = { w with heap := w.heap.internAll (shown.map Prod.snd) }
  grown : ∀ n, w.heap.Coherent n →
    n + (w.heap.newcomers (shown.map Prod.snd)).length < UInt64.size →
      (b.toCell o w).2.heap = w.heap.grown (w.heap.newcomers (shown.map Prod.snd))
  handles : ∀ v, (b.toCell o w).1 = .ok v → ∀ p k, v.cellAt? p = some (.handle k) ↔
    ∃ x, (p, x) ∈ shown ∧ (b.toCell o w).2.heap.handleOf? x = some k
  live : ∀ n, w.heap.Coherent n →
    n + (w.heap.newcomers (shown.map Prod.snd)).length < UInt64.size →
      ∀ v, (b.toCell o w).1 = .ok v → ∀ p k, v.cellAt? p = some (.handle k) →
        ∃ x y, w.store.elementAt? o p = some x ∧
          (b.toCell o w).2.heap.resolve? k = some y ∧ Store.sameIdentity x y = true
  again : b.toCell o (b.toCell o w).2 = b.toCell o w
  succeeds : w.store.Throughout w.store.Suits o → ∃ v, (b.toCell o w).1 = .ok v

/-- Where a sketch has handles, the value has those that the heap knows in the end. -/
theorem Store.Sketched.cellAt?_iff
    {o : Object}
    {w : World}
    {sk : Sketch Value}
    (hsketched : w.store.Sketched o sk)
    (huntagged : w.store.Throughout w.store.Untagged o)
    {v : Value}
    (hv : (sk.run w).1 = .ok v)
    (p : Position)
    (k : Handle) :
    v.cellAt? p = some (.handle k) ↔
      ∃ x, (p, x) ∈ sk.shown ∧ (sk.run w).2.heap.handleOf? x = some k := by
  obtain ⟨give, hgive, rfl⟩ := Sketch.exists_of_run_ok hv
  rw [hsketched.handles huntagged give hgive]
  refine exists_congr fun x => and_congr_right fun hx => ?_
  exact Heap.handleOf_internAll_eq_iff (List.mem_map.2 ⟨(p, x), hx, rfl⟩)

namespace Bridge

/-- Rendering an object without cycles and without carried cell values interns its elements that
are shown as handles, once and for all. -/
theorem rendering_interns
    {b : Bridge}
    (hb : b.catalog = standardCatalog)
    {classes : Set ManagedClass}
    (hclasses : DeterminedByName classes)
    {o : Object}
    {w : World}
    (hacyclic : w.store.AcyclicFrom o)
    (hwithin : w.store.Throughout (fun x => x.type.Within classes) o)
    (huntagged : w.store.Throughout w.store.Untagged o) :
    ∃ shown, b.RendersOnce o w shown := by
  obtain ⟨sk, hdescribes, hsketched⟩ := shows_toCell hb hclasses hacyclic hwithin
  have hrun : b.toCell o w = sk.run w := hdescribes.run w rfl
  have hhandles : ∀ v, (b.toCell o w).1 = .ok v → ∀ p k, v.cellAt? p = some (.handle k) ↔
      ∃ x, (p, x) ∈ sk.shown ∧ (b.toCell o w).2.heap.handleOf? x = some k := by
    rw [hrun]
    exact fun v hv => hsketched.cellAt?_iff huntagged hv
  refine ⟨sk.shown, ?_⟩
  constructor
  case placed =>
    exact hsketched.placed
  case boxed =>
    exact hsketched.boxed
  case ordered =>
    exact hsketched.ordered
  case complete =>
    intro v hv
    rw [hrun] at hv
    obtain ⟨give, hgive, -⟩ := Sketch.exists_of_run_ok hv
    exact hsketched.complete huntagged give hgive
  case interned =>
    rw [hrun]
    rfl
  case grown =>
    intro n hc hn
    rw [hrun]
    exact (hc.internAll hn).1
  case handles =>
    exact hhandles
  case live =>
    intro n hc hn v hv p k hk
    obtain ⟨x, hx, hknown⟩ := (hhandles v hv p k).1 hk
    rw [hrun] at hknown ⊢
    obtain ⟨y, hy, hid⟩ := (hc.internAll hn).2.resolve?_of_handleOf? hknown
    exact ⟨x, y, hsketched.placed (p, x) hx, hy, hid⟩
  case again =>
    exact hdescribes.again rfl
  case succeeds =>
    intro hsuits
    obtain ⟨v, heap, hok⟩ := (shows_toCell hb hclasses hacyclic hwithin).run_ok hsuits
    rw [hok]
    exact ⟨v, rfl⟩

/-- A cupboard in which one bell is there several times. -/
theorem rendering_interns_cupboard :
    let b := (Bridge.empty {}).withStandardRules
    let w : World := { store := Store.cupboardStore, heap := Heap.empty 0 1 }
    w.heap.Coherent 0 ∧ ∃ shown, b.RendersOnce Store.cupboard w shown ∧
      ∃ v, (b.toCell Store.cupboard w).1 = .ok v := by
  intro b w
  have hformed := Store.wellFormed_cupboard
  have huntagged : w.store.Throughout w.store.Untagged Store.cupboard := by
    refine Store.throughout_cupboard ?_
    simp only [Store.cupboardItems, List.forall_mem_cons]
    exact ⟨rfl, rfl, rfl, rfl, rfl, rfl, List.forall_mem_nil _⟩
  obtain ⟨shown, hshown⟩ := rendering_interns (b := b) rfl Store.determinedByName_cupboard
    hformed.acyclic hformed.within huntagged
  exact ⟨Heap.coherent_empty 0 1, shown, hshown, hshown.succeeds hformed.suits⟩

/-- Both bells get a handle, in the order in which they come up first. -/
example :
    (((Bridge.empty {}).withStandardRules.toCell Store.cupboard
      { store := Store.cupboardStore, heap := Heap.empty 0 1 }).2.heap.objects.entries.map
        fun e => (e.1, e.2.id)) = [(⟨0⟩, 0), (⟨1⟩, 1)] := by
  rfl

/-- The set is a column in the third cell, and the bell stands second there. -/
example : Store.cupboardStore.elementAt? Store.cupboard [(0, 2), (1, 0)] = some Store.bell := by
  rfl

end Bridge

end CellBridge
