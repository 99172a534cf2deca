import CellBridge.Conversion.Sequence
import CellBridge.Proofs.Conversion.Contracts

/-!
# Elements one by one

The rules for sequences convert elements from left to right and keep the conversion that they used
last.  Keeping it changes nothing: `readLine_eq_mapM` and, as long as equal types have the same
writer, `writeItems_eq_mapM` say that each element is converted as if it stood alone.  `Ends.mapM`
is the contract of such a pass, and `ends_lineOf` says which cells it goes through.

What comes of a pass is compared with what went in pair by pair, by `List.Forall₂`.
-/

namespace CellBridge

section Pairs

variable {α β : Type} {R : α → β → Prop} {xs : List α} {ys : List β}

theorem exists_forall₂
    (h : ∀ x ∈ xs, ∃ y, R x y) :
    ∃ ys, List.Forall₂ R xs ys := by
  induction xs with
  | nil =>
      exact ⟨[], .nil⟩
  | cons x xs ih =>
      obtain ⟨y, hy⟩ := h x List.mem_cons_self
      obtain ⟨ys, hys⟩ := ih fun x hx => h x (List.mem_cons_of_mem _ hx)
      exact ⟨y :: ys, .cons hy hys⟩

/-- Items at the same place in related lists are related. -/
theorem exists_getElem?_of_forall₂
    (h : List.Forall₂ R xs ys)
    {i : Nat}
    {y : β}
    (hy : ys[i]? = some y) :
    ∃ x, xs[i]? = some x ∧ R x y := by
  induction h generalizing i with
  | nil =>
      cases hy
  | cons hhead _ ih =>
      cases i with
      | zero =>
          cases hy
          exact ⟨_, rfl, hhead⟩
      | succ i =>
          exact ih hy

/-- Related lists have related items, or none, at each place. -/
theorem rel_getElem?_of_forall₂
    (h : List.Forall₂ R xs ys)
    (i : Nat) :
    Option.Rel R xs[i]? ys[i]? := by
  induction h generalizing i with
  | nil =>
      exact .none
  | cons hhead _ ih =>
      cases i with
      | zero =>
          exact .some hhead
      | succ i =>
          exact ih i

/-- A test that tells apart no related items holds of one list if it holds of the other. -/
theorem any_of_forall₂
    {f : α → Bool}
    {g : β → Bool}
    (h : List.Forall₂ (fun x y => f x = g y) xs ys) :
    xs.any f = ys.any g := by
  induction h with
  | nil =>
      rfl
  | cons hhead _ ih =>
      rw [List.any_cons, List.any_cons, hhead, ih]

/-- Changing an item may depend on its place. -/
theorem forall₂_mapIdx
    {γ : Type}
    {R : α → γ → Prop}
    {g : Nat → β → γ}
    (h : List.Forall₂ (fun x y => ∀ i, R x (g i y)) xs ys) :
    List.Forall₂ R xs (ys.mapIdx g) := by
  induction ys generalizing xs g with
  | nil =>
      cases h
      exact .nil
  | cons y ys ih =>
      cases h with
      | cons hhead htail =>
          rw [List.mapIdx_cons]
          exact .cons (hhead 0) (ih (htail.imp fun _ _ hR i => hR (i + 1)))

theorem exists_of_mem_right
    (h : List.Forall₂ R xs ys)
    {y : β}
    (hy : y ∈ ys) :
    ∃ x ∈ xs, R x y := by
  obtain ⟨i, hi⟩ := List.mem_iff_getElem?.1 hy
  obtain ⟨x, hx, hR⟩ := exists_getElem?_of_forall₂ h hi
  exact ⟨x, List.mem_of_getElem? hx, hR⟩

end Pairs

namespace Sequence

section Reading

variable {cx : Conversions} {elem : Ty}

/-- Reads a cell that stands alone. -/
def readCell
    (cx : Conversions)
    (elem : Ty)
    (v : Value) : Action Object := do
  let reader ←
    Action.orFail (.noCompatibleConverter v.shape elem.display) (cx.reader? v.shape elem)
  reader elem v

/-- The reader that is kept is the one that would be looked up. -/
theorem readLineFrom_eq_mapM
    (cells : List Value)
    {last : Option (Shape × Reader)}
    (hlast : ∀ s reader, last = some (s, reader) → cx.reader? s elem = some reader) :
    readLineFrom cx elem last cells = cells.mapM (readCell cx elem) := by
  induction cells generalizing last with
  | nil =>
      rfl
  | cons v vs ih =>
      have hfound : ∀ reader, cx.reader? v.shape elem = some reader →
          (do
            let o ← reader elem v
            let os ← readLineFrom cx elem (some (v.shape, reader)) vs
            return o :: os) = (v :: vs).mapM (readCell cx elem) := by
        intro reader hreader
        have hkept : ∀ s reader', some (v.shape, reader) = some (s, reader') →
            cx.reader? s elem = some reader' := by
          rintro s reader' heq
          cases heq
          exact hreader
        rw [List.mapM_cons, readCell, hreader, Action.orFail, pure_bind, ih hkept]
      have hlookup :
          (do
            let reader ← Action.orFail (.noCompatibleConverter v.shape elem.display)
              (cx.reader? v.shape elem)
            let o ← reader elem v
            let os ← readLineFrom cx elem (some (v.shape, reader)) vs
            return o :: os) = (v :: vs).mapM (readCell cx elem) := by
        cases hreader : cx.reader? v.shape elem with
        | none =>
            rw [List.mapM_cons, readCell, hreader]
            rfl
        | some reader =>
            rw [Action.orFail, pure_bind, hfound reader hreader]
      unfold readLineFrom
      dsimp only
      split
      · split
        · rename_i hs
          rw [pure_bind]
          exact hfound _ (hs ▸ hlast _ _ rfl)
        · exact hlookup
      · exact hlookup

theorem readLine_eq_mapM
    (cells : List Value) :
    readLine cx elem cells = cells.mapM (readCell cx elem) := by
  refine readLineFrom_eq_mapM cells ?_
  intro s reader heq
  cases heq

theorem readRows_eq_mapM
    (rows : List (List Value)) :
    readRows cx elem rows = rows.mapM fun row =>
      readLine cx elem (trimRow row) >>= Action.createArray elem := by
  induction rows with
  | nil =>
      rfl
  | cons row rows ih =>
      rw [readRows, List.mapM_cons, ih, bind_assoc]

end Reading

section Writing

variable {cx : Conversions}

/-- The writer that is kept is the one that would be looked up, if equal types have the same
writer. -/
theorem writeItemsFrom_eq_mapM
    {writerFor : Ty → Writer}
    (declared : Ty)
    (items : List Object)
    (hfound : ∀ o ∈ items, cx.writer? o.type = some (writerFor o.type))
    (hsame : ∀ x ∈ items, ∀ y ∈ items, (x.type == y.type) = true →
      writerFor x.type = writerFor y.type)
    {last : Option (Ty × Writer)}
    (hlast : ∀ t writer, last = some (t, writer) → ∀ o ∈ items, (t == o.type) = true →
      writer = writerFor o.type) :
    writeItemsFrom cx declared last items = items.mapM fun o => writerFor o.type o := by
  induction items generalizing last with
  | nil =>
      rfl
  | cons o os ih =>
      have hrest : ∀ (t : Ty) (writer : Writer), writer = writerFor o.type →
          (∀ x ∈ os, (t == x.type) = true → writer = writerFor x.type) →
          (do
            let v ← writer o
            let vs ← writeItemsFrom cx declared (some (t, writer)) os
            return v :: vs) = (o :: os).mapM fun o => writerFor o.type o := by
        rintro t writer hwriter hkept
        have htail : writeItemsFrom cx declared (some (t, writer)) os =
            os.mapM fun o => writerFor o.type o := by
          refine ih (fun x hx => hfound x (List.mem_cons_of_mem o hx)) ?_ ?_
          · exact fun x hx y hy => hsame x (List.mem_cons_of_mem o hx) y (List.mem_cons_of_mem o hy)
          · rintro _ _ ⟨⟩
            exact hkept
        rw [List.mapM_cons, htail, hwriter]
      have hlookup : (o.type, ·) <$> lookupWriter cx declared o.type =
          pure (o.type, writerFor o.type) := by
        rw [lookupWriter, hfound o List.mem_cons_self]
        rfl
      have hnew := hrest o.type (writerFor o.type) rfl fun x hx =>
        hsame o List.mem_cons_self x (List.mem_cons_of_mem o hx)
      unfold writeItemsFrom
      dsimp only
      split
      · split
        · rename_i t writer ht
          rw [pure_bind]
          exact hrest t writer (hlast t writer rfl o List.mem_cons_self ht) fun x hx =>
            hlast t writer rfl x (List.mem_cons_of_mem o hx)
        · rw [hlookup, pure_bind]
          exact hnew
      · rw [hlookup, pure_bind]
        exact hnew

theorem writeItems_eq_mapM
    (writerFor : Ty → Writer)
    (declared : Ty)
    (items : List Object)
    (hfound : ∀ o ∈ items, cx.writer? o.type = some (writerFor o.type))
    (hsame : ∀ x ∈ items, ∀ y ∈ items, (x.type == y.type) = true →
      writerFor x.type = writerFor y.type) :
    writeItems cx declared items = items.mapM fun o => writerFor o.type o := by
  refine writeItemsFrom_eq_mapM declared items hfound hsame ?_
  intro t writer heq
  cases heq

theorem writeRows_eq_mapM
    (declared : Ty)
    (rows : List Object) :
    writeRows cx declared rows = rows.mapM fun o =>
      itemsOf "an array" Payload.array? o >>= writeItems cx declared := by
  induction rows with
  | nil =>
      rfl
  | cons o os ih =>
      rw [writeRows, List.mapM_cons, ih, bind_assoc]

end Writing

end Sequence

namespace Ends

/-- The rule for a pass over a list.  What is known about a result stays true while the pass goes
on. -/
theorem mapM
    {α β : Type}
    {R : World → World → Prop}
    [IsTrans World R]
    {f : α → Action β}
    {P : β → World → Prop}
    {xs : List α}
    {w : World}
    (hrefl : ∀ w', R w w' → R w' w')
    (hstable : ∀ y w' w'', R w' w'' → P y w' → P y w'')
    (hw : R w w)
    (hf : ∀ x ∈ xs, ∀ w', R w w' → Ends R (f x) w' P) :
    Ends R (xs.mapM f) w fun ys w' => ∀ y ∈ ys, P y w' := by
  induction xs generalizing w with
  | nil =>
      refine Ends.pure hw ?_
      intro y hy
      cases hy
  | cons x xs ih =>
      rw [List.mapM_cons]
      refine (hf x List.mem_cons_self w hw).bind ?_
      intro y w₁ hw₁ hy
      have htail := ih (fun w' h => hrefl w' (trans_of R hw₁ h)) (hrefl w₁ hw₁) fun x hx w' h =>
        hf x (List.mem_cons_of_mem _ hx) w' (trans_of R hw₁ h)
      refine htail.bind ?_
      intro ys w₂ hw₂ hys
      refine Ends.pure (hrefl w₂ (trans_of R hw₁ hw₂)) ?_
      intro z hz
      rcases List.mem_cons.1 hz with rfl | hmem
      · exact hstable z w₁ w₂ hw₂ hy
      · exact hys z hmem

end Ends

section Grids

theorem itemsOf_run
    {what : String}
    {items? : Payload → Option (List Object)}
    {o : Object}
    {items : List Object}
    {w : World}
    (h : items? (w.store.payload o) = some items) :
    Sequence.itemsOf what items? o w = (.ok items, w) := by
  rw [Sequence.itemsOf, bind_run_ok (Action.payload_run o w), h]
  rfl

/-- The value is a grid with the given cell. -/
def Value.HasCell
    (v cell : Value) : Prop :=
  ∃ g, v = .array g ∧ ∃ row ∈ g.rows, cell ∈ row

variable {R : World → World → Prop} {w : World}

theorem hasCell_of_line
    {g : Grid Value}
    {cells : List Value}
    (hline : g.line? = some cells)
    {v : Value}
    (hv : v ∈ cells) :
    (Value.array g).HasCell v := by
  refine ⟨g, rfl, ?_⟩
  rw [Grid.line?] at hline
  split at hline
  · exact ⟨cells, List.mem_of_head? hline, hv⟩
  · cases hline
    obtain ⟨row, hrow, hhead⟩ := List.mem_filterMap.1 hv
    exact ⟨row, hrow, List.mem_of_head? hhead⟩
  · cases hline

theorem ends_array?
    (e : BridgeError)
    (v : Value)
    (hw : R w w) :
    Ends R (Action.orFail e v.array?) w fun g w' => w = w' ∧ v = .array g := by
  refine Ends.orFail _ hw ?_
  intro g hg
  cases v <;> cases hg
  exact ⟨rfl, rfl⟩

/-- The cells of a line stand in the grid. -/
theorem ends_lineOf
    [IsTrans World R]
    (target : Ty)
    (v : Value)
    (hw : R w w) :
    Ends R (Sequence.lineOf target v) w fun cells w' => w = w' ∧ ∀ c ∈ cells, v.HasCell c := by
  refine (ends_array? (Sequence.notAnArray v) v hw).bind ?_
  rintro g _ - ⟨rfl, rfl⟩
  split
  · refine Ends.pure hw ⟨rfl, ?_⟩
    intro c hc
    cases hc
  · refine Ends.orFail _ hw ?_
    intro cells hline
    exact ⟨rfl, fun c hc => hasCell_of_line hline hc⟩

theorem mem_trimRow
    {v : Value}
    {row : List Value}
    (hv : v ∈ Sequence.trimRow row) :
    v ∈ row := by
  rw [Sequence.trimRow, List.mem_reverse] at hv
  exact List.mem_reverse.1 ((List.dropWhile_sublist _).mem hv)

end Grids

end CellBridge
