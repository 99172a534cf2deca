import CellBridge.Proofs.Conversion.EntryPoints
import CellBridge.Proofs.Conversion.Layout
import CellBridge.Proofs.Conversion.PlainCells
import CellBridge.Proofs.Conversion.RoundTrip

/-!
# From rows to objects and back

A row whose cells are plain or rows again is read as a sequence, and this sequence is written as the
row.  Reading goes by the shapes of the cells and writing by the types of the objects, so one object
is followed through both: it `Mirrors` the value that it was read from if it is written as this
value.  The proof is by induction on the nesting of the rows.

A blank row shows no cells, like a row without any (`shownCells`), and a column shows the same cells
as the row; so both are read as the same sequence.  `rows_come_back` says this for the bridge.
-/

namespace CellBridge

section Defs

/-- A plain value, or a row of such values. -/
inductive Value.RowCell : Value → Prop
  | plain
      {v : Value}
      {t : Ty}
      {p : Payload}
      (h : v.plain? = some (t, p)) :
      RowCell v
  | row
      {cells : List Value}
      (h : ∀ c ∈ cells, RowCell c) :
      RowCell (.array (gridOfRow cells))

/-- Now and when there are more objects, the object is written as the value. -/
structure Store.Mirrors
    (s : Store)
    (o : Object)
    (v : Value) : Prop where
  within : o.type.Within ∅
  written : ∀ n w, v.depth ≤ n → s.Extends w.store → writeCell n o w = (.ok v, w)

/-- The value is read as an object that mirrors it, the same one at every nesting. -/
structure Value.Arrives
    (v : Value)
    (w : World)
    (o : Object)
    (w' : World) : Prop where
  read : ∀ n, v.depth < n →
    Sequence.readCell (standardCatalog.conversions n) .any v w = (.ok o, w')
  adds : w.Adds w'
  depth : v.depth ≤ w'.store.size
  mirrors : w'.store.Mirrors o v

/-- The cells are read as objects that mirror them. -/
structure Value.LineArrives
    (cells : List Value)
    (w : World)
    (items : List Object)
    (w' : World) : Prop where
  read : ∀ n, (∀ c ∈ cells, c.depth < n) →
    Sequence.readLine (standardCatalog.conversions n) .any cells w = (.ok items, w')
  adds : w.Adds w'
  depth : ∀ c ∈ cells, c.depth ≤ w'.store.size
  mirrors : List.Forall₂ w'.store.Mirrors items cells

/-- Where `t` is wanted, lines are read as sequences of the type `u`, which are written as rows. -/
structure RowsAt
    (t u : Ty)
    (wrap : List Object → Payload) : Prop where
  read : ∃ r, standardCatalog.findByShape? .array t = some r ∧
    ∀ cx v, r.toManaged cx t v = do
      let cells ← Sequence.lineOf t v
      Action.create u (wrap (← Sequence.readLine cx .any cells))
  written : ∃ what items?, (∀ items, items? (wrap items) = some items) ∧
    ∀ cx id, (writerRule u).toCell cx ⟨u, id⟩ = do
      let items ← Sequence.itemsOf what items? ⟨u, id⟩
      return Sequence.rowValue (← Sequence.writeItems cx .any items)
  within : u.Within ∅

end Defs

section Depth

open Value

variable {k : Nat}

theorem cellsDepth_le
    {cells : List Value}
    (h : ∀ c ∈ cells, c.depth ≤ k) :
    cellsDepth cells ≤ k := by
  induction cells with
  | nil =>
      exact Nat.zero_le k
  | cons c cells ih =>
      obtain ⟨hc, hcells⟩ := List.forall_mem_cons.1 h
      exact Nat.max_le.2 ⟨hc, ih hcells⟩

theorem rowsDepth_le
    {rows : List (List Value)}
    (h : ∀ row ∈ rows, ∀ c ∈ row, c.depth ≤ k) :
    rowsDepth rows ≤ k := by
  induction rows with
  | nil =>
      exact Nat.zero_le k
  | cons row rows ih =>
      obtain ⟨hrow, hrows⟩ := List.forall_mem_cons.1 h
      exact Nat.max_le.2 ⟨cellsDepth_le hrow, ih hrows⟩

/-- A row is nested at most one deeper than the cells that it shows. -/
theorem depth_gridOfRow_le
    {cells : List Value}
    (h : ∀ c ∈ shownCells cells, c.depth ≤ k) :
    (Value.array (gridOfRow cells)).depth ≤ k + 1 := by
  have hrows : rowsDepth (gridOfRow cells).rows ≤ k := by
    refine rowsDepth_le ?_
    intro row hrow c hc
    rcases mem_gridOfRows hrow hc with rfl | ⟨r, hr, hcr⟩
    · exact Nat.zero_le k
    · rw [List.mem_singleton.1 hr] at hcr
      rcases mem_shownCells hcr with rfl | hshown
      · exact Nat.zero_le k
      · exact h c hshown
  rw [depth, gridDepth.eq_def]
  exact Nat.succ_le_succ hrows

end Depth

section Rules

theorem rowsAt_any :
    RowsAt .any (.array .any) .array := by
  exact ⟨⟨Sequence.array, rfl, fun _ _ => rfl⟩, ⟨_, _, fun _ => rfl, fun _ _ => rfl⟩, trivial⟩

theorem rowsAt_array :
    RowsAt (.array .any) (.array .any) .array := by
  exact ⟨⟨Sequence.array, rfl, fun _ _ => rfl⟩, ⟨_, _, fun _ => rfl, fun _ _ => rfl⟩, trivial⟩

theorem rowsAt_list :
    RowsAt (.list .any) (.list .any) .list := by
  exact ⟨⟨Sequence.list, rfl, fun _ _ => rfl⟩, ⟨_, _, fun _ => rfl, fun _ _ => rfl⟩, trivial⟩

end Rules

section Arrivals

variable {t u : Ty} {wrap : List Object → Payload} {cells : List Value} {items : List Object}
  {w w' : World}

/-- An object goes on to mirror its value while the store grows. -/
theorem Store.Mirrors.extend
    {s s' : Store}
    {o : Object}
    {v : Value}
    (h : s.Mirrors o v)
    (hs : s.Extends s') :
    s'.Mirrors o v := by
  exact ⟨h.within, fun n w hn hw => h.written n w hn (hs.trans hw)⟩

/-- A plain value arrives. -/
theorem Value.arrives_of_plain
    {v : Value}
    {p : Payload}
    (h : v.plain? = some (t, p))
    (w : World) :
    ∃ o w', v.Arrives w o w' := by
  obtain ⟨r, hr, hread⟩ := exists_reader_of_plain h
  have hdepth := depth_of_plain h
  have hdepicts : (w.store.alloc t p).2.Depicts (w.store.alloc t p).1 v := Store.depicts_alloc h
  have hlt : (w.store.alloc t p).1.id < (w.store.alloc t p).2.size := by
    simp [Store.alloc, Store.size]
  have hadds : w.Adds { w with store := (w.store.alloc t p).2 } := ⟨rfl, Store.extends_alloc t p⟩
  refine ⟨_, _, ?_, hadds, by omega, within_of_plain hdepicts ∅, ?_⟩
  · intro n hn
    obtain ⟨m, rfl⟩ := Nat.exists_eq_succ_of_ne_zero (Nat.ne_zero_of_lt hn)
    rw [readCell_of_rule hr, hread]
    exact Action.create_run t p w
  · intro n w' _ hw'
    exact (hdepicts.extend hlt hw').writeCell_run n

/-- Cells arrive one after the other. -/
theorem Value.exists_lineArrives
    (h : ∀ c ∈ cells, ∀ w, ∃ o w', c.Arrives w o w')
    (w : World) :
    ∃ items w', LineArrives cells w items w' := by
  induction cells generalizing w with
  | nil =>
      exact ⟨[], w, fun _ _ => rfl, .refl w, fun _ hc => absurd hc List.not_mem_nil, .nil⟩
  | cons c cells ih =>
      obtain ⟨hhead, htail⟩ := List.forall_mem_cons.1 h
      obtain ⟨o, w₁, harrives⟩ := hhead w
      obtain ⟨items, w₂, hline⟩ := ih htail w₁
      have hsize := hline.adds.growth.size_le
      refine ⟨o :: items, w₂, ?_, trans_of World.Adds harrives.adds hline.adds, ?_,
        .cons (harrives.mirrors.extend hline.adds.growth) hline.mirrors⟩
      · intro n hn
        obtain ⟨hc, hcells⟩ := List.forall_mem_cons.1 hn
        have hrest := hline.read n hcells
        rw [Sequence.readLine_eq_mapM] at hrest ⊢
        rw [List.mapM_cons, bind_run_ok (harrives.read n hc), bind_run_ok hrest]
        rfl
      · exact List.forall_mem_cons.2 ⟨harrives.depth.trans hsize, hline.depth⟩

/-- A sequence of objects that mirror the cells is written as the row of these cells. -/
theorem RowsAt.writeCell_run
    (hrule : RowsAt t u wrap)
    {id : Nat}
    (hpayload : w.store.payload ⟨u, id⟩ = wrap items)
    (hwithin : ∀ x ∈ items, x.type.Within ∅)
    {n : Nat}
    (hitems : List.Forall₂ (fun x c => writeCell n x w = (.ok c, w)) items cells) :
    writeCell (n + 1) ⟨u, id⟩ w = (.ok (Sequence.rowValue cells), w) := by
  obtain ⟨what, items?, hwrap, hwrite⟩ := hrule.written
  rw [writeCell, hwrite, bind_run_ok (itemsOf_run (hpayload ▸ hwrap items)),
    bind_run_ok (writeItems_run_of_forall₂ hwithin hitems)]
  rfl

/-- A sequence of objects that mirror the cells of a row mirrors the row. -/
theorem RowsAt.mirrors
    (hrule : RowsAt t u wrap)
    {s : Store}
    {id : Nat}
    (hlt : id < s.size)
    (hpayload : s.payload ⟨u, id⟩ = wrap items)
    (hitems : List.Forall₂ s.Mirrors items (Value.shownCells cells)) :
    s.Mirrors ⟨u, id⟩ (.array (Value.gridOfRow cells)) := by
  refine ⟨hrule.within, ?_⟩
  intro n w hn hw
  obtain ⟨m, rfl⟩ := Nat.exists_eq_succ_of_ne_zero (Nat.ne_zero_of_lt hn)
  have hpayload' : w.store.payload ⟨u, id⟩ = wrap items := (hw.same id hlt).trans hpayload
  rw [← rowValue_shownCells]
  refine hrule.writeCell_run hpayload' ?_ ?_
  · intro x hx
    obtain ⟨c, -, hc⟩ := exists_of_mem_right hitems.flip hx
    exact hc.within
  · have hdepth : ∀ c ∈ Value.shownCells cells, c.depth ≤ m := by
      intro c hc
      have hlt := Value.depth_lt_of_hasCell ((isLine_gridOfRow cells).hasCell hc)
      omega
    refine .flip (((List.forall₂_and_left _ _).2 ⟨hdepth, hitems.flip⟩).imp ?_)
    rintro c x ⟨hc, hx⟩
    exact hx.written m w hc hw

/-- Where rows are read as sequences, a line of cells that arrive is read as a sequence of them. -/
theorem RowsAt.exists_read
    (hrule : RowsAt t u wrap)
    (harrives : Value.LineArrives (Value.shownCells cells) w items w') :
    ∃ r, standardCatalog.findByShape? .array t = some r ∧
      ∀ v n, v.IsLine (Value.shownCells cells) → v.depth ≤ n →
        r.toManaged (standardCatalog.conversions n) t v w = Action.create u (wrap items) w' := by
  obtain ⟨r, hr, hread⟩ := hrule.read
  refine ⟨r, hr, ?_⟩
  intro v n hline hn
  have hcells : ∀ c ∈ Value.shownCells cells, c.depth < n := by
    intro c hc
    exact Nat.lt_of_lt_of_le (Value.depth_lt_of_hasCell (hline.hasCell hc)) hn
  rw [hread, bind_run_ok (hline.lineOf_run t w), bind_run_ok (harrives.read n hcells)]

/-- The cells of a row are read first, and then the sequence of them is made. -/
theorem RowsAt.exists_arrival
    (hrule : RowsAt t u wrap)
    (h : ∀ c ∈ cells, ∀ w, ∃ o w', c.Arrives w o w')
    (w : World) :
    ∃ o w', w.Adds w' ∧ (Value.array (Value.gridOfRow cells)).depth ≤ w'.store.size ∧
      w'.store.Mirrors o (.array (Value.gridOfRow cells)) ∧ o.type = u ∧
      ∃ r, standardCatalog.findByShape? .array t = some r ∧
        ∀ v n, v.IsLine (Value.shownCells cells) → v.depth ≤ n →
          r.toManaged (standardCatalog.conversions n) t v w = (.ok o, w') := by
  obtain ⟨items, w₁, hline⟩ :=
    Value.exists_lineArrives (fun c hc => h c (mem_of_mem_shownCells hc)) w
  obtain ⟨r, hr, hread⟩ := hrule.exists_read hline
  let o := (w₁.store.alloc u (wrap items)).1
  let w' : World := { w₁ with store := (w₁.store.alloc u (wrap items)).2 }
  have hgrowth : w₁.Adds w' := ⟨rfl, Store.extends_alloc u (wrap items)⟩
  have hsize : w'.store.size = w₁.store.size + 1 := Array.size_push _
  refine ⟨o, w', trans_of World.Adds hline.adds hgrowth, ?_, ?_, rfl, r, hr, ?_⟩
  · rw [hsize]
    exact depth_gridOfRow_le hline.depth
  · refine hrule.mirrors ?_ (Store.payload_alloc u (wrap items)) ?_
    · rw [hsize]
      exact Nat.lt_succ_self _
    · exact hline.mirrors.imp fun _ _ hx => hx.extend hgrowth.growth
  · intro v n hv hn
    rw [hread v n hv hn]
    exact Action.create_run u (wrap items) w₁

/-- A row whose cells arrive does so, too. -/
theorem Value.arrives_row
    (h : ∀ c ∈ cells, ∀ w, ∃ o w', c.Arrives w o w')
    (w : World) :
    ∃ o w', (Value.array (gridOfRow cells)).Arrives w o w' := by
  obtain ⟨o, w', hadds, hdepth, hmirrors, -, r, hr, hread⟩ := rowsAt_any.exists_arrival h w
  refine ⟨o, w', ?_, hadds, hdepth, hmirrors⟩
  intro n hn
  obtain ⟨m, rfl⟩ := Nat.exists_eq_succ_of_ne_zero (Nat.ne_zero_of_lt hn)
  rw [readCell_of_rule (v := .array (gridOfRow cells)) hr]
  exact hread _ m (isLine_gridOfRow cells) (Nat.le_of_lt_succ hn)

/-- Plain values and rows arrive. -/
theorem Value.RowCell.arrives
    {v : Value}
    (h : v.RowCell) :
    ∀ w, ∃ o w', v.Arrives w o w' := by
  induction h with
  | plain h =>
      exact arrives_of_plain h
  | row _ ih =>
      exact arrives_row ih

end Arrivals

section Bridges

variable {b : Bridge} {cells : List Value}

/-- Where rows are read as sequences, they come back through the bridge. -/
theorem RowsAt.there_and_back
    (hb : b.catalog = standardCatalog)
    {t u : Ty}
    {wrap : List Object → Payload}
    (hrule : RowsAt t u wrap)
    (hcells : ∀ c ∈ cells, c.RowCell)
    (w : World) :
    ∃ o w', b.toManaged (.array (Value.gridOfRow cells)) t w = (.ok o, w') ∧
      b.toManaged (.array (Value.gridOfColumn cells)) t w = (.ok o, w') ∧
      w.Adds w' ∧ o.type = u ∧ b.toCell o w' = (.ok (.array (Value.gridOfRow cells)), w') := by
  obtain ⟨o, w', hadds, hdepth, hmirrors, htype, r, hr, hread⟩ :=
    hrule.exists_arrival (fun c hc => (hcells c hc).arrives) w
  have hline : ∀ g, (Value.array g).IsLine (Value.shownCells cells) →
      b.toManaged (.array g) t w = (.ok o, w') := by
    intro g hg
    exact toManaged_run_of_rule hb (v := .array g) hr (hread _ _ hg (by omega))
  refine ⟨o, w', hline _ (isLine_gridOfRow cells), hline _ (isLine_gridOfColumn cells), hadds,
    htype, ?_⟩
  rw [Bridge.toCell_standard hb]
  exact Action.guarded_run_ok.2 (hmirrors.written _ _ (Nat.le_succ_of_le hdepth) (.refl _))

/-- A row of plain cells and such rows is read, where any object, an array or a list will do, as a
sequence that is written as this row, and the heap stays as it is.  The column of the same cells is
read as the same sequence. -/
theorem rows_come_back
    (hb : b.catalog = standardCatalog)
    (hcells : ∀ c ∈ cells, c.RowCell)
    (w : World)
    {t : Ty}
    (ht : t = .any ∨ t = .array .any ∨ t = .list .any) :
    ∃ o w', b.toManaged (.array (Value.gridOfRow cells)) t w = (.ok o, w') ∧
      b.toManaged (.array (Value.gridOfColumn cells)) t w = (.ok o, w') ∧
      w'.heap = w.heap ∧ w.store.Extends w'.store ∧ t.accepts o.type = true ∧
      b.toCell o w' = (.ok (.array (Value.gridOfRow cells)), w') := by
  rcases ht with rfl | rfl | rfl
  · obtain ⟨o, w', hrow, hcolumn, hadds, htype, hback⟩ := rowsAt_any.there_and_back hb hcells w
    exact ⟨o, w', hrow, hcolumn, hadds.heap, hadds.growth, rfl, hback⟩
  · obtain ⟨o, w', hrow, hcolumn, hadds, htype, hback⟩ := rowsAt_array.there_and_back hb hcells w
    exact ⟨o, w', hrow, hcolumn, hadds.heap, hadds.growth, by rw [htype]; rfl, hback⟩
  · obtain ⟨o, w', hrow, hcolumn, hadds, htype, hback⟩ := rowsAt_list.there_and_back hb hcells w
    exact ⟨o, w', hrow, hcolumn, hadds.heap, hadds.growth, by rw [htype]; rfl, hback⟩

/-- A shelf mark, an empty slot and a nested row with a negative zero, read as a list. -/
theorem rows_come_back_shelf :
    let b := (Bridge.empty {}).withStandardRules
    let w := (b.newSession 0 .empty).world
    let inner := Value.array (Value.gridOfRow [.number ⟨0x8000000000000000⟩, .boolean true])
    let cells := [.text "A7", .empty, inner, .array (Value.gridOfRow [.empty])]
    ∃ o w', b.toManaged (.array (Value.gridOfRow cells)) (.list .any) w = (.ok o, w') ∧
      b.toManaged (.array (Value.gridOfColumn cells)) (.list .any) w = (.ok o, w') ∧
      w'.heap = w.heap ∧ b.toCell o w' = (.ok (.array (Value.gridOfRow cells)), w') := by
  intro b w inner cells
  have hinner : inner.RowCell := by
    exact .row (List.forall_mem_cons.2 ⟨.plain rfl, List.forall_mem_singleton.2 (.plain rfl)⟩)
  have hblank : (Value.array (Value.gridOfRow [.empty])).RowCell :=
    .row (List.forall_mem_singleton.2 (.plain rfl))
  have hcells : ∀ c ∈ cells, c.RowCell :=
    List.forall_mem_cons.2 ⟨.plain rfl, List.forall_mem_cons.2 ⟨.plain rfl,
      List.forall_mem_cons.2 ⟨hinner, List.forall_mem_singleton.2 hblank⟩⟩⟩
  obtain ⟨o, w', hrow, hcolumn, hheap, -, -, hback⟩ :=
    rows_come_back (b := b) rfl hcells w (t := .list .any) (Or.inr (Or.inr rfl))
  exact ⟨o, w', hrow, hcolumn, hheap, hback⟩

end Bridges

end CellBridge
