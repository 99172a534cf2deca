import CellBridge.Proofs.Cell.Grids
import CellBridge.Proofs.Conversion.PlainCells
import CellBridge.Proofs.Conversion.RoundTrip
import Mathlib.Data.List.DropRight

/-!
# Areas without blank columns

A grid of plain cells is read as an array of arrays, one for each row, that ends at the last cell of
the row that is not a blank.  Written again, the short rows are filled up to the longest one.  What
comes out is the grid without the columns at its end that hold nothing but blanks: it `Crops` the
grid that went in.  Everything else stays at its place, blanks in front of other cells included, and
a cropped grid comes back as it is.

`Value.crop` is the cropped grid as a function of the rows.  `crops_crop` says what it leaves and
`crop_crop` that there is no more to leave; no other grid crops the same one
(`Value.Crops.eq_crop`).  `exists_jagged_run` says that this is what reading and writing make of a
grid.  What is read is followed through the actions by `Action.Makes`, from the cells to the arrays
of their arrays.
-/

namespace CellBridge

section Defs

/-- The row up to the last cell that is not a blank. -/
structure Value.UsedPart
    (row used : List Value) : Prop where
  rest : ∃ k, row = used ++ List.replicate k .empty
  last : ∀ c ∈ used.getLast?, c ≠ .empty

/-- The grid `g'` is `g` without the columns at the end that hold nothing but blanks. -/
structure Value.Crops
    (g g' : Grid Value) : Prop where
  proper : g'.Proper
  blank : (∀ row ∈ g.rows, ∀ c ∈ row, c = .empty) → g' = blankGrid
  rows : (∃ row ∈ g.rows, ∃ c ∈ row, c ≠ .empty) → g'.rows = g.rows.map (List.take g'.width)
  rest : ∀ row ∈ g.rows, ∀ c ∈ row.drop g'.width, c = .empty
  last : (∃ row ∈ g.rows, ∃ c ∈ row, c ≠ .empty) →
    ∃ row ∈ g.rows, ∃ c, row[g'.width - 1]? = some c ∧ c ≠ .empty

/-- The grid of what the rows hold up to their last cells that are not blanks. -/
def Value.crop
    (g : Grid Value) : Grid Value :=
  gridOfRows (g.rows.map Sequence.trimRow)

/-- The rows that are read as arrays.  A lone blank is no row. -/
def Value.readableRows
    (g : Grid Value) : List (List Value) :=
  if isBlankGrid g then [] else g.rows

/-- Whatever the world is, the action makes an object for which `P` holds and goes on to hold while
the store grows. -/
def Action.Makes
    (act : Action Object)
    (P : Store → Object → Prop) : Prop :=
  ∀ w, ∃ o w', act w = (.ok o, w') ∧ w.Adds w' ∧ ∀ s, w'.store.Extends s → P s o

/-- The object is an array of the element type whose items stand for `xs`, one for each. -/
structure Store.IsArrayOf
    {α : Type}
    (s : Store)
    (e : Ty)
    (P : Object → α → Prop)
    (xs : List α)
    (o : Object) : Prop where
  type : o.type = .array e
  items : ∃ items, s.payload o = .array items ∧ List.Forall₂ P items xs

/-- The object is an array of objects that depict the cells. -/
def Store.DepictsRow
    (s : Store)
    (o : Object)
    (cells : List Value) : Prop :=
  s.IsArrayOf .any s.Depicts cells o

/-- The object is an array of arrays that depict the rows. -/
def Store.DepictsRows
    (s : Store)
    (o : Object)
    (rows : List (List Value)) : Prop :=
  s.IsArrayOf (.array .any) s.DepictsRow rows o

end Defs

section Rows

open Sequence Value

variable {row : List Value} {rows : List (List Value)}

theorem Value.isEmpty_iff
    (v : Value) :
    v.isEmpty = true ↔ v = .empty := by
  cases v <;> simp [isEmpty]

theorem trimRow_eq_rdropWhile
    (row : List Value) :
    trimRow row = row.rdropWhile isEmpty := by
  rfl

/-- What is cut off are blanks. -/
theorem trimRow_append_blanks
    (row : List Value) :
    ∃ k, row = trimRow row ++ List.replicate k .empty := by
  refine ⟨(row.rtakeWhile isEmpty).length, ?_⟩
  have hblanks : row.rtakeWhile isEmpty =
      List.replicate (row.rtakeWhile isEmpty).length .empty := by
    rw [List.eq_replicate_iff]
    refine ⟨rfl, ?_⟩
    intro c hc
    exact (Value.isEmpty_iff c).1 (List.mem_rtakeWhile_imp hc)
  rw [← hblanks, trimRow_eq_rdropWhile, List.rdropWhile_append_rtakeWhile]

/-- Trimming leaves the used part of a row. -/
theorem usedPart_trimRow
    (row : List Value) :
    UsedPart row (trimRow row) := by
  refine ⟨trimRow_append_blanks row, ?_⟩
  intro c hc hempty
  obtain ⟨hne, hlast⟩ := List.mem_getLast?_eq_getLast hc
  refine List.rdropWhile_last_not isEmpty row hne ?_
  exact (Value.isEmpty_iff _).2 (hlast.symm.trans hempty)

theorem length_trimRow_le
    (row : List Value) :
    (trimRow row).length ≤ row.length := by
  obtain ⟨k, hrow⟩ := trimRow_append_blanks row
  have hlength := congrArg List.length hrow
  rw [List.length_append] at hlength
  omega

theorem trimRow_eq_nil_iff :
    trimRow row = [] ↔ ∀ c ∈ row, c = .empty := by
  rw [trimRow_eq_rdropWhile, List.rdropWhile_eq_nil_iff]
  simp only [Value.isEmpty_iff]

/-- Blanks at the end of a row are cut off. -/
theorem trimRow_append_replicate
    (row : List Value)
    (k : Nat) :
    trimRow (row ++ List.replicate k .empty) = trimRow row := by
  induction k with
  | zero =>
      rw [List.replicate_zero, List.append_nil]
  | succ k ih =>
      rw [List.replicate_succ', ← List.append_assoc, trimRow_eq_rdropWhile,
        List.rdropWhile_concat_pos _ _ _ rfl]
      exact ih

theorem trimRow_padRow_trimRow
    (width : Nat)
    (row : List Value) :
    trimRow (Grid.padRow .empty width (trimRow row)) = trimRow row := by
  rw [Grid.padRow, trimRow_append_replicate, trimRow_eq_rdropWhile, trimRow_eq_rdropWhile,
    List.rdropWhile_idempotent]

/-- Cutting blanks off and filling up again shortens a row to the width. -/
theorem padRow_trimRow
    {width : Nat}
    (hused : (trimRow row).length ≤ width)
    (hwidth : width ≤ row.length) :
    Grid.padRow .empty width (trimRow row) = row.take width := by
  obtain ⟨k, hrow⟩ := trimRow_append_blanks row
  have hlength := congrArg List.length hrow
  rw [List.length_append, List.length_replicate] at hlength
  calc Grid.padRow .empty width (trimRow row)
      = (trimRow row).take width ++
          (List.replicate k Value.empty).take (width - (trimRow row).length) := by
        rw [List.take_of_length_le hused, List.take_replicate, Grid.padRow,
          Nat.min_eq_left (by omega)]
    _ = (trimRow row ++ List.replicate k Value.empty).take width := List.take_append.symm
    _ = row.take width := by rw [← hrow]

/-- What lies behind the used part is blank. -/
theorem eq_empty_of_mem_drop
    {width : Nat}
    (hused : (trimRow row).length ≤ width)
    {c : Value}
    (hc : c ∈ row.drop width) :
    c = .empty := by
  obtain ⟨k, hrow⟩ := trimRow_append_blanks row
  rw [hrow, List.drop_append, List.drop_of_length_le hused, List.nil_append] at hc
  exact List.eq_of_mem_replicate (List.mem_of_mem_drop hc)

/-- The last cell of the used part. -/
theorem exists_last_trimRow
    (hne : trimRow row ≠ []) :
    ∃ c, row[(trimRow row).length - 1]? = some c ∧ c ≠ .empty := by
  have hlast := List.getLast?_eq_some_getLast hne
  refine ⟨_, ?_, (usedPart_trimRow row).last _ hlast⟩
  obtain ⟨k, hrow⟩ := trimRow_append_blanks row
  have hpos := List.length_pos_of_ne_nil hne
  have hcell : row[(trimRow row).length - 1]? = (trimRow row)[(trimRow row).length - 1]? :=
    (congrArg (fun cells => cells[(trimRow row).length - 1]?) hrow).trans
      (List.getElem?_append_left (by omega))
  rw [hcell, ← List.getLast?_eq_getElem?]
  exact hlast

theorem Grid.widest_le
    {width : Nat}
    (h : ∀ row ∈ rows, row.length ≤ width) :
    Grid.widest rows ≤ width := by
  induction rows with
  | nil =>
      exact Nat.zero_le width
  | cons row rows ih =>
      obtain ⟨hrow, hrows⟩ := List.forall_mem_cons.1 h
      exact Nat.max_le.2 ⟨hrow, ih hrows⟩

/-- Some row is as long as the widest. -/
theorem Grid.exists_length_eq_widest
    (h : Grid.widest rows ≠ 0) :
    ∃ row ∈ rows, row.length = Grid.widest rows := by
  induction rows with
  | nil =>
      exact absurd rfl h
  | cons row rows ih =>
      have hcons : Grid.widest (row :: rows) = max row.length (Grid.widest rows) := rfl
      rw [hcons] at h ⊢
      rcases Nat.le_total (Grid.widest rows) row.length with hle | hle
      · exact ⟨row, List.mem_cons_self, (Nat.max_eq_left hle).symm⟩
      · rw [Nat.max_eq_right hle] at h ⊢
        obtain ⟨r, hr, hlength⟩ := ih h
        exact ⟨r, List.mem_cons_of_mem row hr, hlength⟩

end Rows

section Cropped

open Sequence Value

variable {g : Grid Value}

theorem rows_crop
    (h : Grid.widest (g.rows.map trimRow) ≠ 0) :
    (crop g).rows = g.rows.map fun row =>
      Grid.padRow .empty (Grid.widest (g.rows.map trimRow)) (trimRow row) := by
  rw [crop, gridOfRows_of_widest h, List.map_map]
  rfl

theorem crop_of_widest
    (h : Grid.widest (g.rows.map trimRow) = 0) :
    crop g = blankGrid := by
  rw [crop, gridOfRows, Grid.ofRows, if_pos h]
  rfl

theorem proper_crop
    (g : Grid Value) :
    (crop g).Proper := by
  exact proper_gridOfRows _

/-- A cropped grid is cropped. -/
theorem crop_crop
    (g : Grid Value) :
    crop (crop g) = crop g := by
  by_cases h : Grid.widest (g.rows.map trimRow) = 0
  · rw [crop_of_widest h]
    rfl
  · have hrows : (crop g).rows.map trimRow = g.rows.map trimRow := by
      rw [rows_crop h, List.map_map]
      exact List.map_congr_left fun row _ => trimRow_padRow_trimRow _ row
    rw [crop, hrows, crop]

/-- Cropping leaves out the blank columns at the end, and nothing else. -/
theorem crops_crop
    (hg : g.Proper) :
    Crops g (crop g) := by
  have hused : ∀ row ∈ g.rows, (trimRow row).length ≤ Grid.widest (g.rows.map trimRow) := by
    intro row hrow
    exact Grid.length_le_widest (List.mem_map_of_mem hrow)
  have hcells : Grid.widest (g.rows.map trimRow) = 0 → ∀ row ∈ g.rows, ∀ c ∈ row, c = .empty := by
    intro h row hrow
    have hle := hused row hrow
    rw [h, Nat.le_zero, List.length_eq_zero_iff] at hle
    exact trimRow_eq_nil_iff.1 hle
  by_cases h : Grid.widest (g.rows.map trimRow) = 0
  · have hnone : ¬ ∃ row ∈ g.rows, ∃ c ∈ row, c ≠ .empty := by
      rintro ⟨row, hrow, c, hc, hne⟩
      exact hne (hcells h row hrow c hc)
    refine ⟨proper_crop g, fun _ => crop_of_widest h, fun hsome => absurd hsome hnone, ?_,
      fun hsome => absurd hsome hnone⟩
    intro row hrow c hc
    exact hcells h row hrow c (List.mem_of_mem_drop hc)
  · have hwidth : (crop g).width = Grid.widest (g.rows.map trimRow) := by
      rw [crop, gridOfRows_of_widest h]
    have hwide : Grid.widest (g.rows.map trimRow) ≤ g.width := by
      refine Grid.widest_le ?_
      intro r hr
      obtain ⟨row, hrow, rfl⟩ := List.mem_map.1 hr
      exact hg.length_row row hrow ▸ length_trimRow_le row
    refine ⟨proper_crop g, ?_, ?_, ?_, ?_⟩
    · intro hblank
      refine absurd (widest_eq_zero ?_) h
      intro r hr
      obtain ⟨row, hrow, rfl⟩ := List.mem_map.1 hr
      exact trimRow_eq_nil_iff.2 (hblank row hrow)
    · intro _
      rw [hwidth, rows_crop h]
      refine List.map_congr_left ?_
      intro row hrow
      exact padRow_trimRow (hused row hrow) (hg.length_row row hrow ▸ hwide)
    · intro row hrow c hc
      rw [hwidth] at hc
      exact eq_empty_of_mem_drop (hused row hrow) hc
    · intro _
      obtain ⟨r, hr, hlength⟩ := Grid.exists_length_eq_widest h
      obtain ⟨row, hrow, rfl⟩ := List.mem_map.1 hr
      have hne : trimRow row ≠ [] := by
        intro hnil
        rw [hnil] at hlength
        exact h hlength.symm
      refine ⟨row, hrow, ?_⟩
      rw [hwidth, ← hlength]
      exact exists_last_trimRow hne

/-- Of two grids that crop a third one, neither is the wider one. -/
theorem Value.Crops.width_le
    {g' g'' : Grid Value}
    (h' : Crops g g')
    (h'' : Crops g g'')
    (hsome : ∃ row ∈ g.rows, ∃ c ∈ row, c ≠ .empty) :
    g''.width ≤ g'.width := by
  by_contra hlt
  obtain ⟨row, hrow, c, hc, hne⟩ := h''.last hsome
  refine hne (h'.rest row hrow c ?_)
  have hdrop : (row.drop g'.width)[g''.width - 1 - g'.width]? = some c := by
    rw [List.getElem?_drop, Nat.add_sub_cancel' (by omega)]
    exact hc
  exact List.mem_of_getElem? hdrop

/-- No other grid crops the grid. -/
theorem Value.Crops.eq_crop
    {g' : Grid Value}
    (hg : g.Proper)
    (h : Crops g g') :
    g' = crop g := by
  have hcrop := crops_crop hg
  by_cases hsome : ∃ row ∈ g.rows, ∃ c ∈ row, c ≠ .empty
  · have hwidth : g'.width = (crop g).width :=
      Nat.le_antisymm (hcrop.width_le h hsome) (h.width_le hcrop hsome)
    rw [← h.proper.gridOfRows_rows, ← hcrop.proper.gridOfRows_rows, h.rows hsome,
      hcrop.rows hsome, hwidth]
  · have hblank : ∀ row ∈ g.rows, ∀ c ∈ row, c = .empty := by
      intro row hrow c hc
      by_contra hne
      exact hsome ⟨row, hrow, c, hc, hne⟩
    rw [h.blank hblank, hcrop.blank hblank]

/-- A grid that counts as blank holds one blank. -/
theorem rows_of_isBlankGrid
    (hg : g.Proper)
    (hblank : isBlankGrid g = true) :
    g.rows = [[.empty]] := by
  rw [isBlankGrid, Grid.isSingle, Bool.and_eq_true, Bool.and_eq_true, beq_iff_eq, beq_iff_eq]
    at hblank
  obtain ⟨⟨hrows, hwidth⟩, hcell⟩ := hblank
  obtain ⟨row, hrow⟩ := List.length_eq_one_iff.1 hrows
  have hlength := hg.length_row row (by rw [hrow]; exact List.mem_cons_self)
  obtain ⟨c, rfl⟩ := List.length_eq_one_iff.1 (hlength.trans hwidth)
  rw [Grid.get?, hrow] at hcell
  rw [hrow, (Value.isEmpty_iff c).1 hcell]

/-- The arrays that are read are laid out as the cropped grid. -/
theorem gridOfRows_readableRows
    (hg : g.Proper) :
    gridOfRows ((readableRows g).map trimRow) = crop g := by
  rw [readableRows]
  split
  · rename_i hblank
    rw [crop, rows_of_isBlankGrid hg hblank]
    rfl
  · rfl

theorem isArea_readableRows
    (g : Grid Value) :
    (Value.array g).IsArea ((readableRows g).map trimRow) := by
  refine ⟨g, rfl, ?_⟩
  rw [readableRows]
  split <;> rfl

end Cropped

section Reading

variable {α : Type} {cells : List Value} {n : Nat}

/-- A pass that makes an object at each step makes one for each step. -/
theorem exists_mapM_makes
    {f : α → Action Object}
    {P : Store → Object → α → Prop}
    {xs : List α}
    (h : ∀ x ∈ xs, (f x).Makes fun s o => P s o x)
    (w : World) :
    ∃ items w', xs.mapM f w = (.ok items, w') ∧ w.Adds w' ∧
      ∀ s, w'.store.Extends s → List.Forall₂ (P s) items xs := by
  induction xs generalizing w with
  | nil =>
      exact ⟨[], w, rfl, .refl w, fun _ _ => .nil⟩
  | cons x xs ih =>
      obtain ⟨hhead, htail⟩ := List.forall_mem_cons.1 h
      obtain ⟨o, w₁, hrun, hadds, hmade⟩ := hhead w
      obtain ⟨items, w₂, hrest, hadds', hmade'⟩ := ih htail w₁
      refine ⟨o :: items, w₂, ?_, trans_of World.Adds hadds hadds', ?_⟩
      · rw [List.mapM_cons, bind_run_ok hrun, bind_run_ok hrest]
        rfl
      · intro s hs
        exact .cons (hmade s (hadds'.growth.trans hs)) (hmade' s hs)

/-- What is made step by step is collected in an array. -/
theorem makes_array
    {f : α → Action Object}
    {P : Store → Object → α → Prop}
    {xs : List α}
    (h : ∀ x ∈ xs, (f x).Makes fun s o => P s o x)
    (e : Ty) :
    (xs.mapM f >>= Action.createArray e).Makes fun s => s.IsArrayOf e (P s) xs := by
  intro w
  obtain ⟨items, w₁, hrun, hadds, hmade⟩ := exists_mapM_makes h w
  let w' : World := { w₁ with store := (w₁.store.alloc (.array e) (.array items)).2 }
  have hgrowth : w₁.Adds w' := ⟨rfl, Store.extends_alloc (.array e) (.array items)⟩
  refine ⟨(w₁.store.alloc (.array e) (.array items)).1, w', ?_,
    trans_of World.Adds hadds hgrowth, ?_⟩
  · rw [bind_run_ok hrun]
    exact Action.create_run (.array e) (.array items) w₁
  · intro s hs
    refine ⟨rfl, items, ?_, hmade s (hgrowth.growth.trans hs)⟩
    exact (hs.same _ (Store.lt_size_alloc (.array e) (.array items))).trans
      (Store.payload_alloc (.array e) (.array items))

/-- A plain cell is read as an object that depicts it. -/
theorem makes_readCell
    {c : Value}
    (hc : c.plain?.isSome = true)
    (n : Nat) :
    (Sequence.readCell (standardCatalog.conversions (n + 1)) .any c).Makes
      fun s o => s.Depicts o c := by
  obtain ⟨⟨t, p⟩, hplain⟩ := Option.isSome_iff_exists.1 hc
  obtain ⟨r, hr, hread⟩ := exists_reader_of_plain hplain
  rw [readCell_of_rule hr, hread]
  intro w
  refine ⟨_, _, Action.create_run t p w, ⟨rfl, Store.extends_alloc t p⟩, ?_⟩
  intro s hs
  exact (Store.depicts_alloc hplain).extend (Store.lt_size_alloc t p) hs

/-- Plain cells are read as an array that depicts them. -/
theorem makes_row
    (hcells : ∀ c ∈ cells, c.plain?.isSome = true)
    (n : Nat) :
    (Sequence.readLine (standardCatalog.conversions (n + 1)) .any cells >>=
      Action.createArray .any).Makes fun s o => s.DepictsRow o cells := by
  rw [Sequence.readLine_eq_mapM]
  exact makes_array (fun c hc => makes_readCell (hcells c hc) n) .any

/-- An area of plain cells is read as the array of the rows that it shows. -/
theorem makes_rows
    {v : Value}
    {rows : List (List Value)}
    (harea : v.IsArea rows)
    (hcells : ∀ row ∈ rows, ∀ c ∈ row, c.plain?.isSome = true)
    (n : Nat) :
    (Sequence.jagged.toManaged (standardCatalog.conversions (n + 1)) (.array (.array .any)) v).Makes
      fun s o => s.DepictsRows o rows := by
  show (Sequence.readJagged _ _ _).Makes _
  rw [harea.readJagged_eq]
  exact makes_array (fun row hrow => makes_row (hcells row hrow) n) (.array .any)

end Reading

section Writing

variable {w : World} {o : Object} {n : Nat}

/-- Objects that depict cells are written as these cells. -/
theorem writeItems_depicts
    {items : List Object}
    {cells : List Value}
    (h : List.Forall₂ w.store.Depicts items cells) :
    Sequence.writeItems (standardCatalog.conversions (n + 1)) .any items w = (.ok cells, w) := by
  refine writeItems_run_of_forall₂ ?_ (h.imp fun _ _ hx => hx.writeCell_run n)
  intro x hx
  obtain ⟨c, -, hc⟩ := exists_of_mem_right h.flip hx
  exact within_of_plain hc ∅

/-- An array of arrays that depict rows is written as the grid of these rows. -/
theorem Store.DepictsRows.writeCell_run
    {rows : List (List Value)}
    (h : w.store.DepictsRows o rows) :
    writeCell (n + 1) o w = (.ok (.array (Value.gridOfRows rows)), w) := by
  obtain ⟨htype, outer, hpayload, hrows⟩ := h
  have hwritten : List.Forall₂ (fun row cells =>
      (Sequence.itemsOf "an array" Payload.array? row >>=
        Sequence.writeItems (standardCatalog.conversions (n + 1)) .any) w = (.ok cells, w))
      outer rows := by
    refine hrows.imp ?_
    rintro row cells ⟨-, items, hpayload, hdepicts⟩
    have hitems : (w.store.payload row).array? = some items := congrArg Payload.array? hpayload
    rw [bind_run_ok (itemsOf_run hitems)]
    exact writeItems_depicts hdepicts
  have houter : (w.store.payload o).array? = some outer := congrArg Payload.array? hpayload
  have hrule : writerRule o.type = Sequence.jagged := by
    rw [htype]
    rfl
  have hdeclared : o.type.elementOrAny.elementOrAny = .any := by
    rw [htype]
    rfl
  rw [writeCell, hrule]
  show (Sequence.itemsOf "an array" Payload.array? o >>= fun outer =>
    Sequence.writeRows (standardCatalog.conversions (n + 1)) o.type.elementOrAny.elementOrAny
      outer >>= fun rows => pure (Value.array (Value.gridOfRows rows))) w = _
  rw [bind_run_ok (itemsOf_run houter), hdeclared, Sequence.writeRows_eq_mapM,
    bind_run_ok (mapM_run_of_forall₂ hwritten)]
  rfl

end Writing

section Bridges

open Value

variable {b : Bridge} {g : Grid Value}

/-- Reading a grid of plain cells and writing what was read crops the grid. -/
theorem exists_jagged_run
    (hb : b.catalog = standardCatalog)
    (hg : g.Proper)
    (hplain : ∀ row ∈ g.rows, ∀ c ∈ row, c.plain?.isSome = true)
    (w : World) :
    ∃ o w', b.toManaged (.array g) (.array (.array .any)) w = (.ok o, w') ∧ w.Adds w' ∧
      w'.store.DepictsRows o ((readableRows g).map Sequence.trimRow) ∧
      b.toCell o w' = (.ok (.array (crop g)), w') := by
  have hcells : ∀ row ∈ (readableRows g).map Sequence.trimRow, ∀ c ∈ row,
      c.plain?.isSome = true := by
    intro r hr c hc
    obtain ⟨g', hg', row, hrow, hcell⟩ := (isArea_readableRows g).hasCell hr hc
    cases hg'
    exact hplain row hrow c hcell
  obtain ⟨o, w', hrun, hadds, hmade⟩ := makes_rows (isArea_readableRows g) hcells _ w
  have hrows := hmade w'.store (.refl _)
  refine ⟨o, w', toManaged_run_of_rule hb (v := .array g) rfl hrun, hadds, hrows, ?_⟩
  rw [Bridge.toCell_standard hb, ← gridOfRows_readableRows hg]
  exact Action.guarded_run_ok.2 hrows.writeCell_run

/-- The cells of a cropped grid are cells of the grid, or blanks. -/
theorem plain_crop
    (hplain : ∀ row ∈ g.rows, ∀ c ∈ row, c.plain?.isSome = true) :
    ∀ row ∈ (crop g).rows, ∀ c ∈ row, c.plain?.isSome = true := by
  intro row hrow c hc
  rcases mem_gridOfRows hrow hc with rfl | ⟨r, hr, hcr⟩
  · rfl
  · obtain ⟨row', hrow', rfl⟩ := List.mem_map.1 hr
    exact hplain row' hrow' c (mem_trimRow hcr)

/-- A grid of plain cells is read, where an array of arrays is wanted, as the arrays of what its
rows hold up to their last cells that are not blank.  This is written as the cropped grid, and the
cropped grid is what comes back from then on. -/
theorem jagged_crops
    (hb : b.catalog = standardCatalog)
    (hg : g.Proper)
    (hplain : ∀ row ∈ g.rows, ∀ c ∈ row, c.plain?.isSome = true)
    (w : World) :
    ∃ o w' g' used, b.toManaged (.array g) (.array (.array .any)) w = (.ok o, w') ∧
      w'.heap = w.heap ∧ w.store.Extends w'.store ∧
      w'.store.DepictsRows o used ∧ List.Forall₂ UsedPart (readableRows g) used ∧
      b.toCell o w' = (.ok (.array g'), w') ∧ Crops g g' ∧
      ∀ u, ∃ o' u', b.toManaged (.array g') (.array (.array .any)) u = (.ok o', u') ∧
        b.toCell o' u' = (.ok (.array g'), u') := by
  obtain ⟨o, w', hread, hadds, hrows, hwrite⟩ := exists_jagged_run hb hg hplain w
  refine ⟨o, w', crop g, _, hread, hadds.heap, hadds.growth, hrows, ?_, hwrite, crops_crop hg, ?_⟩
  · rw [List.forall₂_map_right_iff, List.forall₂_same]
    intro row _
    exact usedPart_trimRow row
  · intro u
    obtain ⟨o', u', hread', -, -, hwrite'⟩ :=
      exists_jagged_run hb (proper_crop g) (plain_crop hplain) u
    rw [crop_crop] at hwrite'
    exact ⟨o', u', hread', hwrite'⟩

/-- Blanks in front of other cells and a blank row between other rows stay, and the blank column at
the end goes. -/
theorem jagged_crops_ledger :
    let b := (Bridge.empty {}).withStandardRules
    let w := (b.newSession 0 .empty).world
    let sold := gridOfRows [[.empty, .text "sold", .empty, .empty], [.empty],
      [.number ⟨0x8000000000000000⟩, .empty, .boolean true, .empty]]
    let kept := gridOfRows [[.empty, .text "sold", .empty], [.empty],
      [.number ⟨0x8000000000000000⟩, .empty, .boolean true]]
    ∃ o w', b.toManaged (.array sold) (.array (.array .any)) w = (.ok o, w') ∧
      b.toCell o w' = (.ok (.array kept), w') ∧
      ∃ o' u, b.toManaged (.array kept) (.array (.array .any)) w' = (.ok o', u) ∧
        b.toCell o' u = (.ok (.array kept), u) := by
  intro b w sold kept
  have hplain : ∀ row ∈ sold.rows, ∀ c ∈ row, c.plain?.isSome = true := by
    decide
  have hsold : sold.Proper := proper_gridOfRows _
  obtain ⟨o, w', g', used, hread, -, -, -, -, hwrite, hcrops, hagain⟩ :=
    jagged_crops (b := b) rfl hsold hplain w
  have hkept : g' = kept := hcrops.eq_crop hsold
  rw [hkept] at hwrite hagain
  exact ⟨o, w', hread, hwrite, hagain w'⟩

end Bridges

end CellBridge
