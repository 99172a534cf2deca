import CellBridge.Proofs.Cell.Equality
import CellBridge.Proofs.Conversion.Cropping
import CellBridge.Proofs.Conversion.Flattening

/-!
# The shape of a grid

A grid keeps its width and its orientation next to its rows.  `Grid.LaysOut` says what all of them
are for a grid that is made from rows of any lengths: a rectangle with the given cells in their
places and blanks everywhere else.

Its rows determine such a grid, so it is the one that is built from them again.  Whether the host
calls the two equal is another matter: a grid with a not-a-number in it differs from itself
(`grids_lay_out_rows`).
-/

namespace CellBridge

section Defs

/-- The cell that rows give for a position, if they reach so far. -/
def Value.givenCell?
    (rows : List (List Value))
    (r c : Nat) : Option Value :=
  (rows[r]?).bind fun row => row[c]?

/-- The grid shows the rows, filled up to a rectangle of at least one cell. -/
structure Grid.LaysOut
    (g : Grid Value)
    (rows : List (List Value)) : Prop where
  rowCount_pos : 0 < g.rowCount
  columnCount_pos : 0 < g.columnCount
  length_row : ∀ row ∈ g.rows, row.length = g.columnCount
  /-- Without any cell there is a single one. -/
  size_of_empty : (∀ row ∈ rows, row = []) → g.rowCount = 1 ∧ g.columnCount = 1
  rowCount_eq : (∃ row ∈ rows, row ≠ []) → g.rowCount = rows.length
  /-- The longest row has the width of the grid. -/
  columnCount_eq : (∃ row ∈ rows, row ≠ []) →
    (∀ row ∈ rows, row.length ≤ g.columnCount) ∧ ∃ row ∈ rows, row.length = g.columnCount
  get?_given : ∀ r c v, Value.givenCell? rows r c = some v → g.get? r c = some v
  get?_filled : ∀ r c, Value.givenCell? rows r c = none → r < g.rowCount → c < g.columnCount →
    g.get? r c = some .empty
  get?_outside : ∀ r c, g.rowCount ≤ r ∨ g.columnCount ≤ c → g.get? r c = none
  isRow_iff : g.orientation = .row ↔ g.rowCount = 1
  isColumn_iff : g.orientation = .column ↔ 1 < g.rowCount ∧ g.columnCount = 1
  isArea_iff : g.orientation = .area ↔ 1 < g.rowCount ∧ 1 < g.columnCount
  line?_eq : g.line? = if g.orientation = .area then none else some g.cells
  length_cells : g.cells.length = g.rowCount * g.columnCount
  /-- The cells stand row by row. -/
  cells_eq : ∀ r c, c < g.columnCount → g.cells[r * g.columnCount + c]? = g.get? r c

end Defs

section Proper

variable {g : Grid Value} {rows : List (List Value)} {width : Nat}

theorem length_flatten_of_length
    (h : ∀ row ∈ rows, row.length = width) :
    rows.flatten.length = rows.length * width := by
  induction rows with
  | nil =>
      simp
  | cons row rest ih =>
      obtain ⟨hrow, hrest⟩ := List.forall_mem_cons.1 h
      simp [hrow, ih hrest, Nat.succ_mul, Nat.add_comm]

/-- Rows of one length are found again when they stand one after the other. -/
theorem getElem?_flatten_of_length
    (h : ∀ row ∈ rows, row.length = width)
    (r : Nat)
    {c : Nat}
    (hc : c < width) :
    rows.flatten[r * width + c]? = Value.givenCell? rows r c := by
  induction rows generalizing r with
  | nil =>
      simp [Value.givenCell?]
  | cons row rest ih =>
      obtain ⟨hrow, hrest⟩ := List.forall_mem_cons.1 h
      cases r with
      | zero =>
          rw [List.flatten_cons, List.getElem?_append_left (by omega)]
          simp [Value.givenCell?]
      | succ r =>
          have hskip : (r + 1) * width + c - row.length = r * width + c := by
            rw [Nat.succ_mul]
            omega
          rw [List.flatten_cons, List.getElem?_append_right (by rw [Nat.succ_mul]; omega), hskip,
            ih hrest r]
          rfl

namespace Grid.Proper

theorem isRow_iff
    (hg : g.Proper) :
    g.orientation = .row ↔ g.rowCount = 1 := by
  rw [hg.orientation_eq, Orientation.ofSize, Grid.rowCount]
  split
  · simp [*]
  · split <;> simp [*]

theorem isColumn_iff
    (hg : g.Proper) :
    g.orientation = .column ↔ 1 < g.rowCount ∧ g.columnCount = 1 := by
  have hrows := List.length_pos_of_ne_nil hg.rows_ne_nil
  have hwidth := hg.width_pos
  rw [hg.orientation_eq, Orientation.ofSize, Grid.rowCount, Grid.columnCount]
  split
  · simp [*]
  · split
    · simp
      omega
    · simp
      omega

theorem isArea_iff
    (hg : g.Proper) :
    g.orientation = .area ↔ 1 < g.rowCount ∧ 1 < g.columnCount := by
  have hrows := List.length_pos_of_ne_nil hg.rows_ne_nil
  rw [hg.orientation_eq, Orientation.ofSize, Grid.rowCount, Grid.columnCount]
  split
  · simp [*]
  · split
    · simp
      omega
    · simp
      omega

theorem line?_eq_ite
    (hg : g.Proper) :
    g.line? = if g.orientation = .area then none else some g.cells := by
  split
  · rename_i harea
    rw [Grid.line?, harea]
  · rename_i hline
    exact hg.line?_eq fun h => hline (hg.isArea_iff.2 h)

theorem get?_eq_none
    (hg : g.Proper)
    {r c : Nat}
    (h : g.rowCount ≤ r ∨ g.columnCount ≤ c) :
    g.get? r c = none := by
  rw [Grid.get?]
  cases hrow : g.rows[r]? with
  | none =>
      rfl
  | some row =>
      have hr : r < g.rowCount := (List.getElem?_eq_some_iff.1 hrow).1
      have hlength := hg.length_row row (List.mem_of_getElem? hrow)
      refine List.getElem?_eq_none ?_
      rw [hlength]
      exact h.resolve_left (Nat.not_le.2 hr)

end Grid.Proper

end Proper

section Rows

variable {rows : List (List Value)}

theorem widest_ne_zero
    (h : ∃ row ∈ rows, row ≠ []) :
    Grid.widest rows ≠ 0 := by
  obtain ⟨row, hrow, hne⟩ := h
  have hle := Grid.length_le_widest hrow
  have hpos := List.length_pos_of_ne_nil hne
  omega

theorem exists_row_of_givenCell?
    {r c : Nat}
    {v : Value}
    (h : Value.givenCell? rows r c = some v) :
    ∃ row, rows[r]? = some row ∧ row[c]? = some v := by
  exact Option.bind_eq_some_iff.1 h

theorem givenCell?_of_widest
    (h : Grid.widest rows = 0)
    (r c : Nat) :
    Value.givenCell? rows r c = none := by
  cases hcell : Value.givenCell? rows r c with
  | none =>
      rfl
  | some v =>
      obtain ⟨row, hrow, hc⟩ := exists_row_of_givenCell? hcell
      have hle := Grid.length_le_widest (List.mem_of_getElem? hrow)
      have hlt := (List.getElem?_eq_some_iff.1 hc).1
      omega

theorem getElem?_padRow
    {row : List Value}
    {width c : Nat}
    (hc : c < width) :
    (Grid.padRow .empty width row)[c]? = some ((row[c]?).getD .empty) := by
  rw [Grid.padRow, List.getElem?_append]
  split
  · rename_i hlt
    simp [hlt]
  · rename_i hge
    have hblank : c - row.length < width - row.length := by omega
    simp [Nat.not_lt.1 hge, hblank]

/-- A cell of a grid is the given one, or a blank. -/
theorem get?_gridOfRows
    {r c : Nat}
    (hr : r < (Value.gridOfRows rows).rowCount)
    (hc : c < (Value.gridOfRows rows).columnCount) :
    (Value.gridOfRows rows).get? r c = some ((Value.givenCell? rows r c).getD .empty) := by
  by_cases hwidest : Grid.widest rows = 0
  · rw [Value.gridOfRows, Grid.ofRows, if_pos hwidest] at hr hc ⊢
    obtain rfl : r = 0 := Nat.lt_one_iff.1 hr
    obtain rfl : c = 0 := Nat.lt_one_iff.1 hc
    rw [givenCell?_of_widest hwidest]
    rfl
  · rw [gridOfRows_of_widest hwidest] at hr hc ⊢
    rw [Grid.rowCount, List.length_map] at hr
    rw [Grid.get?, List.getElem?_map, List.getElem?_eq_getElem hr, Value.givenCell?,
      List.getElem?_eq_getElem hr]
    exact getElem?_padRow hc

/-- A grid shows the rows that it is made from. -/
theorem laysOut_gridOfRows
    (rows : List (List Value)) :
    (Value.gridOfRows rows).LaysOut rows := by
  have hg := proper_gridOfRows rows
  have hsize : (∃ row ∈ rows, row ≠ []) →
      (Value.gridOfRows rows).rowCount = rows.length ∧
        (Value.gridOfRows rows).columnCount = Grid.widest rows := by
    intro h
    rw [gridOfRows_of_widest (widest_ne_zero h), Grid.rowCount, List.length_map]
    exact ⟨rfl, rfl⟩
  constructor
  case rowCount_pos =>
    exact List.length_pos_of_ne_nil hg.rows_ne_nil
  case columnCount_pos =>
    exact hg.width_pos
  case length_row =>
    exact hg.length_row
  case size_of_empty =>
    intro h
    rw [Value.gridOfRows, Grid.ofRows, if_pos (widest_eq_zero h)]
    exact ⟨rfl, rfl⟩
  case rowCount_eq =>
    exact fun h => (hsize h).1
  case columnCount_eq =>
    intro h
    rw [(hsize h).2]
    exact ⟨fun row => Grid.length_le_widest, Grid.exists_length_eq_widest (widest_ne_zero h)⟩
  case get?_given =>
    intro r c v hcell
    obtain ⟨row, hrow, hc⟩ := exists_row_of_givenCell? hcell
    have hmem := List.mem_of_getElem? hrow
    have hlt := (List.getElem?_eq_some_iff.1 hc).1
    obtain ⟨hrows, hcolumns⟩ := hsize ⟨row, hmem, List.ne_nil_of_length_pos (by omega)⟩
    rw [get?_gridOfRows, hcell]
    · rfl
    · rw [hrows]
      exact (List.getElem?_eq_some_iff.1 hrow).1
    · rw [hcolumns]
      exact Nat.lt_of_lt_of_le hlt (Grid.length_le_widest hmem)
  case get?_filled =>
    intro r c hcell hr hc
    rw [get?_gridOfRows hr hc, hcell]
    rfl
  case get?_outside =>
    exact fun r c => hg.get?_eq_none
  case isRow_iff =>
    exact hg.isRow_iff
  case isColumn_iff =>
    exact hg.isColumn_iff
  case isArea_iff =>
    exact hg.isArea_iff
  case line?_eq =>
    exact hg.line?_eq_ite
  case length_cells =>
    exact length_flatten_of_length hg.length_row
  case cells_eq =>
    exact fun r c hc => getElem?_flatten_of_length hg.length_row r hc

end Rows

section Rebuilding

variable {rows : List (List Value)}

/-- The numbers of a grid are those of the rows that it is made from. -/
theorem numbers_gridOfRows_iff
    {p : Number → Prop} :
    (Value.array (Value.gridOfRows rows)).Numbers p ↔
      ∀ row ∈ rows, ∀ c ∈ row, c.Numbers p := by
  constructor
  · intro h row hrow c hc
    have hne := widest_ne_zero ⟨row, hrow, List.ne_nil_of_mem hc⟩
    rw [gridOfRows_of_widest hne, Value.numbers_array_iff] at h
    exact h _ (List.mem_map_of_mem hrow) c (List.mem_append_left _ hc)
  · exact Value.numbers_array

/-- Grids that are built from rows are the same if their rows are. -/
theorem gridOfRows_inj
    {rows rows' : List (List Value)} :
    Value.gridOfRows rows = Value.gridOfRows rows' ↔
      (Value.gridOfRows rows).rows = (Value.gridOfRows rows').rows := by
  constructor
  · intro h
    rw [h]
  · intro h
    rw [← (proper_gridOfRows rows).gridOfRows_rows, h, (proper_gridOfRows rows').gridOfRows_rows]

/-- Equal rows have the same lengths, one by one. -/
theorem lengths_eq_of_rowsBeq
    {rows rows' : List (List Value)}
    (h : Value.rowsBeq rows rows' = true) :
    rows.map List.length = rows'.map List.length := by
  obtain ⟨heq, -⟩ :=
    (Value.rowsBeq_iff fun _ _ c _ d => Value.beq_iff (a := c) (b := d)).1 h
  rw [Value.rowsMergeZeros_eq, Value.rowsMergeZeros_eq] at heq
  simpa [Function.comp_def] using congrArg (List.map List.length) heq

theorem array_beq
    (g g' : Grid Value) :
    (Value.array g == Value.array g') = (g == g') := by
  show (Value.array g).beq (Value.array g') = _
  rw [Value.beq]
  rfl

theorem Grid.Proper.width_mem
    {g : Grid Value}
    (hg : g.Proper)
    (n : Nat) :
    n ∈ g.rows.map List.length ↔ n = g.width := by
  constructor
  · intro h
    obtain ⟨row, hrow, rfl⟩ := List.mem_map.1 h
    exact hg.length_row row hrow
  · rintro rfl
    obtain ⟨row, hrow⟩ := List.exists_mem_of_ne_nil _ hg.rows_ne_nil
    exact List.mem_map.2 ⟨row, hrow, hg.length_row row hrow⟩

/-- The host compares proper grids by their rows. -/
theorem Grid.Proper.beq_eq
    {g g' : Grid Value}
    (hg : g.Proper)
    (hg' : g'.Proper) :
    (g == g') = Value.rowsBeq g.rows g'.rows := by
  have hbeq : (g == g') =
      (Value.rowsBeq g.rows g'.rows && g.width == g'.width && g.orientation == g'.orientation) := by
    show Value.gridBeq g g' = _
    cases g
    cases g'
    rw [Value.gridBeq]
  rw [hbeq]
  cases hrows : Value.rowsBeq g.rows g'.rows with
  | false =>
      rfl
  | true =>
      have hlengths := lengths_eq_of_rowsBeq hrows
      have hwidth : g.width = g'.width := by
        rw [← hg'.width_mem, ← hlengths, hg.width_mem]
      have hcount : g.rows.length = g'.rows.length := by
        simpa using congrArg List.length hlengths
      simp [hg.orientation_eq, hg'.orientation_eq, hwidth, hcount]

end Rebuilding

/-- The three ways to build a grid lay the cells out as they are given.  A grid is determined by its
rows, and compared by them.  So the grid that is built from its rows is the same grid, which the
host calls equal exactly if there is no not-a-number in it at any depth. -/
theorem grids_lay_out_rows
    (rows rows' : List (List Value))
    (cells : List Value) :
    let g := Value.gridOfRows rows
    let g' := Value.gridOfRows rows'
    g.LaysOut rows ∧
      (Value.gridOfRow cells).LaysOut [cells] ∧
      (Value.gridOfColumn cells).LaysOut (cells.map fun c => [c]) ∧
      Value.gridOfRows g.rows = g ∧
      ((Value.gridOfRows g.rows == g) = true ↔
        ∀ row ∈ rows, ∀ c ∈ row, c.Numbers fun n => n.isNaN = false) ∧
      (g = g' ↔ g.rows = g'.rows) ∧
      (g == g') = Value.rowsBeq g.rows g'.rows := by
  intro g g'
  have hrebuilt : Value.gridOfRows g.rows = g := (proper_gridOfRows rows).gridOfRows_rows
  refine ⟨laysOut_gridOfRows rows, laysOut_gridOfRows _, laysOut_gridOfRows _, hrebuilt, ?_,
    gridOfRows_inj, (proper_gridOfRows rows).beq_eq (proper_gridOfRows rows')⟩
  rw [hrebuilt, ← array_beq, Value.beq_self_iff, numbers_gridOfRows_iff]

/-- The grid of a not-a-number is not equal to the grid that is built from its rows. -/
theorem rebuilt_grid_differs :
    let g := Value.gridOfRows [[.number ⟨0x7ff8000000000000⟩]]
    (Value.gridOfRows g.rows == g) = false := by
  intro g
  rw [(proper_gridOfRows _).gridOfRows_rows, Bool.eq_false_iff]
  intro h
  rw [← array_beq, Value.beq_self_iff, numbers_gridOfRows_iff] at h
  have hnan := Value.numbers_number_iff.1 (h _ List.mem_cons_self _ List.mem_cons_self)
  exact absurd hnan (by decide)

end CellBridge
