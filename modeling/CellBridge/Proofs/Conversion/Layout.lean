import CellBridge.Proofs.Conversion.Elements

/-!
# Laying cells out and taking them back

The rules for sequences lay cells out in a row, in a column or in rows of different lengths.  If no
cell is a blank, then the cells can be taken back: `IsLine` and `IsArea` say what a grid shows, and
`lineOf_run` that a line is read as the cells it shows.
-/

namespace CellBridge

section Defs

/-- No cell is a blank. -/
def AllFull
    (cells : List Value) : Prop :=
  ∀ c ∈ cells, c.isEmpty = false

/-- The cells that a row shows.  A lone blank is no cell. -/
def Value.shownCells : List Value → List Value
  | [] => []
  | [c] => bif c.isEmpty then [] else [c]
  | c :: d :: rest => c :: d :: rest

/-- The value is a grid that shows the cells as a line. -/
def Value.IsLine
    (v : Value)
    (cells : List Value) : Prop :=
  ∃ g, v = .array g ∧ if isBlankGrid g then cells = [] else g.line? = some cells

/-- The value is a grid that shows the rows. -/
def Value.IsArea
    (v : Value)
    (rows : List (List Value)) : Prop :=
  ∃ g, v = .array g ∧ if isBlankGrid g then rows = [] else g.rows.map Sequence.trimRow = rows

end Defs

section Rows

variable {rows : List (List Value)} {cells : List Value}

/-- Trimming takes off what was filled up. -/
theorem trimRow_padRow
    (hcells : AllFull cells)
    (width : Nat) :
    Sequence.trimRow (Grid.padRow .empty width cells) = cells := by
  have hpadding : ∀ c ∈ List.replicate (width - cells.length) Value.empty, c.isEmpty = true := by
    intro c hc
    rw [List.eq_of_mem_replicate hc]
    rfl
  have hkept : cells.reverse.dropWhile Value.isEmpty = cells.reverse := by
    cases hreverse : cells.reverse with
    | nil =>
        rfl
    | cons c rest =>
        have hc : c ∈ cells := by
          rw [← List.mem_reverse, hreverse]
          exact List.mem_cons_self
        rw [List.dropWhile_cons, hcells c hc]
        rfl
  rw [Sequence.trimRow, Grid.padRow, List.reverse_append, List.reverse_replicate,
    List.dropWhile_append_of_pos hpadding, hkept, List.reverse_reverse]

theorem gridOfRows_of_widest
    (h : Grid.widest rows ≠ 0) :
    Value.gridOfRows rows =
      { rows := rows.map (Grid.padRow .empty (Grid.widest rows))
        width := Grid.widest rows
        orientation := Orientation.ofSize rows.length (Grid.widest rows) } := by
  rw [Value.gridOfRows, Grid.ofRows]
  exact if_neg h

/-- The grid of rows has the orientation of its size. -/
theorem orientation_gridOfRows
    (rows : List (List Value)) :
    (Value.gridOfRows rows).orientation =
      Orientation.ofSize (Value.gridOfRows rows).rows.length (Value.gridOfRows rows).width := by
  by_cases hwidest : Grid.widest rows = 0
  · rw [Value.gridOfRows, Grid.ofRows, if_pos hwidest]
    rfl
  · rw [gridOfRows_of_widest hwidest, List.length_map]

/-- The cells of a grid that is made from rows are those of the rows, and blanks. -/
theorem Value.mem_gridOfRows
    {rows : List (List Value)}
    {row : List Value}
    (hrow : row ∈ (Value.gridOfRows rows).rows)
    {c : Value}
    (hc : c ∈ row) :
    c = .empty ∨ ∃ r ∈ rows, c ∈ r := by
  by_cases hwidest : Grid.widest rows = 0
  · rw [Value.gridOfRows, Grid.ofRows, if_pos hwidest] at hrow
    rw [List.mem_singleton.1 hrow, List.mem_singleton] at hc
    exact Or.inl hc
  · rw [gridOfRows_of_widest hwidest] at hrow
    obtain ⟨r, hr, rfl⟩ := List.mem_map.1 hrow
    rcases List.mem_append.1 hc with hold | hblank
    · exact Or.inr ⟨r, hr, hold⟩
    · exact Or.inl (List.eq_of_mem_replicate hblank)

theorem widest_singleton
    (cells : List Value) :
    Grid.widest [cells] = cells.length := by
  exact Nat.max_zero _

/-- A grid with a cell that is not a blank is no blank grid. -/
theorem isBlankGrid_gridOfRows
    (hrows : ∀ row ∈ rows, AllFull row)
    (h : Grid.widest rows ≠ 0) :
    Value.isBlankGrid (Value.gridOfRows rows) = false := by
  rw [gridOfRows_of_widest h]
  match rows with
  | [] =>
      exact absurd rfl h
  | [[]] =>
      exact absurd rfl h
  | [[c]] =>
      have hc : c.isEmpty = false := hrows [c] List.mem_cons_self c List.mem_cons_self
      exact hc
  | [c :: d :: rest] =>
      rfl
  | _ :: _ :: _ =>
      rfl

/-- What a grid of rows shows, if some row has a cell. -/
theorem isArea_gridOfRows
    (hrows : ∀ row ∈ rows, AllFull row)
    (h : rows = [] ∨ ∃ row ∈ rows, row ≠ []) :
    (Value.array (Value.gridOfRows rows)).IsArea rows := by
  refine ⟨_, rfl, ?_⟩
  rcases h with rfl | ⟨row, hrow, hne⟩
  · rfl
  · have hwidest : Grid.widest rows ≠ 0 := by
      have hle := Grid.length_le_widest hrow
      have hpos := List.length_pos_of_ne_nil hne
      omega
    rw [isBlankGrid_gridOfRows hrows hwidest, if_neg Bool.false_ne_true,
      gridOfRows_of_widest hwidest, List.map_map]
    calc rows.map (Sequence.trimRow ∘ Grid.padRow .empty (Grid.widest rows))
        = rows.map id := List.map_congr_left fun row hrow => trimRow_padRow (hrows row hrow) _
      _ = rows := List.map_id rows

theorem widest_eq_zero
    (h : ∀ row ∈ rows, row = []) :
    Grid.widest rows = 0 := by
  induction rows with
  | nil =>
      rfl
  | cons row rest ih =>
      obtain ⟨rfl, hrest⟩ := List.forall_mem_cons.1 h
      exact (Nat.zero_max _).trans (ih hrest)

/-- A grid of empty rows is blank: it shows no rows. -/
theorem isArea_gridOfRows_of_empty
    (h : ∀ row ∈ rows, row = []) :
    (Value.array (Value.gridOfRows rows)).IsArea [] := by
  refine ⟨_, rfl, ?_⟩
  rw [Value.gridOfRows, Grid.ofRows, if_pos (widest_eq_zero h)]
  rfl

theorem padRow_length
    (cells : List Value) :
    Grid.padRow .empty cells.length cells = cells := by
  rw [Grid.padRow, Nat.sub_self, List.replicate_zero, List.append_nil]

end Rows

section Lines

variable {cells : List Value}

/-- Cells that are not shown are blank. -/
theorem mem_shownCells
    {c : Value} :
    c ∈ cells → c = .empty ∨ c ∈ Value.shownCells cells := by
  intro h
  match cells with
  | [] =>
      cases h
  | [d] =>
      rw [List.mem_singleton.1 h]
      cases d <;> first
        | exact Or.inl rfl
        | exact Or.inr List.mem_cons_self
  | _ :: _ :: _ =>
      exact Or.inr h

theorem mem_of_mem_shownCells
    {c : Value} :
    c ∈ Value.shownCells cells → c ∈ cells := by
  intro h
  match cells with
  | [] =>
      exact h
  | [d] =>
      cases d <;> first
        | exact h
        | cases h
  | _ :: _ :: _ =>
      exact h

theorem AllFull.shownCells_eq
    (h : AllFull cells) :
    Value.shownCells cells = cells := by
  match cells with
  | [] =>
      rfl
  | [d] =>
      rw [Value.shownCells, h d List.mem_cons_self]
      rfl
  | _ :: _ :: _ =>
      rfl

theorem rowValue_eq
    (cells : List Value) :
    Sequence.rowValue cells = .array (Value.gridOfRow cells) := by
  cases cells <;> rfl

theorem columnValue_eq
    (cells : List Value) :
    Sequence.columnValue cells = .array (Value.gridOfColumn cells) := by
  cases cells <;> rfl

/-- The cells that a row shows are written as this row. -/
theorem rowValue_shownCells
    (cells : List Value) :
    Sequence.rowValue (Value.shownCells cells) = .array (Value.gridOfRow cells) := by
  match cells with
  | [] =>
      rfl
  | [d] =>
      cases d <;> rfl
  | _ :: _ :: _ =>
      rfl

/-- A row shows its cells, unless it is a lone blank. -/
theorem isLine_gridOfRow
    (cells : List Value) :
    (Value.array (Value.gridOfRow cells)).IsLine (Value.shownCells cells) := by
  refine ⟨_, rfl, ?_⟩
  match cells with
  | [] =>
      rfl
  | [d] =>
      cases d <;> rfl
  | c :: d :: rest =>
      have hwidest : Grid.widest [c :: d :: rest] ≠ 0 := by
        rw [widest_singleton]
        exact Nat.succ_ne_zero _
      show if Value.isBlankGrid (Value.gridOfRows [c :: d :: rest]) then _
        else (Value.gridOfRows [c :: d :: rest]).line? = _
      rw [gridOfRows_of_widest hwidest, widest_singleton]
      exact congrArg some (padRow_length (c :: d :: rest))

theorem widest_column
    (c : Value)
    (rest : List Value) :
    Grid.widest ((c :: rest).map fun c => [c]) = 1 := by
  induction rest generalizing c with
  | nil =>
      rfl
  | cons d rest ih =>
      rw [List.map_cons, Grid.widest, List.foldr_cons, ← Grid.widest, ih d]
      rfl

/-- A column shows its cells, unless it is a lone blank. -/
theorem isLine_gridOfColumn
    (cells : List Value) :
    (Value.array (Value.gridOfColumn cells)).IsLine (Value.shownCells cells) := by
  refine ⟨_, rfl, ?_⟩
  match cells with
  | [] =>
      rfl
  | [d] =>
      cases d <;> rfl
  | c :: d :: rest =>
      have hwidest := widest_column c (d :: rest)
      have hne : Grid.widest ((c :: d :: rest).map fun c => [c]) ≠ 0 := by
        rw [hwidest]
        exact Nat.one_ne_zero
      show if Value.isBlankGrid (Value.gridOfRows ((c :: d :: rest).map fun c => [c])) then _
        else (Value.gridOfRows ((c :: d :: rest).map fun c => [c])).line? = _
      rw [gridOfRows_of_widest hne, hwidest]
      -- two rows or more of width one are a column
      show some ((((c :: d :: rest).map fun c => [c]).map (Grid.padRow .empty 1)).filterMap
        List.head?) = _
      rw [List.map_map, List.filterMap_map]
      exact congrArg some List.filterMap_some

/-- A row of full cells shows them all. -/
theorem isLine_rowValue
    (hcells : AllFull cells) :
    (Sequence.rowValue cells).IsLine cells := by
  have hline := isLine_gridOfRow cells
  rw [← rowValue_eq, hcells.shownCells_eq] at hline
  exact hline

/-- A column of full cells shows them all. -/
theorem isLine_columnValue
    (hcells : AllFull cells) :
    (Sequence.columnValue cells).IsLine cells := by
  have hline := isLine_gridOfColumn cells
  rw [← columnValue_eq, hcells.shownCells_eq] at hline
  exact hline

end Lines

section Reading

variable {v : Value} {cells : List Value}

/-- A line is read as the cells that it shows. -/
theorem Value.IsLine.lineOf_run
    (hv : v.IsLine cells)
    (target : Ty)
    (w : World) :
    Sequence.lineOf target v w = (.ok cells, w) := by
  obtain ⟨g, rfl, hshows⟩ := hv
  rw [Sequence.lineOf, Value.array?, bind_run_ok (Action.orFail_some_run _ g w)]
  split at hshows
  · rename_i hblank
    rw [if_pos hblank, hshows]
    rfl
  · rename_i hblank
    rw [if_neg hblank, hshows]
    rfl

theorem Value.IsLine.hasCell
    (hv : v.IsLine cells)
    {c : Value}
    (hc : c ∈ cells) :
    v.HasCell c := by
  obtain ⟨g, rfl, hshows⟩ := hv
  split at hshows
  · rw [hshows] at hc
    cases hc
  · exact hasCell_of_line hshows hc

/-- An area is read row by row, as arrays of the cells that it shows. -/
theorem Value.IsArea.readJagged_eq
    {rows : List (List Value)}
    (hv : v.IsArea rows)
    (cx : Conversions)
    (e : Ty) :
    Sequence.readJagged cx (.array (.array e)) v =
      (rows.mapM fun row => Sequence.readLine cx e row >>= Action.createArray e) >>=
        Action.createArray (.array e) := by
  obtain ⟨g, rfl, hshows⟩ := hv
  rw [Sequence.readJagged, Value.array?, Action.orFail, pure_bind]
  split at hshows
  · rename_i hblank
    rw [if_pos hblank, hshows]
    rfl
  · rename_i hblank
    rw [if_neg hblank, Sequence.readRows_eq_mapM, ← hshows, List.mapM_map]
    rfl

theorem Value.IsArea.hasCell
    {rows : List (List Value)}
    (hv : v.IsArea rows)
    {row : List Value}
    (hrow : row ∈ rows)
    {c : Value}
    (hc : c ∈ row) :
    v.HasCell c := by
  obtain ⟨g, rfl, hshows⟩ := hv
  split at hshows
  · rw [hshows] at hrow
    cases hrow
  · rw [← hshows] at hrow
    obtain ⟨r, hr, rfl⟩ := List.mem_map.1 hrow
    exact ⟨g, rfl, r, hr, mem_trimRow hc⟩

end Reading

end CellBridge
