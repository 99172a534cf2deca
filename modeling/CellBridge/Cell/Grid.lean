/-!
# Grids

A grid is a rectangle of cells, kept row by row together with its width and its orientation.
`Grid.ofRows` builds one from rows of any lengths: short rows are filled up on the right with a
blank cell, and where no cell is given at all the grid is the single blank cell, because the host
has no empty grid.
-/

namespace CellBridge

/-- How a grid is laid out; a single cell counts as a row. -/
inductive Orientation where
  | row
  | column
  | area
deriving DecidableEq, Inhabited

def Orientation.label : Orientation → String
  | .row => "Row"
  | .column => "Column"
  | .area => "Area"

/-- The orientation of a grid with the given numbers of rows and columns. -/
def Orientation.ofSize
    (rows columns : Nat) : Orientation :=
  if rows = 1 then
    .row
  else if columns ≤ 1 then
    .column
  else
    .area

/-- Cells in rows, with the width of a row and the orientation. -/
structure Grid (α : Type) where
  rows : List (List α)
  width : Nat
  orientation : Orientation
deriving Inhabited

namespace Grid

variable {α : Type}

section Construction

/-- A row filled up to the given width. -/
def padRow
    (blank : α)
    (width : Nat)
    (row : List α) : List α :=
  row ++ List.replicate (width - row.length) blank

/-- The length of the longest row. -/
def widest
    (rows : List (List α)) : Nat :=
  rows.foldr (fun row n => max row.length n) 0

/-- The grid of one blank cell. -/
def single
    (blank : α) : Grid α :=
  { rows := [[blank]], width := 1, orientation := .row }

/-- The grid with the given rows, filled up where they are short. -/
def ofRows
    (blank : α)
    (rows : List (List α)) : Grid α :=
  let width := widest rows
  if width = 0 then
    single blank
  else
    { rows := rows.map (padRow blank width)
      width := width
      orientation := Orientation.ofSize rows.length width }

def ofRow
    (blank : α)
    (cells : List α) : Grid α :=
  ofRows blank [cells]

def ofColumn
    (blank : α)
    (cells : List α) : Grid α :=
  ofRows blank (cells.map fun c => [c])

end Construction

section Access

def rowCount
    (g : Grid α) : Nat :=
  g.rows.length

def columnCount
    (g : Grid α) : Nat :=
  g.width

/-- The cell in row `r` and column `c`, both counted from zero. -/
def get?
    (g : Grid α)
    (r c : Nat) : Option α :=
  (g.rows[r]?).bind fun row => row[c]?

/-- The cells row by row. -/
def cells
    (g : Grid α) : List α :=
  g.rows.flatten

/-- The cells of a row or of a column in order; an area has no such order. -/
def line?
    (g : Grid α) : Option (List α) :=
  match g.orientation with
  | .row => g.rows.head?
  | .column => some (g.rows.filterMap List.head?)
  | .area => none

/-- Has the grid one cell, for which `p` holds? -/
def isSingle
    (p : α → Bool)
    (g : Grid α) : Bool :=
  g.rowCount == 1 && g.width == 1 && (g.get? 0 0).any p

end Access

section Lemmas

/-- No row is longer than the widest one. -/
theorem length_le_widest
    {rows : List (List α)}
    {row : List α}
    (h : row ∈ rows) :
    row.length ≤ widest rows := by
  induction rows with
  | nil =>
      cases h
  | cons r rs ih =>
      rw [widest, List.foldr_cons]
      rcases List.mem_cons.1 h with rfl | h'
      · exact Nat.le_max_left _ _
      · exact Nat.le_trans (ih h') (Nat.le_max_right _ _)

/-- A row that fits is filled up to the width exactly. -/
theorem length_padRow
    (blank : α)
    {width : Nat}
    {row : List α}
    (h : row.length ≤ width) :
    (padRow blank width row).length = width := by
  simp [padRow]
  omega

/-- All rows of a grid that is built from rows have its width. -/
theorem length_of_mem_ofRows
    (blank : α)
    {rows : List (List α)}
    {row : List α}
    (h : row ∈ (ofRows blank rows).rows) :
    row.length = (ofRows blank rows).width := by
  unfold ofRows at h ⊢
  by_cases hw : widest rows = 0
  · simp_all [single]
  · simp only [hw, if_false, List.mem_map] at h ⊢
    obtain ⟨r, hr, rfl⟩ := h
    exact length_padRow blank (length_le_widest hr)

end Lemmas

end Grid
end CellBridge
