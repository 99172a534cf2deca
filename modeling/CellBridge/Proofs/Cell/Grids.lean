import CellBridge.Proofs.Conversion.Layout
import CellBridge.Proofs.Conversion.Reading

/-!
# Grids at every depth

A grid is `Proper` if it is a rectangle of at least one cell and laid out as its size tells.  Grids
that are built from rows are proper, and a proper grid is the one that is built from its rows, so
that nothing but the rows has to be kept of it.

`Within` leads to the values at every depth of a value; what holds of all of them is proved by
`cell_induction`, from the cells to the grid.
-/

namespace CellBridge

section Defs

/-- The grid is a rectangle of at least one cell, with the orientation of its size. -/
structure Grid.Proper
    {α : Type}
    (g : Grid α) : Prop where
  rows_ne_nil : g.rows ≠ []
  width_pos : 0 < g.width
  length_row : ∀ row ∈ g.rows, row.length = g.width
  orientation_eq : g.orientation = Orientation.ofSize g.rows.length g.width

namespace Value

/-- `u` is the value itself, or a cell of it at some depth. -/
inductive Within
    (u : Value) : Value → Prop
  | here :
      Within u u
  | cell
      {v c : Value}
      (hcell : v.HasCell c)
      (hc : Within u c) :
      Within u v

/-- All grids in the value are proper. -/
def Proper
    (v : Value) : Prop :=
  ∀ g, (Value.array g).Within v → g.Proper

/-- All numbers in the value have the property. -/
def Numbers
    (p : Number → Prop)
    (v : Value) : Prop :=
  ∀ n, (Value.number n).Within v → p n

end Value

end Defs

section Rows

variable {g : Grid Value} {rows : List (List Value)}

theorem widest_of_length
    {width : Nat}
    (hne : rows ≠ [])
    (h : ∀ row ∈ rows, row.length = width) :
    Grid.widest rows = width := by
  induction rows with
  | nil =>
      exact absurd rfl hne
  | cons row rest ih =>
      obtain ⟨hrow, hrest⟩ := List.forall_mem_cons.1 h
      show max row.length (Grid.widest rest) = width
      cases rest with
      | nil =>
          exact (Nat.max_zero _).trans hrow
      | cons next rest =>
          rw [ih (List.cons_ne_nil _ _) hrest, hrow, Nat.max_self]

/-- A proper grid is built from its rows. -/
theorem Grid.Proper.gridOfRows_rows
    (hg : g.Proper) :
    Value.gridOfRows g.rows = g := by
  have hwidest := widest_of_length hg.rows_ne_nil hg.length_row
  have hrows : g.rows.map (Grid.padRow .empty g.width) = g.rows := by
    refine (List.map_congr_left fun row hrow => ?_).trans (List.map_id _)
    rw [← hg.length_row row hrow]
    exact padRow_length row
  rw [gridOfRows_of_widest (hwidest ▸ Nat.ne_of_gt hg.width_pos), hwidest, hrows,
    ← hg.orientation_eq]

/-- Whatever the rows are, the grid that is built from them is proper. -/
theorem proper_gridOfRows
    (rows : List (List Value)) :
    (Value.gridOfRows rows).Proper where
  rows_ne_nil := by
    by_cases h : Grid.widest rows = 0
    · rw [Value.gridOfRows, Grid.ofRows, if_pos h]
      exact List.cons_ne_nil _ _
    · rw [gridOfRows_of_widest h]
      rintro hnil
      rw [List.map_eq_nil_iff.1 hnil] at h
      exact h rfl
  width_pos := by
    by_cases h : Grid.widest rows = 0
    · rw [Value.gridOfRows, Grid.ofRows, if_pos h]
      exact Nat.one_pos
    · rw [gridOfRows_of_widest h]
      exact Nat.pos_of_ne_zero h
  length_row := fun _ hrow => Grid.length_of_mem_ofRows Value.empty hrow
  orientation_eq := orientation_gridOfRows rows

end Rows

namespace Value

section Within

variable {u v : Value} {g : Grid Value} {rows : List (List Value)} {p : Number → Prop}

/-- What holds of a value as soon as it holds of its cells holds of every value. -/
theorem cell_induction
    {motive : Value → Prop}
    (step : ∀ v, (∀ c, v.HasCell c → motive c) → motive v)
    (v : Value) :
    motive v :=
  (measure depth).wf.induction v fun v ih => step v fun c hc => ih c (depth_lt_of_hasCell hc)

/-- A value that is no grid has no cells. -/
theorem Within.eq_of_plain
    (h : u.Within v)
    (hv : v.array? = none) :
    u = v := by
  cases h with
  | here =>
      rfl
  | cell hcell _ =>
      obtain ⟨g, rfl, _⟩ := hcell
      cases hv

theorem Proper.grid
    (h : (Value.array g).Proper) :
    g.Proper :=
  h g .here

theorem Proper.cell
    (h : v.Proper)
    {c : Value}
    (hc : v.HasCell c) :
    c.Proper :=
  fun g hg => h g (.cell hc hg)

theorem proper_of_plain
    (hv : v.array? = none) :
    v.Proper := by
  intro g hg
  cases hg.eq_of_plain hv
  cases hv

/-- The grid that is built from rows of proper values is proper at every depth. -/
theorem proper_array
    (hrows : ∀ row ∈ rows, ∀ c ∈ row, c.Proper) :
    (Value.array (gridOfRows rows)).Proper := by
  intro g hg
  cases hg with
  | here =>
      exact proper_gridOfRows rows
  | cell hcell hin =>
      obtain ⟨_, hgrid, row, hrow, hc⟩ := hcell
      cases hgrid
      rcases mem_gridOfRows hrow hc with rfl | ⟨r, hr, hcr⟩
      · exact proper_of_plain rfl g hin
      · exact hrows r hr _ hcr g hin

theorem Numbers.cell
    (h : v.Numbers p)
    {c : Value}
    (hc : v.HasCell c) :
    c.Numbers p :=
  fun n hn => h n (.cell hc hn)

theorem numbers_number
    {n : Number}
    (hn : p n) :
    (Value.number n).Numbers p := by
  intro m hm
  cases hm.eq_of_plain rfl
  exact hn

theorem numbers_of_plain
    (hv : v.array? = none)
    (hnone : v.number? = none) :
    v.Numbers p := by
  intro n hn
  cases hn.eq_of_plain hv
  cases hnone

/-- Building a grid adds no numbers to those in its rows. -/
theorem numbers_array
    (hrows : ∀ row ∈ rows, ∀ c ∈ row, c.Numbers p) :
    (Value.array (gridOfRows rows)).Numbers p := by
  intro n hn
  cases hn with
  | cell hcell hin =>
      obtain ⟨_, hgrid, row, hrow, hc⟩ := hcell
      cases hgrid
      rcases mem_gridOfRows hrow hc with rfl | ⟨r, hr, hcr⟩
      · cases hin.eq_of_plain rfl
      · exact hrows r hr _ hcr n hin

end Within

end Value
end CellBridge
