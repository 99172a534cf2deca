import CellBridge.Cell.Value
import CellBridge.Proofs.Managed.Containment

/-!
# Positions in values and in objects

A position leads from a value to one of its cells, or to a cell in a grid in that cell, and so on.
The same position leads from an object to the element that the cell stands for: `Store.layout` says
how the items of an object are laid out in rows, and `elementAt?` follows it down.

Positions are ordered as the cells are read, row by row and from left to right (`Position.Before`).
-/

namespace CellBridge

section Defs

/-- The row and the column of a cell, then those of a cell in the grid there, and so on. -/
abbrev Position :=
  List (Nat × Nat)

/-- Does the first position come up earlier when cells are read row by row? -/
def Position.Before : Position → Position → Prop
  | (r, c) :: p, (r', c') :: q => r < r' ∨ r = r' ∧ (c < c' ∨ c = c' ∧ Position.Before p q)
  | _, _ => False

/-- The cell of a value at a position; a value that is no grid has no cells but itself. -/
def Value.cellAt? : Value → Position → Option Value
  | v, [] => some v
  | v, (r, c) :: p => (v.array?.bind fun g => g.get? r c).bind fun cell => cell.cellAt? p

namespace Store

/-- The items of an object as the host sees them: arrays and lists in a row, sets in a column, and
arrays of arrays row by row. -/
def layout
    (s : Store)
    (o : Object) : List (List Object) :=
  match o.type with
  | .array (.array _) => (s.contents o.id).map fun row => s.contents row.id
  | .array _ => [s.contents o.id]
  | .list _ => [s.contents o.id]
  | .set _ => (s.contents o.id).map fun x => [x]
  | _ => []

/-- The element of an object at a position. -/
def elementAt?
    (s : Store) : Object → Position → Option Object
  | o, [] => some o
  | o, (r, c) :: p => ((s.layout o)[r]?.bind fun row => row[c]?).bind fun x => s.elementAt? x p

end Store

end Defs

section Order

variable {r r' c c' : Nat} {p q : Position}

theorem Position.before_of_row
    (h : r < r') :
    Position.Before ((r, c) :: p) ((r', c') :: q) := by
  exact Or.inl h

theorem Position.before_of_column
    (h : c < c') :
    Position.Before ((r, c) :: p) ((r, c') :: q) := by
  exact Or.inr ⟨rfl, Or.inl h⟩

theorem Position.Before.below
    (h : Position.Before p q) :
    Position.Before ((r, c) :: p) ((r, c) :: q) := by
  exact Or.inr ⟨rfl, Or.inr ⟨rfl, h⟩⟩

end Order

section Cells

variable {v : Value} {p : Position} {k k' : Handle}

/-- A value that is neither a grid nor a handle shows no handle anywhere. -/
theorem cellAt?_ne_handle
    (harray : v.array? = none)
    (hhandle : v.handle? = none) :
    v.cellAt? p ≠ some (.handle k) := by
  cases p with
  | nil =>
      rintro ⟨⟩
      cases hhandle
  | cons rc p =>
      simp [Value.cellAt?, harray]

theorem cellAt?_handle :
    (Value.handle k).cellAt? p = some (.handle k') ↔ p = [] ∧ k = k' := by
  cases p <;> simp [Value.cellAt?, Value.array?]

/-- What a row is filled up with shows no handle. -/
theorem cellAt?_padRow
    (row : List Value)
    (width c : Nat) :
    ((Grid.padRow .empty width row)[c]?.bind fun cell => cell.cellAt? p) = some (.handle k) ↔
      (row[c]?.bind fun cell => cell.cellAt? p) = some (.handle k) := by
  rw [Grid.padRow, List.getElem?_append]
  split
  · rfl
  · rename_i hc
    rw [List.getElem?_eq_none (Nat.le_of_not_lt hc), List.getElem?_replicate]
    split
    · simpa using cellAt?_ne_handle rfl rfl
    · rfl

/-- A grid shows a handle where its rows do. -/
theorem cellAt?_gridOfRows
    (rows : List (List Value))
    (r c : Nat) :
    (Value.array (Value.gridOfRows rows)).cellAt? ((r, c) :: p) = some (.handle k) ↔
      ((rows[r]?.bind fun row => row[c]?).bind fun cell => cell.cellAt? p) =
        some (.handle k) := by
  rw [Value.cellAt?, Value.array?, Option.bind_some, Value.gridOfRows, Grid.ofRows]
  split
  · -- without any cells there is a blank, and no row has a cell
    rename_i hwidest
    have hrows : (rows[r]?.bind fun row => row[c]?) = none := by
      cases hrow : rows[r]? with
      | none =>
          rfl
      | some row =>
          have hle := Grid.length_le_widest (List.mem_of_getElem? hrow)
          exact List.getElem?_eq_none (by omega)
    have hsingle : (Grid.single Value.empty).get? r c = none ∨
        (Grid.single Value.empty).get? r c = some .empty := by
      cases r <;> cases c <;> simp [Grid.get?, Grid.single]
    rcases hsingle with h | h
    · rw [h, hrows]
    · rw [h, hrows, Option.bind_some]
      simpa using cellAt?_ne_handle rfl rfl
  · rw [Grid.get?, List.getElem?_map]
    cases rows[r]? with
    | none =>
        rfl
    | some row =>
        exact cellAt?_padRow row _ c

end Cells

end CellBridge
