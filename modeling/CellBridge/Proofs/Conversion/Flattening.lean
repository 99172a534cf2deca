import CellBridge.Proofs.Cell.Grids

/-!
# Grids that are read as sequences

Arrays, lists and sets are read from grids of one row or one column.  A grid with more rows and more
columns than one is refused before any cell is looked at.  In all other grids the cells are read one
by one in their order, each by the rule that the catalog finds for its shape: `Action.Passes` is
such a pass in which every cell can be read, and the first cell that cannot be read ends it.

`lines_read_cell_by_cell` says this of every catalog and every grid.  The row and the column of the
same cells are read alike.
-/

namespace CellBridge

section Defs

/-- The step is run on the items one after the other, and gives a result for each. -/
inductive Action.Passes
    {α β : Type}
    (step : α → Action β) : List α → World → List β → World → Prop
  | nil
      {w : World} :
      Passes step [] w [] w
  | cons
      {x : α} {xs : List α}
      {y : β} {ys : List β}
      {w w₁ w₂ : World}
      (head : step x w = (.ok y, w₁))
      (tail : Passes step xs w₁ ys w₂) :
      Passes step (x :: xs) w (y :: ys) w₂

/-- Reads a value by the rule that the catalog finds for its shape, with others nested at most `n`
deep. -/
def Catalog.readAlone
    (c : Catalog)
    (n : Nat)
    (t : Ty)
    (v : Value) : Action Object := do
  let rule ← Action.orFail (.noCompatibleConverter v.shape t.display) (c.findByShape? v.shape t)
  rule.toManaged (c.conversions n) t v

/-- The cells of a grid row by row.  A lone blank is no cell. -/
def Value.gridCells
    (g : Grid Value) : List Value :=
  if isBlankGrid g then [] else g.cells

/-- The collections that are read from rows and columns. -/
inductive LineKind where
  | array
  | list
  | set

namespace LineKind

def rule : LineKind → Rule
  | .array => Sequence.array
  | .list => Sequence.list
  | .set => Sequence.set

/-- The collections of elements of type `e`. -/
def type
    (e : Ty) : LineKind → Ty
  | .array => .array e
  | .list => .list e
  | .set => .set e

/-- What the collection keeps of the items that were read: a set keeps of equal items the first. -/
def payload
    (s : Store)
    (items : List Object) : LineKind → Payload
  | .array => .array items
  | .list => .list items
  | .set => .set (s.distinct items)

/-- Makes the collection of the items that were read. -/
def collect
    (k : LineKind)
    (e : Ty)
    (items : List Object) : Action Object := do
  let w ← get
  Action.create (k.type e) (k.payload w.store items)

end LineKind

end Defs

section Passes

variable {α β : Type} {step : α → Action β} {xs : List α} {w w' : World}

/-- A pass gives its results exactly if each step gives one. -/
theorem mapM_run_eq_ok
    {ys : List β} :
    xs.mapM step w = (.ok ys, w') ↔ Action.Passes step xs w ys w' := by
  constructor
  · intro h
    induction xs generalizing w ys with
    | nil =>
        cases h
        exact .nil
    | cons x xs ih =>
        rw [List.mapM_cons] at h
        obtain ⟨y, w₁, hhead, hrest⟩ := bind_run_eq_ok.1 h
        obtain ⟨ys', w₂, htail, hdone⟩ := bind_run_eq_ok.1 hrest
        cases hdone
        exact .cons hhead (ih htail)
  · intro h
    induction h with
    | nil =>
        rfl
    | cons hhead _ ih =>
        rw [List.mapM_cons, bind_run_ok hhead, bind_run_ok ih]
        rfl

/-- A pass ends with a fault exactly if some step does after all before it gave a result. -/
theorem mapM_run_eq_error
    {f : Fault} :
    xs.mapM step w = (.error f, w') ↔
      ∃ before x after ys w₁, xs = before ++ x :: after ∧ Action.Passes step before w ys w₁ ∧
        step x w₁ = (.error f, w') := by
  constructor
  · intro h
    induction xs generalizing w with
    | nil =>
        cases h
    | cons x xs ih =>
        rw [List.mapM_cons] at h
        cases hhead : step x w with
        | mk result w₁ =>
            cases result with
            | error f' =>
                rw [bind_run_error hhead] at h
                cases h
                exact ⟨[], x, xs, [], w, rfl, .nil, hhead⟩
            | ok y =>
                rw [bind_run_ok hhead] at h
                cases htail : xs.mapM step w₁ with
                | mk result w₂ =>
                    cases result with
                    | ok ys =>
                        rw [bind_run_ok htail] at h
                        cases h
                    | error f' =>
                        rw [bind_run_error htail] at h
                        cases h
                        obtain ⟨before, x', after, ys, w₃, rfl, hpasses, hfault⟩ := ih htail
                        exact ⟨x :: before, x', after, y :: ys, w₃, rfl, .cons hhead hpasses,
                          hfault⟩
  · rintro ⟨before, x, after, ys, w₁, rfl, hpasses, hfault⟩
    induction hpasses with
    | nil =>
        rw [List.nil_append, List.mapM_cons, bind_run_error hfault]
    | cons hhead _ ih =>
        rw [List.cons_append, List.mapM_cons, bind_run_ok hhead, bind_run_error (ih hfault)]

end Passes

section Lines

variable {g : Grid Value} {rows : List (List Value)} {cells : List Value}

theorem filterMap_head?_of_length
    (h : ∀ row ∈ rows, row.length = 1) :
    rows.filterMap List.head? = rows.flatten := by
  induction rows with
  | nil =>
      rfl
  | cons row rows ih =>
      obtain ⟨hrow, hrows⟩ := List.forall_mem_cons.1 h
      obtain ⟨c, rfl⟩ := List.length_eq_one_iff.1 hrow
      have hhead : List.head? [c] = some c := rfl
      rw [List.filterMap_cons_some hhead, ih hrows, List.flatten_cons, List.singleton_append]

/-- The cells of a row or of a column are all cells of the grid. -/
theorem Grid.Proper.line?_eq
    (hg : g.Proper)
    (hline : ¬ (1 < g.rowCount ∧ 1 < g.columnCount)) :
    g.line? = some g.cells := by
  obtain ⟨hne, hpos, hlength, horientation⟩ := hg
  rw [Grid.line?, horientation, Orientation.ofSize]
  by_cases hone : g.rows.length = 1
  · obtain ⟨row, hrow⟩ := List.length_eq_one_iff.1 hone
    rw [if_pos hone, hrow, Grid.cells, hrow]
    exact congrArg some (List.flatten_singleton).symm
  · have hrows := List.length_pos_of_ne_nil hne
    have hwidth : g.width ≤ 1 := by
      by_contra hwide
      refine hline ⟨?_, ?_⟩
      · show 1 < g.rows.length
        omega
      · show 1 < g.width
        omega
    rw [if_neg hone, if_pos hwidth]
    refine congrArg some (filterMap_head?_of_length ?_)
    intro row hrow
    rw [hlength row hrow]
    omega

/-- A grid of one row or one column shows all its cells as a line. -/
theorem Grid.Proper.isLine
    (hg : g.Proper)
    (hline : ¬ (1 < g.rowCount ∧ 1 < g.columnCount)) :
    (Value.array g).IsLine (Value.gridCells g) := by
  refine ⟨g, rfl, ?_⟩
  by_cases hblank : Value.isBlankGrid g = true
  · rw [Value.gridCells, if_pos hblank, if_pos hblank]
  · rw [Value.gridCells, if_neg hblank, if_neg hblank]
    exact hg.line?_eq hline

/-- A grid with more rows and more columns than one has no line. -/
theorem Grid.Proper.lineOf_run_area
    (hg : g.Proper)
    (harea : 1 < g.rowCount ∧ 1 < g.columnCount)
    (target : Ty)
    (w : World) :
    Sequence.lineOf target (.array g) w =
      (.error (.failed (.conversion (toString g.rowCount ++ "x" ++ toString g.columnCount ++
        " area cannot be converted to " ++ target.display))), w) := by
  have hblank : Value.isBlankGrid g = false := by
    rw [Value.isBlankGrid, Grid.isSingle, beq_false_of_ne (Nat.ne_of_gt harea.1), Bool.false_and,
      Bool.false_and]
  have hnone : g.line? = none := by
    have hrows : g.rows.length ≠ 1 := Nat.ne_of_gt harea.1
    have hwidth : ¬ g.width ≤ 1 := Nat.not_le.2 harea.2
    rw [Grid.line?, hg.orientation_eq, Orientation.ofSize, if_neg hrows, if_neg hwidth]
  rw [Sequence.lineOf, Value.array?, bind_run_ok (Action.orFail_some_run _ g w), hblank, hnone]
  rfl

theorem rows_gridOfRow
    (c : Value)
    (cells : List Value) :
    (Value.gridOfRow (c :: cells)).rows = [c :: cells] := by
  have hne : Grid.widest [c :: cells] ≠ 0 := by
    rw [widest_singleton]
    exact Nat.succ_ne_zero _
  show (Value.gridOfRows [c :: cells]).rows = _
  rw [gridOfRows_of_widest hne, widest_singleton, List.map_singleton, padRow_length]

theorem rows_gridOfColumn
    (c : Value)
    (cells : List Value) :
    (Value.gridOfColumn (c :: cells)).rows = (c :: cells).map fun c => [c] := by
  have hwidest := widest_column c cells
  have hne : Grid.widest ((c :: cells).map fun c => [c]) ≠ 0 := by
    rw [hwidest]
    exact Nat.one_ne_zero
  show (Value.gridOfRows ((c :: cells).map fun c => [c])).rows = _
  rw [gridOfRows_of_widest hne, hwidest, List.map_map]
  rfl

theorem rowsDepth_map_singleton
    (cells : List Value) :
    Value.rowsDepth (cells.map fun c => [c]) = Value.cellsDepth cells := by
  induction cells with
  | nil =>
      rfl
  | cons c cells ih =>
      rw [List.map_cons, Value.rowsDepth, ih, Value.cellsDepth, Value.cellsDepth, Value.cellsDepth,
        Nat.max_zero]

/-- The row and the column of the same cells are nested equally deep. -/
theorem depth_gridOfColumn
    (cells : List Value) :
    (Value.array (Value.gridOfColumn cells)).depth =
      (Value.array (Value.gridOfRow cells)).depth := by
  cases cells with
  | nil =>
      rfl
  | cons c cells =>
      rw [Value.depth, Value.depth, Value.gridDepth.eq_def, Value.gridDepth.eq_def]
      show Value.rowsDepth (Value.gridOfColumn (c :: cells)).rows + 1 =
        Value.rowsDepth (Value.gridOfRow (c :: cells)).rows + 1
      rw [rows_gridOfColumn, rows_gridOfRow, rowsDepth_map_singleton, Value.rowsDepth,
        Value.rowsDepth, Nat.max_zero]

end Lines

section Reading

variable {c : Catalog} {n : Nat} {t : Ty} {cells : List Value} {w w' : World}

/-- Looking a reader up is looking a rule up. -/
theorem readCell_eq_readAlone
    (c : Catalog)
    (n : Nat)
    (t : Ty)
    (v : Value) :
    Sequence.readCell (c.conversions (n + 1)) t v = c.readAlone n t v := by
  rw [Sequence.readCell, Catalog.conversions, Catalog.readAlone]
  dsimp only
  cases c.findByShape? v.shape t <;> rfl

theorem readLine_eq_readAlone
    (c : Catalog)
    (n : Nat)
    (t : Ty)
    (cells : List Value) :
    Sequence.readLine (c.conversions (n + 1)) t cells = cells.mapM (c.readAlone n t) := by
  rw [Sequence.readLine_eq_mapM]
  exact congrArg (cells.mapM ·) (funext (readCell_eq_readAlone c n t))

/-- The collection is made of the items when all of them are read. -/
theorem LineKind.toManaged_eq
    (k : LineKind)
    (cx : Conversions)
    (t : Ty)
    (v : Value) :
    k.rule.toManaged cx t v = (Sequence.lineOf t v >>= fun cells =>
      Sequence.readLine cx t.elementOrAny cells >>= k.collect t.elementOrAny) := by
  cases k <;> rfl

variable {g : Grid Value} {k : LineKind}

/-- A line is read cell by cell, and the collection is made of what was read. -/
theorem LineKind.toManaged_run_line
    (hline : (Value.array g).IsLine cells)
    (w : World) :
    k.rule.toManaged (c.conversions (n + 1)) t (.array g) w =
      (cells.mapM (c.readAlone n t.elementOrAny) >>= k.collect t.elementOrAny) w := by
  rw [LineKind.toManaged_eq, bind_run_ok (hline.lineOf_run t w), readLine_eq_readAlone]

theorem LineKind.toManaged_run_ok
    (hline : (Value.array g).IsLine cells)
    {o : Object} :
    k.rule.toManaged (c.conversions (n + 1)) t (.array g) w = (.ok o, w') ↔
      ∃ items w₁, Action.Passes (c.readAlone n t.elementOrAny) cells w items w₁ ∧
        Action.create (k.type t.elementOrAny) (k.payload w₁.store items) w₁ = (.ok o, w') := by
  rw [LineKind.toManaged_run_line hline, bind_run_eq_ok]
  simp only [mapM_run_eq_ok]
  rfl

/-- Making the collection succeeds, so a fault is that of a cell. -/
theorem LineKind.toManaged_run_error
    (hline : (Value.array g).IsLine cells)
    {f : Fault} :
    k.rule.toManaged (c.conversions (n + 1)) t (.array g) w = (.error f, w') ↔
      ∃ before v after items w₁, cells = before ++ v :: after ∧
        Action.Passes (c.readAlone n t.elementOrAny) before w items w₁ ∧
          c.readAlone n t.elementOrAny v w₁ = (.error f, w') := by
  rw [LineKind.toManaged_run_line hline, ← mapM_run_eq_error]
  cases hpass : cells.mapM (c.readAlone n t.elementOrAny) w with
  | mk result w₁ =>
      cases result with
      | error f' =>
          rw [bind_run_error hpass]
          constructor <;>
            · intro h
              cases h
              rfl
      | ok items =>
          rw [bind_run_ok hpass]
          refine iff_of_false ?_ ?_ <;>
            · intro h
              cases h

/-- Without rules, a grid that is a line is not refused as an area is. -/
theorem LineKind.toManaged_empty_ne
    (hline : (Value.array g).IsLine cells)
    (m : String) :
    k.rule.toManaged (Catalog.empty.conversions (n + 1)) t (.array g) w ≠
      (.error (.failed (.conversion m)), w) := by
  intro h
  obtain ⟨before, v, after, items, w₁, -, -, hfault⟩ := (LineKind.toManaged_run_error hline).1 h
  cases hfault

/-- An array, a list or a set is refused, whatever the rules are, if the grid has more rows and more
columns than one.  Otherwise the cells are read one by one, a lone blank being none: if all can be
read, the collection holds the objects in order, and if not, the fault of the first cell that cannot
be read ends the conversion.  A row and a column of the same cells are read alike. -/
theorem lines_read_cell_by_cell
    (c : Catalog)
    (n : Nat)
    (k : LineKind)
    (t : Ty)
    (rows : List (List Value))
    (w : World) :
    let g := Value.gridOfRows rows
    let e := t.elementOrAny
    let read := fun (c : Catalog) => k.rule.toManaged (c.conversions (n + 1)) t (.array g)
    ((∃ m, ∀ c, read c w = (.error (.failed (.conversion m)), w)) ↔
        1 < g.rowCount ∧ 1 < g.columnCount) ∧
      (¬ (1 < g.rowCount ∧ 1 < g.columnCount) →
        (∀ o w', read c w = (.ok o, w') ↔
            ∃ items w₁, Action.Passes (c.readAlone n e) (Value.gridCells g) w items w₁ ∧
              Action.create (k.type e) (k.payload w₁.store items) w₁ = (.ok o, w')) ∧
          ∀ f w', read c w = (.error f, w') ↔
            ∃ before v after items w₁, Value.gridCells g = before ++ v :: after ∧
              Action.Passes (c.readAlone n e) before w items w₁ ∧
                c.readAlone n e v w₁ = (.error f, w')) ∧
      ∀ cells, c.read k.rule t (.array (Value.gridOfRow cells)) w =
        c.read k.rule t (.array (Value.gridOfColumn cells)) w := by
  intro g e read
  have hg : g.Proper := proper_gridOfRows rows
  refine ⟨⟨?_, ?_⟩, ?_, ?_⟩
  · rintro ⟨m, hm⟩
    by_contra hnot
    exact LineKind.toManaged_empty_ne (hg.isLine hnot) m (hm Catalog.empty)
  · intro harea
    obtain ⟨m, hrefused⟩ : ∃ m, Sequence.lineOf t (.array g) w =
        (.error (.failed (.conversion m)), w) := ⟨_, hg.lineOf_run_area harea t w⟩
    refine ⟨m, fun c => ?_⟩
    show k.rule.toManaged (c.conversions (n + 1)) t (.array g) w = _
    rw [LineKind.toManaged_eq, bind_run_error hrefused]
  · intro hnot
    have hline := hg.isLine hnot
    exact ⟨fun o w' => LineKind.toManaged_run_ok hline, fun f w' =>
      LineKind.toManaged_run_error hline⟩
  · intro cells
    rw [Catalog.read, Catalog.read, bind_run_ok (get_run w), bind_run_ok (get_run w),
      depth_gridOfColumn, Nat.add_right_comm, LineKind.toManaged_run_line (isLine_gridOfRow cells),
      LineKind.toManaged_run_line (isLine_gridOfColumn cells)]

end Reading

end CellBridge
