import CellBridge.Conversion.Rule

/-!
# Rules for sequences

Arrays, nested arrays, lists and sets on the managed side are grids on the host side.  An array
or a list is a row, a set is a column, and an array of arrays is an area whose short rows are
filled up with blanks.  A grid of a single blank stands for no elements at all.

The elements are converted one by one through the catalog.  Cells of one range tend to be alike,
so each direction keeps the conversion that it used last: `readLine` as long as the shape stays
the same, `writeItems` as long as the runtime type does.
-/

namespace CellBridge
namespace Sequence

section Elements

/-- Reads cells from left to right; `last` is the reader used before, and its shape. -/
def readLineFrom
    (cx : Conversions)
    (elem : Ty)
    (last : Option (Shape × Reader)) : List Value → Action (List Object)
  | [] => return []
  | v :: vs => do
      let lookup : Action Reader :=
        Action.orFail (.noCompatibleConverter v.shape elem.display) (cx.reader? v.shape elem)
      let reader ←
        match last with
        | some (s, r) => if s = v.shape then pure r else lookup
        | none => lookup
      let o ← reader elem v
      let os ← readLineFrom cx elem (some (v.shape, reader)) vs
      return o :: os

/-- Reads the cells of a row or a column as objects of type `elem`. -/
def readLine
    (cx : Conversions)
    (elem : Ty)
    (cells : List Value) : Action (List Object) :=
  readLineFrom cx elem none cells

/-- The writer for a runtime type, or else the one for the declared type. -/
def lookupWriter
    (cx : Conversions)
    (declared actual : Ty) : Action Writer :=
  Action.orFail (.noReturnConverter actual.display)
    ((cx.writer? actual).or (cx.writer? declared))

/-- Writes objects from left to right; `last` is the writer used before, and its type. -/
def writeItemsFrom
    (cx : Conversions)
    (declared : Ty)
    (last : Option (Ty × Writer)) : List Object → Action (List Value)
  | [] => return []
  | o :: os => do
      let (t, writer) ←
        match last with
        | some (t, w) =>
            if t == o.type then
              pure (t, w)
            else
              (o.type, ·) <$> lookupWriter cx declared o.type
        | none => (o.type, ·) <$> lookupWriter cx declared o.type
      let v ← writer o
      let vs ← writeItemsFrom cx declared (some (t, writer)) os
      return v :: vs

/-- Writes objects as cells.  The runtime type of an object decides how; `declared` is the type to
fall back to. -/
def writeItems
    (cx : Conversions)
    (declared : Ty)
    (items : List Object) : Action (List Value) :=
  writeItemsFrom cx declared none items

end Elements

section Grids

def notAnArray
    (v : Value) : BridgeError :=
  .conversion ("expected an array, got " ++ v.shape.display)

/-- The cells of a one-dimensional grid.  An area has no order of its own and is refused. -/
def lineOf
    (target : Ty)
    (v : Value) : Action (List Value) := do
  let g ← Action.orFail (notAnArray v) v.array?
  if Value.isBlankGrid g then
    return []
  else
    Action.orFail
      (.conversion (toString g.rowCount ++ "x" ++ toString g.columnCount ++
        " area cannot be converted to " ++ target.display))
      g.line?

def rowValue
    (cells : List Value) : Value :=
  .array (if cells.isEmpty then Value.blankGrid else Value.gridOfRow cells)

def columnValue
    (cells : List Value) : Value :=
  .array (if cells.isEmpty then Value.blankGrid else Value.gridOfColumn cells)

/-- The cells of a row up to the last one that is not a blank. -/
def trimRow
    (row : List Value) : List Value :=
  (row.reverse.dropWhile Value.isEmpty).reverse

/-- The items of an object, or a failure that says what the object is not. -/
def itemsOf
    (what : String)
    (items? : Payload → Option (List Object))
    (o : Object) : Action (List Object) := do
  Action.orFail (.conversion (o.type.display ++ " is not " ++ what))
    (items? (← Action.payload o))

end Grids

section Rules

/-- Reads the cells of a one-dimensional grid and collects them with `make`. -/
def readInto
    (make : Ty → List Object → Action Object)
    (cx : Conversions)
    (expected : Ty)
    (v : Value) : Action Object := do
  let cells ← lineOf expected v
  let items ← readLine cx expected.elementOrAny cells
  make expected.elementOrAny items

/-- Arrays as rows. -/
def array : Rule :=
  { name := "array"
    shape := .array
    type := .array .any
    priority := Priority.standard
    canProduce := fun
      | .array _ => true
      | .any => true
      | _ => false
    canConvert := fun actual => (Ty.array .any).accepts actual
    toCell := fun cx o => do
      let items ← itemsOf "an array" Payload.array? o
      return rowValue (← writeItems cx o.type.elementOrAny items)
    toManaged := readInto Action.createArray }

/-- Lists as rows. -/
def list : Rule :=
  { name := "list"
    shape := .array
    type := .list .any
    priority := Priority.standard
    canProduce := fun
      | .list _ => true
      | _ => false
    canConvert := fun actual => (Ty.list .any).accepts actual
    toCell := fun cx o => do
      let items ← itemsOf "a list" Payload.list? o
      return rowValue (← writeItems cx o.type.elementOrAny items)
    toManaged := readInto Action.createList }

/-- Sets as columns. -/
def set : Rule :=
  { name := "set"
    shape := .array
    type := .set .any
    priority := Priority.collection
    canProduce := fun
      | .set _ => true
      | _ => false
    canConvert := fun actual => (Ty.set .any).accepts actual
    toCell := fun cx o => do
      let items ← itemsOf "a set" Payload.set? o
      return columnValue (← writeItems cx o.type.elementOrAny items)
    toManaged := readInto Action.createSet }

/-- Writes the rows of an array of arrays. -/
def writeRows
    (cx : Conversions)
    (declared : Ty) : List Object → Action (List (List Value))
  | [] => return []
  | o :: os => do
      let items ← itemsOf "an array" Payload.array? o
      let row ← writeItems cx declared items
      let rows ← writeRows cx declared os
      return row :: rows

/-- Reads the rows of a grid as arrays of elements of type `elem`. -/
def readRows
    (cx : Conversions)
    (elem : Ty) : List (List Value) → Action (List Object)
  | [] => return []
  | row :: rows => do
      let items ← readLine cx elem (trimRow row)
      let o ← Action.createArray elem items
      let os ← readRows cx elem rows
      return o :: os

/-- Reads a grid as an array of arrays, without the blanks at the end of each row. -/
def readJagged
    (cx : Conversions)
    (expected : Ty)
    (v : Value) : Action Object := do
  let inner := expected.elementOrAny
  let g ← Action.orFail (notAnArray v) v.array?
  if Value.isBlankGrid g then
    Action.createArray inner []
  else
    Action.createArray inner (← readRows cx inner.elementOrAny g.rows)

/-- Arrays of arrays as areas. -/
def jagged : Rule :=
  { name := "jagged-array"
    shape := .array
    type := .array (.array .any)
    priority := Priority.jagged
    canProduce := fun
      | .array (.array _) => true
      | _ => false
    canConvert := fun actual => (Ty.array (.array .any)).accepts actual
    toCell := fun cx o => do
      let outer ← itemsOf "an array" Payload.array? o
      let declared := o.type.elementOrAny.elementOrAny
      return .array (Value.gridOfRows (← writeRows cx declared outer))
    toManaged := readJagged }

end Rules

end Sequence
end CellBridge
