import CellBridge.Cell.ErrorCode
import CellBridge.Cell.Grid
import CellBridge.Cell.Shape
import CellBridge.Number.Layout

/-!
# Cell values

Everything that the host can hold in a cell or pass as an argument.  A value is a number, a text,
a truth value, a grid of values, a handle to a managed object, an error, a blank, or the mark of
an argument that was left out.

`beq` is the equality of the host: numbers compare by `Number.ieeeEq`, everything else by its
content.
-/

namespace CellBridge

/-- The number by which the host refers to an object on the heap. -/
structure Handle where
  value : UInt64
deriving DecidableEq, Inhabited

/-- A handle as a cell shows it: decimal, never negative. -/
def Handle.display
    (h : Handle) : String :=
  toString h.value.toNat

/-- A cell value. -/
inductive Value where
  | number (n : Number)
  | text (s : String)
  | boolean (b : Bool)
  | array (g : Grid Value)
  | handle (h : Handle)
  | error (e : CellError)
  | empty
  | missing
deriving Inhabited

namespace Value

section Grids

/-- The grid of values with the given rows, filled up with blanks. -/
def gridOfRows
    (rows : List (List Value)) : Grid Value :=
  Grid.ofRows .empty rows

def gridOfRow
    (cells : List Value) : Grid Value :=
  Grid.ofRow .empty cells

def gridOfColumn
    (cells : List Value) : Grid Value :=
  Grid.ofColumn .empty cells

def blankGrid : Grid Value :=
  Grid.single .empty

def isEmpty : Value → Bool
  | .empty => true
  | _ => false

/-- Is the grid a single blank? -/
def isBlankGrid
    (g : Grid Value) : Bool :=
  g.isSingle isEmpty

end Grids

section Views

def shape : Value → Shape
  | .number _ => .number
  | .text _ => .text
  | .boolean _ => .boolean
  | .array _ => .array
  | .handle _ => .handle
  | .error _ => .error
  | .empty => .empty
  | .missing => .missing

def number? : Value → Option Number
  | .number n => some n
  | _ => none

def text? : Value → Option String
  | .text s => some s
  | _ => none

def handle? : Value → Option Handle
  | .handle h => some h
  | _ => none

def array? : Value → Option (Grid Value)
  | .array g => some g
  | _ => none

def isError : Value → Bool
  | .error _ => true
  | _ => false

end Views

section Depth

mutual

/-- How deep grids are nested in a value. -/
def depth : Value → Nat
  | .array g => gridDepth g + 1
  | _ => 0

/-- The depth of the deepest cell of a grid. -/
def gridDepth : Grid Value → Nat
  | ⟨rows, _, _⟩ => rowsDepth rows

/-- The depth of the deepest cell in rows. -/
def rowsDepth : List (List Value) → Nat
  | [] => 0
  | r :: rs => max (cellsDepth r) (rowsDepth rs)

/-- The depth of the deepest cell in a row. -/
def cellsDepth : List Value → Nat
  | [] => 0
  | v :: vs => max v.depth (cellsDepth vs)

end

end Depth

section Equality

mutual

/-- Equality as the host compares values. -/
def beq : Value → Value → Bool
  | .number a, .number b => a.ieeeEq b
  | .text a, .text b => a == b
  | .boolean a, .boolean b => a == b
  | .array a, .array b => gridBeq a b
  | .handle a, .handle b => a == b
  | .error a, .error b => a == b
  | .empty, .empty => true
  | .missing, .missing => true
  | _, _ => false

/-- Equality of grids: rows, widths and orientations. -/
def gridBeq : Grid Value → Grid Value → Bool
  | ⟨as, w, o⟩, ⟨bs, w', o'⟩ => rowsBeq as bs && w == w' && o == o'

/-- Equality of rows, one by one. -/
def rowsBeq : List (List Value) → List (List Value) → Bool
  | [], [] => true
  | a :: as, b :: bs => cellsBeq a b && rowsBeq as bs
  | _, _ => false

/-- Equality of cells, one by one. -/
def cellsBeq : List Value → List Value → Bool
  | [], [] => true
  | a :: as, b :: bs => a.beq b && cellsBeq as bs
  | _, _ => false

end

instance : BEq Value where
  beq := beq

instance : BEq (Grid Value) where
  beq := gridBeq

end Equality

end Value
end CellBridge
