import CellBridge.Conversion.Catalog
import CellBridge.Conversion.Sequence

/-!
# Lines of cells

The conversions of whole lines by the rules of a catalog: cells to objects, and objects to cells.
-/

namespace CellBridge
namespace Catalog

/-- Reads cells from left to right as objects of type `elem`. -/
def readLine
    (c : Catalog)
    (elem : Ty)
    (cells : List Value) : Action (List Object) := do
  let w ← get
  Sequence.readLine (c.conversions (Value.cellsDepth cells + w.store.size + 2 + c.room)) elem cells

/-- Writes objects from left to right; `declared` is the type to fall back to. -/
def writeItems
    (c : Catalog)
    (declared : Ty)
    (items : List Object) : Action (List Value) := do
  let w ← get
  Sequence.writeItems (c.conversions (w.store.size + 2 + c.room)) declared items

end Catalog
end CellBridge
