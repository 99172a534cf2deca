import CellBridge.Conversion.Catalog
import CellBridge.Conversion.Reference
import CellBridge.Conversion.Sequence

/-!
# The standard rules

The rules that come with the bridge, in the order of their registration.  Doubles stand ahead of
the integer types, so that a number becomes a double where any object will do.
-/

namespace CellBridge

/-- The standard rules in the order of their registration. -/
def standardRules : List Rule :=
  [Scalar.double, Scalar.int, Scalar.long, Scalar.short, Scalar.byte, Scalar.boolean,
    Scalar.string, Scalar.empty, Scalar.missing, Reference.tagged, Sequence.array, Sequence.list,
    Sequence.jagged, Reference.enum, Sequence.set, Reference.boxing, Scalar.byteText]

def Catalog.withStandardRules
    (c : Catalog) : Catalog :=
  standardRules.foldl Catalog.register c

/-- The catalog of the standard rules alone. -/
def standardCatalog : Catalog :=
  Catalog.empty.withStandardRules

end CellBridge
