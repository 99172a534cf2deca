import CellBridge.Conversion.Action

/-!
# Conversion rules

A rule converts between one shape of cell values and one managed type, in both directions.  What
it accepts is its own decision: `canProduce` and `canConvert` default to assignability, and a rule
may replace them.

While a rule runs, it reaches the world through its action and all other conversions through a
`Conversions`.  That is a pair of lookups and holds no rules, so rules can be ordinary values with
arbitrary functions.
-/

namespace CellBridge

namespace Priority

/-- Nested arrays, ahead of plain arrays. -/
def jagged : Int32 := 11

/-- Scalars, arrays and lists. -/
def standard : Int32 := 10

def enum : Int32 := 7

/-- Sets, behind lists. -/
def collection : Int32 := 6

/-- Objects behind handles, where nothing better applies. -/
def boxing : Int32 := 0

/-- Numbers out of text, behind everything else. -/
def textFallback : Int32 := -1

end Priority

/-- Makes an object of a wanted type from a cell value. -/
abbrev Reader :=
  Ty → Value → Action Object

/-- Makes a cell value from an object. -/
abbrev Writer :=
  Object → Action Value

/-- The conversions that a rule can call. -/
structure Conversions where
  /-- How values of a shape are read where a type is wanted. -/
  reader? : Shape → Ty → Option Reader
  /-- How objects of a type are written. -/
  writer? : Ty → Option Writer

/-- A conversion rule. -/
structure Rule where
  name : String
  /-- The shape that the rule reads. -/
  shape : Shape
  /-- The type that the rule makes and takes. -/
  type : Ty
  priority : Int32
  /-- Can the rule make something that fits where the type is wanted? -/
  canProduce : Ty → Bool
  /-- Can the rule take objects of the type? -/
  canConvert : Ty → Bool
  toCell : Conversions → Writer
  toManaged : Conversions → Reader

namespace Rule

/-- A rule that makes and takes what fits its type. -/
def ofType
    (name : String)
    (shape : Shape)
    (type : Ty)
    (priority : Int32)
    (toCell : Conversions → Writer)
    (toManaged : Conversions → Reader) : Rule :=
  { name := name
    shape := shape
    type := type
    priority := priority
    canProduce := fun required => required.accepts type
    canConvert := fun actual => type.accepts actual
    toCell := toCell
    toManaged := toManaged }

/-- Does the rule read the shape where the type is wanted? -/
def reads
    (r : Rule)
    (s : Shape)
    (required : Ty) : Bool :=
  r.shape.accepts s && r.canProduce required

/-- A rule in detailed dumps. -/
def dump
    (r : Rule) : String :=
  r.name ++ "(" ++ r.shape.display ++ " <-> " ++ r.type.display ++ ", priority " ++
    toString r.priority.toInt ++ ")"

end Rule
end CellBridge
