/-!
# Shapes of cell values

The kind of a cell value without its content.  `any` is the shape of no value: a rule that
declares it accepts values of every shape.
-/

namespace CellBridge

/-- The kinds of cell values, and the wildcard. -/
inductive Shape where
  | number
  | text
  | boolean
  | array
  | handle
  | error
  | empty
  | missing
  | any
deriving DecidableEq, Inhabited

namespace Shape

def display : Shape → String
  | .number => "Number"
  | .text => "Text"
  | .boolean => "Boolean"
  | .array => "Array"
  | .handle => "Handle"
  | .error => "Error"
  | .empty => "Empty"
  | .missing => "Missing"
  | .any => "Any"

/-- May a value of the shape `supplied` be given where `declared` is declared? -/
def accepts
    (declared supplied : Shape) : Bool :=
  declared == .any || declared == supplied

@[simp] theorem any_accepts
    (s : Shape) :
    accepts .any s = true := by
  rfl

@[simp] theorem accepts_self
    (s : Shape) :
    accepts s s = true := by
  simp [accepts]

end Shape
end CellBridge
