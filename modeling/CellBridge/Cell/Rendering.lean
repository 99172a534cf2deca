import CellBridge.Cell.Value

/-!
# Cell values in text

`Value.display` is what a cell shows: blanks show nothing and a grid shows the dump of its rows.
`Value.dump` is the detailed form, which names the kind of every value and quotes every text.
-/

namespace CellBridge

/-- Texts in square brackets, a comma and a space between them. -/
def bracketed
    (parts : List String) : String :=
  "[" ++ String.intercalate ", " parts ++ "]"

namespace Value

/-- A truth value as a cell shows it. -/
def truthText
    (b : Bool) : String :=
  if b then "TRUE" else "FALSE"

mutual

def dump : Value → String
  | .number n => "Number(" ++ n.dump ++ ")"
  | .text s => "Text(" ++ Text.quoted s ++ ")"
  | .boolean b => "Boolean(" ++ (if b then "true" else "false") ++ ")"
  | .array g => "Array(" ++ gridDump g ++ ")"
  | .handle h => "HandleRef(ObjectHandle(" ++ h.display ++ "))"
  | .error e => "Error(" ++ e.dump ++ ")"
  | .empty => "Empty"
  | .missing => "Missing"

def gridDump : Grid Value → String
  | ⟨rows, width, orientation⟩ =>
      "XlArray \x7b rows: " ++ bracketed (rowDumps rows) ++ ", width: " ++ toString width ++
        ", orientation: " ++ orientation.label ++ " \x7d"

/-- The rows of a grid in detail, one text a row. -/
def rowDumps : List (List Value) → List String
  | [] => []
  | r :: rs => bracketed (cellDumps r) :: rowDumps rs

/-- The cells of a row in detail, one text a cell. -/
def cellDumps : List Value → List String
  | [] => []
  | v :: vs => v.dump :: cellDumps vs

end

/-- A value as a cell shows it. -/
def display : Value → String
  | .number n => n.display
  | .text s => s
  | .boolean b => truthText b
  | .array g => bracketed (rowDumps g.rows)
  | .handle h => "#handle:" ++ h.display
  | .error e => e.display
  | .empty => ""
  | .missing => ""

end Value
end CellBridge
