import CellBridge.Text.Blank
import CellBridge.Text.Quoted

/-!
# Host errors

The error codes that a cell can hold, their spelling in a cell, and their numbers.  A cell error
is a code and possibly an explanation; the host itself sees the code alone.
-/

namespace CellBridge

/-- The error codes of the host. -/
inductive ErrorCode where
  | null
  | div
  | value
  | ref
  | name
  | num
  | na
  | gettingData
deriving DecidableEq, Inhabited

namespace ErrorCode

/-- All codes, in the order of their positions. -/
def all : List ErrorCode :=
  [.null, .div, .value, .ref, .name, .num, .na, .gettingData]

/-- A code as the host shows it. -/
def display : ErrorCode → String
  | .null => "#NULL!"
  | .div => "#DIV/0!"
  | .value => "#VALUE!"
  | .ref => "#REF!"
  | .name => "#NAME?"
  | .num => "#NUM!"
  | .na => "#N/A"
  | .gettingData => "#GETTING_DATA"

/-- The name of a code, in detailed dumps and in exchanged documents. -/
def label : ErrorCode → String
  | .null => "Null"
  | .div => "Div"
  | .value => "Value"
  | .ref => "Ref"
  | .name => "Name"
  | .num => "Num"
  | .na => "Na"
  | .gettingData => "GettingData"

/-- The number by which the host stores a code. -/
def number : ErrorCode → Nat
  | .null => 0
  | .div => 7
  | .value => 15
  | .ref => 23
  | .name => 29
  | .num => 36
  | .na => 42
  | .gettingData => 43

/-- The position of a code among all codes. -/
def index : ErrorCode → Nat
  | .null => 0
  | .div => 1
  | .value => 2
  | .ref => 3
  | .name => 4
  | .num => 5
  | .na => 6
  | .gettingData => 7

/-- The code that a text shows, blanks around it and the case of its letters aside. -/
def parse?
    (s : String) : Option ErrorCode :=
  all.find? fun c =>
    Text.lowerAscii c.display.toList == Text.lowerAscii (Text.trim s.toList)

def ofLabel?
    (s : String) : Option ErrorCode :=
  all.find? fun c => c.label == s

/-- Is the text exactly the spelling of the code? -/
def shows
    (c : ErrorCode)
    (s : String) : Bool :=
  c.display == s

end ErrorCode

/-- An error code with an optional explanation. -/
structure CellError where
  code : ErrorCode
  message : Option String := none
deriving DecidableEq, Inhabited

namespace CellError

/-- An error in text: the code, then its explanation. -/
def display
    (e : CellError) : String :=
  match e.message with
  | none => e.code.display
  | some m => e.code.display ++ ": " ++ m

def dump
    (e : CellError) : String :=
  "XlError \x7b kind: " ++ e.code.label ++ ", message: " ++
    (match e.message with
    | none => "None"
    | some m => "Some(" ++ Text.quoted m ++ ")") ++ " \x7d"

/-- Is the text exactly the spelling of the code?  The explanation does not count. -/
def shows
    (e : CellError)
    (s : String) : Bool :=
  e.code.shows s

end CellError
end CellBridge
