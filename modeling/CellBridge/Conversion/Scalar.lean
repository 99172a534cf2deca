import CellBridge.Conversion.Rule
import CellBridge.Number.Casting
import CellBridge.Text.Integer

/-!
# Rules for scalars

Numbers, truth values, texts and blanks.  An integer type takes a number only if the number is an
integer in the range of the type: fractions, infinities and numbers out of range are failures and
never rounded.
-/

namespace CellBridge
namespace Scalar

/-- A value whose shape a rule cannot read. -/
def wrongShape
    (target : String)
    (v : Value) : BridgeError :=
  .conversion ("cannot convert " ++ v.shape.display ++ " to " ++ target)

section Reading

/-- A number as it is. -/
def readDouble : Value → Action Object
  | .number n => Action.create .double (.double n)
  | v => Action.fail (wrongShape "double" v)

/-- A number that is no integer of the target. -/
def notInteger
    (target : String)
    (n : Number) : BridgeError :=
  .conversion (n.display ++ " is not a " ++ target)

/-- An integer between the limits, put into an object by `make`. -/
def readInteger
    (target : String)
    (low high : Int)
    (make : Int → Action Object) : Value → Action Object
  | .number n =>
      if n.isWhole && (Number.ofInt low).le n && n.le (Number.ofInt high) then
        make (n.saturated low high)
      else
        Action.fail (notInteger target n)
  | v => Action.fail (wrongShape target v)

def readByte : Value → Action Object :=
  readInteger "byte" (-128) 127 fun i => Action.create .byte (.byte (Int8.ofInt i))

def readShort : Value → Action Object :=
  readInteger "short" (-32768) 32767 fun i =>
    Action.create .short (.short (Int16.ofInt i))

def readInt : Value → Action Object :=
  readInteger "int" (-2147483648) 2147483647 fun i => Action.create .int (.int (Int32.ofInt i))

/-- A number of sixty-four bits.  The upper limit is no number: it is rounded up to `2 ^ 63`, which
is too large already. -/
def readLong : Value → Action Object
  | .number n =>
      if n.isWhole && (Number.ofInt (-9223372036854775808)).le n &&
          n.lt (Number.ofInt 9223372036854775807) then
        Action.create .long
          (.long (Int64.ofInt (n.saturated (-9223372036854775808) 9223372036854775807)))
      else
        Action.fail (notInteger "long" n)
  | v => Action.fail (wrongShape "long" v)

/-- A number of eight bits, written as text. -/
def readByteText : Value → Action Object
  | .text s =>
      match Text.readInteger 127 s.toList with
      | .ok i => Action.create .byte (.byte (Int8.ofInt i))
      | .error fault =>
          Action.fail
            (.conversion (Text.quoted s ++ " is not a byte: " ++ fault.message))
  | v => Action.fail (wrongShape "byte" v)

def readBool : Value → Action Object
  | .boolean b => Action.create .bool (.bool b)
  | v => Action.fail (wrongShape "boolean" v)

def readText : Value → Action Object
  | .text s => Action.create .text (.text s)
  | v => Action.fail (wrongShape "String" v)

/-- A blank or an argument that was left out. -/
def readBlank : Value → Action Object
  | .empty => Action.create .void .unit
  | .missing => Action.create .void .unit
  | v => Action.fail (wrongShape "void" v)

end Reading

section Writing

/-- The number of an integer. -/
def integerValue
    (i : Int) : Value :=
  .number (Number.ofInt i)

/-- The blank that stands for an object without a value. -/
def blankValue?
    (o : Object) : Option Value :=
  match o.type with
  | .void => some .empty
  | _ => none

end Writing

section Rules

/-- The rule with the given conversions.  An object whose payload is not of the expected kind
cannot be written. -/
def rule
    (name : String)
    (shape : Shape)
    (type : Ty)
    (priority : Int32)
    (value? : Object → Payload → Option Value)
    (read : Value → Action Object) : Rule :=
  Rule.ofType name shape type priority
    (fun _ o => do
      Action.orFail (.conversion (name ++ " cannot render " ++ o.type.display))
        (value? o (← Action.payload o)))
    (fun _ _ v => read v)

def double : Rule :=
  rule "double" .number .double Priority.standard
    (fun _ p => p.double?.map .number) readDouble

def int : Rule :=
  rule "int" .number .int Priority.standard
    (fun _ p => p.int?.map fun n => integerValue n.toInt) readInt

/-- Numbers as integers of sixty-four bits; on the way back they are rounded. -/
def long : Rule :=
  rule "long" .number .long Priority.standard
    (fun _ p => p.long?.map fun n => integerValue n.toInt) readLong

def short : Rule :=
  rule "short" .number .short Priority.standard
    (fun _ p => p.short?.map fun n => integerValue n.toInt) readShort

def byte : Rule :=
  rule "byte" .number .byte Priority.standard
    (fun _ p => p.byte?.map fun n => integerValue n.toInt) readByte

def boolean : Rule :=
  rule "boolean" .boolean .bool Priority.standard
    (fun _ p => p.bool?.map .boolean) readBool

def string : Rule :=
  rule "string" .text .text Priority.standard
    (fun _ p => p.text?.map .text) readText

def empty : Rule :=
  rule "empty" .empty .void Priority.standard (fun o _ => blankValue? o) readBlank

/-- Arguments that were left out. -/
def missing : Rule :=
  rule "missing" .missing .void Priority.standard (fun o _ => blankValue? o) readBlank

/-- Texts as integers of eight bits. -/
def byteText : Rule :=
  rule "byte-text" .text .byte Priority.textFallback
    (fun _ p => p.byte?.map fun n => .text (toString n.toInt)) readByteText

end Rules

end Scalar
end CellBridge
