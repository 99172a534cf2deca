import CellBridge.Cell.Rendering
import CellBridge.Managed.Ty

/-!
# Managed objects

An object is a type tag and a reference to a payload in the store.  The reference is the identity
of the object: copies of an object share it, and payloads that are created separately never do,
equal or not.  Nothing forces a payload to fit the tag.

Lists and sets change in place.  They keep their elements in the order of insertion; a set keeps
of equal elements the first.
-/

namespace CellBridge

/-- A typed reference to a payload. -/
structure Object where
  type : Ty
  id : Nat
deriving Inhabited

/-- What an object holds. -/
inductive Payload where
  | unit
  | double (n : Number)
  | byte (n : Int8)
  | short (n : Int16)
  | int (n : Int32)
  | long (n : Int64)
  | bool (b : Bool)
  | text (s : String)
  | tagged (v : Value)
  /-- A constant of an enumeration, with its position there. -/
  | constant (ordinal : Nat) (name : String)
  /-- A sequence that never changes. -/
  | array (items : List Object)
  | list (items : List Object)
  | set (items : List Object)
  /-- The private state of an object of a user class. -/
  | record (fields : List Object)
deriving Inhabited

namespace Payload

section Views

def double? : Payload → Option Number
  | .double n => some n
  | _ => none

def byte? : Payload → Option Int8
  | .byte n => some n
  | _ => none

def short? : Payload → Option Int16
  | .short n => some n
  | _ => none

def int? : Payload → Option Int32
  | .int n => some n
  | _ => none

def long? : Payload → Option Int64
  | .long n => some n
  | _ => none

def bool? : Payload → Option Bool
  | .bool b => some b
  | _ => none

def text? : Payload → Option String
  | .text s => some s
  | _ => none

/-- The cell value that is handed through. -/
def tagged? : Payload → Option Value
  | .tagged v => some v
  | _ => none

/-- Position and name of a constant. -/
def constant? : Payload → Option (Nat × String)
  | .constant i s => some (i, s)
  | _ => none

def array? : Payload → Option (List Object)
  | .array items => some items
  | _ => none

def list? : Payload → Option (List Object)
  | .list items => some items
  | _ => none

def set? : Payload → Option (List Object)
  | .set items => some items
  | _ => none

/-- The items of an array, a list or a set. -/
def items? : Payload → Option (List Object)
  | .array items => some items
  | .list items => some items
  | .set items => some items
  | _ => none

end Views

end Payload

/-- All payloads that were created; a reference is a position. -/
structure Store where
  payloads : Array Payload
deriving Inhabited

namespace Store

section Access

def empty : Store :=
  { payloads := #[] }

def size
    (s : Store) : Nat :=
  s.payloads.size

def payload
    (s : Store)
    (o : Object) : Payload :=
  s.payloads.getD o.id .unit

/-- A new payload and the object of the given type that refers to it. -/
def alloc
    (s : Store)
    (t : Ty)
    (p : Payload) : Object × Store :=
  ({ type := t, id := s.size }, { payloads := s.payloads.push p })

/-- Puts another payload in the place of that of an object. -/
def replace
    (s : Store)
    (o : Object)
    (p : Payload) : Store :=
  { payloads := s.payloads.setIfInBounds o.id p }

end Access

section Equality

/-- Are both the same object? -/
def sameIdentity
    (a b : Object) : Bool :=
  a.id == b.id

/-- Equality of optional numbers as the host compares them. -/
def numberEq : Option Number → Option Number → Bool
  | some a, some b => a.ieeeEq b
  | none, none => true
  | _, _ => false

/-- Scalars of one type compare by their content, constants of an enumeration by position and
name, all other objects by identity. -/
def valueEq
    (s : Store)
    (a b : Object) : Bool :=
  sameIdentity a b ||
    let p := s.payload a
    let q := s.payload b
    match a.type, b.type with
    | .double, .double => numberEq p.double? q.double?
    | .byte, .byte => p.byte? == q.byte?
    | .short, .short => p.short? == q.short?
    | .int, .int => p.int? == q.int?
    | .long, .long => p.long? == q.long?
    | .bool, .bool => p.bool? == q.bool?
    | .text, .text => p.text? == q.text?
    | .void, .void => true
    | .tagged, .tagged => p.tagged? == q.tagged?
    | .object c, .object d =>
        c.sameName d && c.isEnum && p.constant?.isSome && p.constant? == q.constant?
    | _, _ => false

/-- Is some item equal to the object? -/
def hasEqual
    (s : Store)
    (items : List Object)
    (o : Object) : Bool :=
  items.any fun x => s.valueEq x o

/-- The items of a set after an insertion; nothing changes if an equal item is there. -/
def insertItem
    (s : Store)
    (items : List Object)
    (o : Object) : List Object :=
  if s.hasEqual items o then items else items ++ [o]

/-- Of equal items the first, in the order given. -/
def distinct
    (s : Store)
    (items : List Object) : List Object :=
  items.foldl s.insertItem []

end Equality

section Text

/-- A truth value in the description of an object. -/
def boolText
    (b : Bool) : String :=
  if b then "true" else "false"

/-- A short description: the content of scalars, the size of collections, otherwise type and
identity. -/
def describe
    (s : Store)
    (o : Object) : String :=
  let name := o.type.display
  match s.payload o with
  | .double n => n.display
  | .int n => toString n.toInt
  | .byte n => toString n.toInt
  | .short n => toString n.toInt
  | .constant _ constant => name ++ "." ++ constant
  | .long n => toString n.toInt
  | .bool b => boolText b
  | .text t => Text.quoted t
  | .tagged v => v.dump
  | .array items => name ++ "[" ++ toString items.length ++ "]"
  | .list items => name ++ "(size " ++ toString items.length ++ ")"
  | .set items => name ++ "(size " ++ toString items.length ++ ")"
  | .unit => name ++ "@" ++ String.ofList (Nat.toDigits 16 o.id)
  | .record _ => name ++ "@" ++ String.ofList (Nat.toDigits 16 o.id)

/-- Type and description of an object in a detailed dump. -/
def dump
    (s : Store)
    (o : Object) : String :=
  "Object \x7b type: " ++ Text.quoted o.type.display ++ ", value: " ++
    Text.quoted (s.describe o) ++ " \x7d"

end Text

end Store
end CellBridge
