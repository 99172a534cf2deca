import CellBridge.Managed.ManagedClass

/-!
# Managed types

The types that parameters, results and rules declare, and that objects carry as their tag.

* `beq` is equality of types; classes are equal when their names are;
* `accepts` is assignability: everything goes where `any` is declared, containers are covariant
  in their element type, classes follow their ancestors, and all other types must be equal;
* `specificity?` ranks types, the narrower one higher.
-/

namespace CellBridge

/-- A managed type. -/
inductive Ty where
  /-- The type of every object. -/
  | any
  /-- The absence of a value; what blank cells become. -/
  | void
  | bool
  | byte
  | short
  | int
  | long
  | double
  | text
  /-- A cell value that is handed through as it is. -/
  | tagged
  | array (element : Ty)
  | list (element : Ty)
  | set (element : Ty)
  | object (c : ManagedClass)
deriving Inhabited

namespace Ty

section Equality

/-- Equality of types; classes count by name. -/
def beq : Ty → Ty → Bool
  | .any, .any => true
  | .void, .void => true
  | .bool, .bool => true
  | .byte, .byte => true
  | .short, .short => true
  | .int, .int => true
  | .long, .long => true
  | .double, .double => true
  | .text, .text => true
  | .tagged, .tagged => true
  | .array a, .array b => a.beq b
  | .list a, .list b => a.beq b
  | .set a, .set b => a.beq b
  | .object c, .object d => c.sameName d
  | _, _ => false

instance : BEq Ty where
  beq := beq

end Equality

section Relations

/-- May an object of the second type be used where the first one is declared? -/
def accepts : Ty → Ty → Bool
  | .any, _ => true
  | .array a, .array b => a.accepts b
  | .list a, .list b => a.accepts b
  | .set a, .set b => a.accepts b
  | .object c, .object d => d.isSubclassOf c
  | a, b => a == b

/-- The rank of a type among overloads, if it can be counted; higher is narrower. -/
def specificity? : Ty → Option UInt32
  | .any => some 0
  | .tagged => some 1
  | .void => some 3
  | .bool => some 3
  | .text => some 3
  | .double => some 3
  | .long => some 4
  | .int => some 5
  | .short => some 6
  | .byte => some 7
  | .array e => e.specificity?.bind (addRank? 1)
  | .list e => e.specificity?.bind (addRank? 1)
  | .set e => e.specificity?.bind (addRank? 1)
  | .object c => c.depth?.bind (addRank? 1)

/-- The element type of an array, a list or a set. -/
def element? : Ty → Option Ty
  | .array e => some e
  | .list e => some e
  | .set e => some e
  | _ => none

/-- The element type of a container, and `any` for other types. -/
def elementOrAny
    (t : Ty) : Ty :=
  t.element?.getD .any

end Relations

section Names

/-- A type in signatures. -/
def display : Ty → String
  | .any => "Object"
  | .void => "void"
  | .bool => "boolean"
  | .byte => "byte"
  | .short => "short"
  | .int => "int"
  | .long => "long"
  | .double => "double"
  | .text => "String"
  | .tagged => "TaggedValue"
  | .array e => e.display ++ "[]"
  | .list e => "List<" ++ e.display ++ ">"
  | .set e => "Set<" ++ e.display ++ ">"
  | .object c => c.name

/-- The name under which a type is registered.  Containers share one name whatever they hold. -/
def key : Ty → String
  | .any => "Object"
  | .void => "Void"
  | .bool => "Boolean"
  | .byte => "Byte"
  | .short => "Short"
  | .int => "Integer"
  | .long => "Long"
  | .double => "Double"
  | .text => "String"
  | .tagged => "TaggedValue"
  | .array _ => "Array"
  | .list _ => "List"
  | .set _ => "Set"
  | .object c => c.name

/-- The registration names from the type itself up to the root of its classes. -/
def keyChain : Ty → List String
  | .object c => c.chain
  | t => [t.key]

end Names

section Lemmas

@[simp] theorem accepts_any
    (t : Ty) :
    accepts .any t = true := by
  cases t <;> rfl

/-- A type takes its own objects. -/
theorem accepts_self
    (t : Ty) :
    t.accepts t = true := by
  induction t with
  | array e ih =>
      exact ih
  | list e ih =>
      exact ih
  | set e ih =>
      exact ih
  | object c =>
      exact c.isSubclassOf_self
  | _ =>
      rfl

/-- A type equals itself. -/
theorem beq_self
    (t : Ty) :
    (t == t) = true := by
  show t.beq t = true
  induction t with
  | array e ih => exact ih
  | list e ih => exact ih
  | set e ih => exact ih
  | object c => simp [beq, ManagedClass.sameName]
  | _ => rfl

end Lemmas

end Ty
end CellBridge
