import CellBridge.Conversion.Scalar

/-!
# Rules for references

Three rules that look at the object behind a value:

* `tagged` hands a cell value through, whatever its shape;
* `enum` writes a constant as its name, and finds it again by exactly that name;
* `boxing` writes an object as its handle, and reads a handle as the object that it refers to.
-/

namespace CellBridge
namespace Reference

/-- Cell values that are handed through. -/
def tagged : Rule :=
  { name := "tagged"
    shape := .any
    type := .tagged
    priority := Priority.standard
    canProduce := fun required => required == .tagged
    canConvert := fun actual => Ty.tagged.accepts actual
    toCell := fun _ o => do
      Action.orFail (.conversion "object is not a host value") (← Action.payload o).tagged?
    toManaged := fun _ _ v => Action.create .tagged (.tagged v) }

def isEnumType : Ty → Bool
  | .object c => c.isEnum
  | _ => false

/-- The constant of the wanted enumeration with the name that the value shows. -/
def readConstant
    (expected : Ty)
    (v : Value) : Action Object := do
  let name ← Action.orFail (Scalar.wrongShape "enum" v) v.text?
  match expected with
  | .object c =>
      let found ← Action.createConstant? c name
      Action.orFail (.conversion (c.name ++ " has no constant " ++ Text.quoted name)) found
  | t => Action.fail (.conversion (t.display ++ " is not an enum"))

def enum : Rule :=
  { name := "enum"
    shape := .text
    type := .object ManagedClass.enumRoot
    priority := Priority.enum
    canProduce := isEnumType
    canConvert := fun actual => (Ty.object ManagedClass.enumRoot).accepts actual
    toCell := fun _ o => do
      Action.orFail (.conversion (o.type.display ++ " is not an enum"))
        ((← Action.payload o).constant?.map fun c => .text c.2)
    toManaged := fun _ => readConstant }

/-- The handle that an object already is, if it carries one as a cell value. -/
def carriedHandle?
    (p : Payload) : Option Handle :=
  p.tagged?.bind Value.handle?

/-- The handle of an object; an object that carries a handle is not boxed again. -/
def writeHandle
    (o : Object) : Action Value := do
  match carriedHandle? (← Action.payload o) with
  | some h => return .handle h
  | none => return .handle (← Action.intern o)

/-- The object behind a handle, if it fits the wanted type. -/
def readHandle
    (expected : Ty)
    (v : Value) : Action Object := do
  let h ← Action.orFail (Scalar.wrongShape "object" v) v.handle?
  let o ← Action.resolve h
  if expected.accepts o.type then
    return o
  else
    Action.fail
      (.conversion ("handle " ++ h.display ++ " refers to " ++ o.type.display ++ ", not " ++
        expected.display))

/-- Objects behind handles.  What a handle refers to is known only when it is looked up, so the
rule claims to make every type. -/
def boxing : Rule :=
  { name := "object"
    shape := .handle
    type := .any
    priority := Priority.boxing
    canProduce := fun _ => true
    canConvert := fun actual => Ty.any.accepts actual
    toCell := fun _ => writeHandle
    toManaged := fun _ => readHandle }

end Reference
end CellBridge
