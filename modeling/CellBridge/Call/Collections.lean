import CellBridge.Call.Registry

/-!
# Built-in classes

Lists, sets, texts and doubles as classes, so that a handle to one of them can be driven by member
names.  A body checks its receiver itself; an argument that it needs and does not get is an abrupt
end.
-/

namespace CellBridge
namespace Builtin

section Operands

/-- The receiver of an instance method. -/
def this
    (receiver : Option Object) : Action Object :=
  Action.orFail (.invocationFailure "instance method called without a receiver") receiver

/-- The items of a receiver, with the object itself. -/
def thisItems
    (what : String)
    (items? : Payload → Option (List Object))
    (receiver : Option Object) : Action (Object × List Object) := do
  let o ← this receiver
  let items ← Action.orFail (.invocationFailure (o.type.display ++ " is not " ++ what))
    (items? (← Action.payload o))
  return (o, items)

def thisList
    (receiver : Option Object) : Action (Object × List Object) :=
  thisItems "a list" Payload.list? receiver

def thisSet
    (receiver : Option Object) : Action (Object × List Object) :=
  thisItems "a set" Payload.set? receiver

def argument
    (args : List Object)
    (i : Nat) : Action Object :=
  match args[i]? with
  | some o => return o
  | none => Action.panic (some "missing argument")

/-- The items of an argument that is an array, and no items for other arguments. -/
def arrayItems
    (o : Object) : Action (List Object) := do
  return (← Action.payload o).array?.getD []

end Operands

section Results

def boolResult
    (b : Bool) : Action Object :=
  Action.create .bool (.bool b)

def textResult
    (s : String) : Action Object :=
  Action.create .text (.text s)

def doubleResult
    (n : Number) : Action Object :=
  Action.create .double (.double n)

/-- A count, which has to fit an integer of thirty-two bits. -/
def countResult
    (n : Nat) : Action Object :=
  if n < Nat.pow 2 31 then
    Action.create .int (.int (Int32.ofNat n))
  else
    Action.fail (.invocationFailure (toString n ++ " does not fit in an int"))

/-- Descriptions of objects in square brackets. -/
def itemsText
    (items : List Object) : Action Object := do
  let w ← get
  textResult (bracketed (items.map w.store.describe))

end Results

section Lists

/-- The item at an index given as an integer object; any other object counts as index `-1`. -/
def itemAt
    (items : List Object)
    (index : Object) : Action Object := do
  let i : Int := ((← Action.payload index).int?.map Int32.toInt).getD (-1)
  let item := if i < 0 then none else items[i.toNat]?
  Action.orFail
    (.invocationFailure ("index " ++ toString i ++ " out of bounds for length " ++
      toString items.length))
    item

/-- A constructor that takes the items of an array. -/
def fromArray
    (create : Ty → List Object → Action Object) : Method :=
  Method.constructor [.array .any] fun _ args => do
    create .any (← arrayItems (← argument args 0))

def fromNothing
    (create : Ty → List Object → Action Object) : Method :=
  Method.constructor [] fun _ _ => create .any []

/-- The methods that lists and sets share; `items` finds the items of the receiver. -/
def sharedMethods
    (items : Option Object → Action (Object × List Object)) : List Method :=
  [Method.instanceMethod "size" [] .int fun receiver _ => do
      countResult (← items receiver).2.length,
    Method.instanceMethod "isEmpty" [] .bool fun receiver _ => do
      boolResult (← items receiver).2.isEmpty,
    Method.instanceMethod "contains" [.any] .bool fun receiver args => do
      let (_, os) ← items receiver
      let o ← argument args 0
      boolResult ((← get).store.hasEqual os o),
    Method.instanceMethod "toArray" [] (.array .any) fun receiver _ => do
      Action.createArray .any (← items receiver).2,
    Method.instanceMethod "toString" [] .text fun receiver _ => do
      itemsText (← items receiver).2]

/-- Appends an object to a list. -/
def listAdd : Method :=
  Method.instanceMethod "add" [.any] .bool fun receiver args => do
    let (this, items) ← thisList receiver
    let o ← argument args 0
    Action.replace this (.list (items ++ [o]))
    boolResult true

/-- Puts an object into a set, unless an equal one is there. -/
def setAdd : Method :=
  Method.instanceMethod "add" [.any] .bool fun receiver args => do
    let (this, items) ← thisSet receiver
    let o ← argument args 0
    let isNew := !(← get).store.hasEqual items o
    Action.replace this (.set ((← get).store.insertItem items o))
    boolResult isNew

def listMethods : List Method :=
  [Method.instanceMethod "get" [.int] .any fun receiver args => do
      let (_, items) ← thisList receiver
      itemAt items (← argument args 0),
    listAdd]

def setMethods : List Method :=
  [setAdd]

def collectionClass
    (type : Ty)
    (further : String)
    (create : Ty → List Object → Action Object)
    (methods : List Method) : ClassDescriptor :=
  let ctors := [fromNothing create, fromArray create, (fromArray create).variadic]
  methods.foldl ClassDescriptor.withMethod
    (ctors.foldl ClassDescriptor.withConstructor
      ((ClassDescriptor.ofType type).withAlias further))

/-- Lists that grow. -/
def listClass : ClassDescriptor :=
  collectionClass (.list .any) "ArrayList" Action.createList
    (listMethods ++ sharedMethods thisList)

/-- Sets in the order of insertion. -/
def setClass : ClassDescriptor :=
  collectionClass (.set .any) "LinkedHashSet" Action.createSet
    (setMethods ++ sharedMethods thisSet)

end Lists

section Scalars

/-- The text of an object, empty if it is no text. -/
def textOf
    (o : Object) : Action String := do
  return (← Action.payload o).text?.getD ""

/-- The number of an object, zero if it is no double. -/
def doubleOf
    (o : Object) : Action Number := do
  return (← Action.payload o).double?.getD Number.zero

/-- Texts. -/
def stringClass : ClassDescriptor :=
  (((ClassDescriptor.ofType .text).withConstructor
      (Method.constructor [.text] fun _ args => do
        textResult (← textOf (← argument args 0)))).withMethod
      (Method.instanceMethod "length" [] .int fun receiver _ => do
        countResult (← textOf (← this receiver)).length)).withMethod
      (Method.instanceMethod "isEmpty" [] .bool fun receiver _ => do
        boolResult (← textOf (← this receiver)).isEmpty)
    |>.withMethod
      (Method.instanceMethod "toString" [] .text fun receiver _ => do
        textResult (← textOf (← this receiver)))

def doubleClass : ClassDescriptor :=
  ((ClassDescriptor.ofType .double).withConstructor
      (Method.constructor [.double] fun _ args => do
        doubleResult (← doubleOf (← argument args 0)))).withMethod
      (Method.instanceMethod "doubleValue" [] .double fun receiver _ => do
        doubleResult (← doubleOf (← this receiver)))
    |>.withMethod
      (Method.instanceMethod "toString" [] .text fun receiver _ => do
        let o ← this receiver
        textResult ((← get).store.describe o))

end Scalars

/-- The built-in classes in the order of their registration. -/
def classes : List ClassDescriptor :=
  [listClass, setClass, stringClass, doubleClass]

end Builtin

def Registry.withBuiltins
    (r : Registry) : Registry :=
  Builtin.classes.foldl Registry.register r

end CellBridge
