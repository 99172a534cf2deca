import CellBridge.Call.Method

/-!
# The registry of classes

A class descriptor says what can be called on a type.  Descriptors are found by the name under
which their type is registered, and by aliases, which stand for names.  A later registration of a
name or of an alias takes the place of an earlier one.

`methodsNamed` collects the methods of a name that are visible on a type: its own first, then
those of its ancestors, leaving out every method whose parameters occurred before.
-/

namespace CellBridge

/-- Everything that can be called on a type. -/
structure ClassDescriptor where
  type : Ty
  aliases : List String
  constructors : List Method
  /-- All methods in the order of their declaration. -/
  methods : List Method

namespace ClassDescriptor

section Construction

/-- The descriptor of a type that offers nothing. -/
def ofType
    (t : Ty) : ClassDescriptor :=
  { type := t, aliases := [], constructors := [], methods := [] }

def withAlias
    (d : ClassDescriptor)
    (further : String) : ClassDescriptor :=
  { d with aliases := d.aliases ++ [further] }

/-- Adds a constructor.  Whatever was declared, it has the name of constructors, no receiver, and
the type of the class as its result. -/
def withConstructor
    (d : ClassDescriptor)
    (m : Method) : ClassDescriptor :=
  { d with
    constructors :=
      d.constructors ++
        [{ m with name := constructorName, isStatic := true, returns := d.type }] }

def withMethod
    (d : ClassDescriptor)
    (m : Method) : ClassDescriptor :=
  { d with methods := d.methods ++ [m] }

end Construction

section Access

/-- The name under which the class is registered. -/
def name
    (d : ClassDescriptor) : String :=
  d.type.key

/-- The methods of a name that the class itself declares. -/
def declared
    (d : ClassDescriptor)
    (name : String) : List Method :=
  d.methods.filter fun m => m.name == name

end Access

end ClassDescriptor

/-- All registered classes and the names that stand for others. -/
structure Registry where
  classes : Table String ClassDescriptor
  aliases : Table String String

namespace Registry

section Registration

def empty : Registry :=
  { classes := .empty, aliases := .empty }

/-- Adds a class, in the place of an earlier one of its name. -/
def register
    (r : Registry)
    (d : ClassDescriptor) : Registry :=
  { classes := r.classes.insert d.name d
    aliases := d.aliases.foldl (fun t further => t.insert further d.name) r.aliases }

end Registration

section Lookup

/-- The class with a registered name. -/
def named?
    (r : Registry)
    (name : String) : Option ClassDescriptor :=
  r.classes.get? name

/-- The class with a registered name, or else the one that the name is an alias of. -/
def lookup?
    (r : Registry)
    (name : String) : Option ClassDescriptor :=
  (r.named? name).or ((r.aliases.get? name).bind r.named?)

/-- The class of a type. -/
def descriptorFor?
    (r : Registry)
    (t : Ty) : Option ClassDescriptor :=
  r.named? t.key

/-- The methods of a name that the class of a registered name declares. -/
def declaredBy
    (r : Registry)
    (method : String)
    (name : String) : List Method :=
  ((r.named? name).map fun d => d.declared method).getD []

/-- Adds a method to those found before, unless its parameters occurred. -/
def addVisible
    (found : List Method)
    (m : Method) : List Method :=
  if found.any fun f => f.sameSignature m then found else found ++ [m]

/-- The methods of a name that are visible on a type. -/
def methodsNamed
    (r : Registry)
    (t : Ty)
    (method : String) : List Method :=
  (t.keyChain.flatMap (r.declaredBy method)).foldl addVisible []

/-- The constructors of a type. -/
def constructorsOf
    (r : Registry)
    (t : Ty) : List Method :=
  ((r.descriptorFor? t).map ClassDescriptor.constructors).getD []

def size
    (r : Registry) : Nat :=
  r.classes.size

def isEmpty
    (r : Registry) : Bool :=
  r.classes.entries.isEmpty

end Lookup

end Registry
end CellBridge
