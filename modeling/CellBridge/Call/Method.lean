import CellBridge.Conversion.Action

/-!
# Methods

A method has fixed parameters and, if it is variadic, an element type for any number of further
arguments, which reach the body as one array.  `params` is the list of parameter types that the
body sees.  Constructors are static methods of the reserved name.
-/

namespace CellBridge

/-- What a method does: the receiver, if there is one, and the converted arguments. -/
abbrev Body :=
  Option Object → List Object → Action Object

def constructorName : String :=
  "<init>"

/-- A method of a managed type. -/
structure Method where
  name : String
  /-- The parameters that take one argument each. -/
  fixed : List Ty
  /-- The element type of the parameter that takes all further arguments. -/
  rest : Option Ty
  returns : Ty
  isStatic : Bool
  body : Body

namespace Method

section Construction

/-- A method with a receiver. -/
def instanceMethod
    (name : String)
    (params : List Ty)
    (returns : Ty)
    (body : Body) : Method :=
  { name := name, fixed := params, rest := none, returns := returns, isStatic := false,
    body := body }

/-- A method without a receiver. -/
def staticMethod
    (name : String)
    (params : List Ty)
    (returns : Ty)
    (body : Body) : Method :=
  { name := name, fixed := params, rest := none, returns := returns, isStatic := true,
    body := body }

/-- A constructor; its result type is that of the class that takes it in. -/
def constructor
    (params : List Ty)
    (body : Body) : Method :=
  staticMethod constructorName params .any body

/-- Makes the last parameter take any number of arguments.  That parameter has to be an array,
otherwise nothing changes. -/
def variadic
    (m : Method) : Method :=
  match m.rest, m.fixed.getLast? with
  | none, some (.array e) => { m with fixed := m.fixed.dropLast, rest := some e }
  | _, _ => m

end Construction

section Signature

/-- The parameter types that the body sees. -/
def params
    (m : Method) : List Ty :=
  m.fixed ++ (m.rest.map Ty.array).toList

/-- Does the method take any number of further arguments? -/
def isVariadic
    (m : Method) : Bool :=
  m.rest.isSome

def isConstructor
    (m : Method) : Bool :=
  m.name == constructorName

/-- Do `n` arguments fit the method? -/
def acceptsArity
    (m : Method)
    (n : Nat) : Bool :=
  if m.isVariadic then decide (m.fixed.length ≤ n) else n == m.fixed.length

/-- The type that the argument at position `i` is converted to. -/
def target
    (m : Method)
    (i : Nat) : Ty :=
  (m.fixed[i]?).getD (m.rest.getD .any)

/-- Equality of parameter lists. -/
def sameTypes
    (ts us : List Ty) : Bool :=
  ts.length == us.length && (ts.zip us).all fun p => p.1 == p.2

/-- Do two methods take the same parameters?  Their names and results do not count. -/
def sameSignature
    (m n : Method) : Bool :=
  m.isVariadic == n.isVariadic && sameTypes m.params n.params

/-- A method as it is declared. -/
def display
    (m : Method) : String :=
  (if m.isStatic && !m.isConstructor then "static " else "") ++ m.returns.display ++ " " ++
    m.name ++ "(" ++
    String.intercalate ", "
      (m.fixed.map Ty.display ++ (m.rest.map fun e => e.display ++ "...").toList) ++ ")"

end Signature

end Method
end CellBridge
