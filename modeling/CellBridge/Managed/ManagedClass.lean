import CellBridge.Managed.Rank

/-!
# Managed classes

A class is its name, the names of its ancestors from the nearest to the root, and the constants
that it declares if it is an enumeration.  Classes are told apart by name alone: `sameName` is
the comparison that the rest of the bridge uses, and ancestry is membership of a name in the
chain.
-/

namespace CellBridge

/-- A class known to the managed side. -/
structure ManagedClass where
  name : String
  /-- Names of the ancestors, the nearest first. -/
  ancestors : List String
  /-- Names of the constants in the order of their declaration. -/
  constants : List String
deriving DecidableEq, Inhabited

namespace ManagedClass

section Construction

/-- A class without ancestors. -/
def root
    (name : String) : ManagedClass :=
  { name := name, ancestors := [], constants := [] }

/-- A class below another one. -/
def extending
    (name : String)
    (parent : ManagedClass) : ManagedClass :=
  { name := name, ancestors := parent.name :: parent.ancestors, constants := [] }

/-- The common ancestor of all enumerations. -/
def enumRoot : ManagedClass :=
  root "Enum"

/-- An enumeration with the given constants. -/
def enumeration
    (name : String)
    (constants : List String) : ManagedClass :=
  { name := name, ancestors := [enumRoot.name], constants := constants }

end Construction

section Ancestry

/-- The names from the class itself up to the root. -/
def chain
    (c : ManagedClass) : List String :=
  c.name :: c.ancestors

/-- The name of the class right above. -/
def parent?
    (c : ManagedClass) : Option String :=
  c.ancestors.head?

/-- The number of classes from the root down to the class, if it can be counted. -/
def depth?
    (c : ManagedClass) : Option UInt32 :=
  c.ancestors.foldr (fun _ above => above.bind (addRank? 1)) (some 1)

def sameName
    (c d : ManagedClass) : Bool :=
  c.name == d.name

/-- Is the class `ancestor`, or does it inherit from it? -/
def isSubclassOf
    (c ancestor : ManagedClass) : Bool :=
  c.chain.contains ancestor.name

/-- Does the class lie below the common ancestor of enumerations?  A class without ancestors is
none, whatever its name. -/
def isEnum
    (c : ManagedClass) : Bool :=
  !c.ancestors.isEmpty && c.isSubclassOf enumRoot

def ordinalOf?
    (c : ManagedClass)
    (constant : String) : Option Nat :=
  c.constants.findIdx? (· == constant)

end Ancestry

section Lemmas

/-- Every class is a subclass of itself. -/
theorem isSubclassOf_self
    (c : ManagedClass) :
    c.isSubclassOf c = true := by
  simp [isSubclassOf, chain]

end Lemmas

end ManagedClass
end CellBridge
