import CellBridge.Call.Registry
import CellBridge.Conversion.Catalog

/-!
# Candidates

A candidate is a method together with the rules by which the arguments of one call would reach
it.  `resolve` lists the candidates of a call: every visible method that takes the number of
arguments and has a rule for each of them.  They are ordered for trying: the narrower target types
first, then the higher priorities, then methods of fixed arity, then the order of visibility.

The ranks of the target types and the priorities of the rules are summed in thirty-two bits.  A sum
that does not fit, even on the way, brings the whole resolution to an abrupt end.
-/

namespace CellBridge

/-- How a result travels back to the host. -/
inductive ResultMode where
  /-- By the rule for the type of the result. -/
  | simplest
  /-- As a handle, unless there is no value. -/
  | object
deriving DecidableEq, Inhabited

def ResultMode.label : ResultMode → String
  | .simplest => "Simplest"
  | .object => "Object"

/-- A method with the rules for the arguments of a call. -/
structure Candidate where
  method : Method
  /-- The type that each argument is converted to. -/
  targets : List Ty
  /-- The rule that converts each argument. -/
  rules : List Rule
  /-- The rule for the declared result, used where the actual result has none. -/
  returnRule : Option Rule
  specificity : UInt32
  priority : Int32
  /-- The position of the method among the visible ones. -/
  order : Nat

namespace Candidate

section Building

/-- An argument whose shape no rule brings to the type that is wanted. -/
structure Miss where
  shape : Shape
  target : Ty

/-- Target and rule of the arguments from position `i` on, or the first argument without a rule. -/
def routes
    (c : Catalog)
    (m : Method)
    (i : Nat) : List Shape → Except Miss (List (Ty × Rule))
  | [] => .ok []
  | s :: ss =>
      match c.findByShape? s (m.target i) with
      | none => .error { shape := s, target := m.target i }
      | some r => (routes c m (i + 1) ss).map fun rs => (m.target i, r) :: rs

/-- The sum of the ranks of types, if no rank and no partial sum is too large. -/
def totalSpecificity?
    (ts : List Ty) : Option UInt32 :=
  ts.foldlM (fun n t => t.specificity?.bind (addRank? n)) 0

/-- The sum of two priorities, if it fits. -/
def addPriority?
    (a b : Int32) : Option Int32 :=
  let sum := a.toInt + b.toInt
  if -2147483648 ≤ sum ∧ sum ≤ 2147483647 then some (a + b) else none

/-- The sum of the priorities of rules, if all partial sums fit. -/
def totalPriority?
    (rs : List Rule) : Option Int32 :=
  rs.foldlM (fun n r => addPriority? n r.priority) 0

/-- Why a method gives no candidate. -/
inductive Setback where
  | missed (miss : Miss)
  /-- A sum does not fit. -/
  | overflowed

/-- The candidate for a method that takes arguments of the given shapes. -/
def build
    (c : Catalog)
    (shapes : List Shape)
    (m : Method)
    (order : Nat) : Except Setback Candidate :=
  match routes c m 0 shapes with
  | .error miss => .error (.missed miss)
  | .ok routes =>
      let targets := routes.map Prod.fst
      let rules := routes.map Prod.snd
      match totalSpecificity? targets, totalPriority? rules with
      | some specificity, some priority =>
          .ok {
            method := m
            targets := targets
            rules := rules
            returnRule := c.findByType? m.returns
            specificity := specificity
            priority := priority
            order := order }
      | _, _ => .error .overflowed

end Building

section Order

/-- Is the first candidate tried before the second, or are they of equal standing? -/
def precedes
    (a b : Candidate) : Bool :=
  if a.specificity ≠ b.specificity then
    decide (b.specificity < a.specificity)
  else if a.priority ≠ b.priority then
    decide (b.priority < a.priority)
  else if a.method.isVariadic ≠ b.method.isVariadic then
    b.method.isVariadic
  else
    decide (a.order ≤ b.order)

end Order

section Text

def dump
    (c : Candidate) : String :=
  "Candidate \x7b method: " ++ Text.quoted c.method.display ++ ", specificity: " ++
    toString c.specificity ++ ", priority: " ++ toString c.priority.toInt ++ " \x7d"

end Text

end Candidate

section Resolution

/-- The methods that a call can mean.  Constructors are not inherited. -/
def visibleMethods
    (r : Registry)
    (t : Ty)
    (member : String)
    (staticsOnly : Bool) : List Method :=
  if member = constructorName then
    r.constructorsOf t
  else
    (r.methodsNamed t member).filter fun m => !staticsOnly || m.isStatic

/-- The attempts to build a candidate from each method that takes the number of arguments. -/
def buildAll
    (c : Catalog)
    (shapes : List Shape)
    (methods : List Method) : List (Except Candidate.Setback Candidate) :=
  (methods.zipIdx.filter fun m => m.1.acceptsArity shapes.length).map fun m =>
    Candidate.build c shapes m.1 m.2

/-- The candidate of a successful attempt. -/
def builtCandidate? : Except Candidate.Setback Candidate → Option Candidate
  | .ok c => some c
  | .error _ => none

/-- The argument at which an attempt failed. -/
def missedArgument? : Except Candidate.Setback Candidate → Option Candidate.Miss
  | .error (.missed m) => some m
  | _ => none

/-- Did the attempt end at a sum that does not fit? -/
def hasOverflowed : Except Candidate.Setback Candidate → Bool
  | .error .overflowed => true
  | _ => false

/-- The candidates of a call in the order in which they are tried. -/
def resolve
    (c : Catalog)
    (r : Registry)
    (t : Ty)
    (member : String)
    (shapes : List Shape)
    (staticsOnly : Bool) : Except Fault (List Candidate) :=
  match visibleMethods r t member staticsOnly with
  | [] => .error (.failed (.unknownMember t.display member))
  | methods =>
      let attempts := buildAll c shapes methods
      -- the first overflow ends everything, whatever the attempts before it came to
      if attempts.any hasOverflowed then
        .error .overflow
      else
        match attempts.filterMap builtCandidate? with
        | [] =>
            match attempts.findSome? missedArgument? with
            | some miss => .error (.failed (.noCompatibleConverter miss.shape miss.target.display))
            | none =>
                .error (.failed (.noSuccessfulOverload t.display member shapes.length 0))
        | candidates => .ok (candidates.mergeSort Candidate.precedes)

end Resolution

end CellBridge
