import CellBridge.Call.Candidate

/-!
# Invocation

`attempt` converts the arguments for one candidate, runs its body and converts the result; a panic
in any of the three is a failure of this candidate.  `invoke` makes attempts until one succeeds.  A
handle that leads nowhere is the fault of the caller and ends the call at once, every other failure
only passes the call on to the next candidate.
-/

namespace CellBridge
namespace Candidate

section Arguments

/-- Converts arguments from left to right, each by its rule. -/
def readArguments
    (c : Catalog) : List (Value × Ty × Rule) → Action (List Object)
  | [] => return []
  | (v, t, r) :: rest => do
      let o ← c.read r t v
      let os ← readArguments c rest
      return o :: os

/-- The arguments as the body takes them: those of a variadic method behind the fixed ones become
one array.  Fewer arguments than fixed parameters are an abrupt end. -/
def packArguments
    (m : Method)
    (args : List Object) : Action (List Object) :=
  match m.rest with
  | none => return args
  | some e =>
      if args.length < m.fixed.length then
        Action.panic (some "fewer arguments than fixed parameters")
      else do
        let packed ← Action.createArray e (args.drop m.fixed.length)
        return args.take m.fixed.length ++ [packed]

/-- Converts the arguments of a call.  Arguments without a rule and rules without an argument are
passed over. -/
def convertArguments
    (c : Catalog)
    (cand : Candidate)
    (args : List Value) : Action (List Object) := do
  let os ← readArguments c (args.zip (cand.targets.zip cand.rules))
  packArguments cand.method os

end Arguments

section Results

/-- Converts the result of a body.  A handle that is carried as a cell value and the absence of a
value are the same in both modes. -/
def convertResult
    (c : Catalog)
    (cand : Candidate)
    (mode : ResultMode)
    (o : Object) : Action Value := do
  match ((← Action.payload o).tagged?.bind Value.handle?), o.type, mode with
  | some h, _, _ => return .handle h
  | none, .void, _ => return .empty
  | none, _, .object => return .handle (← Action.intern o)
  | none, t, .simplest =>
      let rule ← Action.orFail (.noReturnConverter t.display)
        ((c.findByType? t).or cand.returnRule)
      c.write rule o

end Results

section Attempts

/-- One attempt with a candidate. -/
def attempt
    (c : Catalog)
    (receiver : Option Object)
    (args : List Value)
    (mode : ResultMode)
    (cand : Candidate) : Action Value :=
  Action.guarded cand.method.display do
    let converted ← cand.convertArguments c args
    let o ← cand.method.body receiver converted
    cand.convertResult c mode o

/-- Attempts one after the other; none if all of them failed. -/
def attemptAll
    (c : Catalog)
    (receiver : Option Object)
    (args : List Value)
    (mode : ResultMode) : List Candidate → Action (Option Value)
  | [] => return none
  | cand :: rest =>
      tryCatch (some <$> cand.attempt c receiver args mode) fun
        | .failed (.notFound h) => Action.fail (.notFound h)
        | .failed _ => attemptAll c receiver args mode rest
        | f => throw f

end Attempts

end Candidate

/-- The result of the first candidate that succeeds. -/
def invoke
    (c : Catalog)
    (receiver : Option Object)
    (args : List Value)
    (mode : ResultMode)
    (candidates : List Candidate) : Action Value := do
  match ← Candidate.attemptAll c receiver args mode candidates with
  | some v => return v
  | none =>
      let method := (candidates.head?.map fun cand => cand.method.name).getD ""
      Action.fail (.noSuccessfulOverload "" method args.length candidates.length)

/-- `invoke` for a named member of a type: the failure of all candidates names both. -/
def invokeMember
    (c : Catalog)
    (t : Ty)
    (member : String)
    (receiver : Option Object)
    (args : List Value)
    (mode : ResultMode)
    (candidates : List Candidate) : Action Value :=
  tryCatch (invoke c receiver args mode candidates) fun
    | .failed (.noSuccessfulOverload _ _ _ attempts) =>
        Action.fail (.noSuccessfulOverload t.display member args.length attempts)
    | f => throw f

end CellBridge
