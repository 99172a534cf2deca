import CellBridge.Cell.Value

/-!
# What can go wrong

`BridgeError` lists the failures that the bridge reports, with the error code and the explanation
under which the host sees each.  `Fault` adds the two ways in which a step can end without any
report: a panic, which the bridge turns into a failure, and a conversion that would never end.
-/

namespace CellBridge

/-- A failure on the managed side. -/
inductive BridgeError where
  | notFound (h : Handle)
  | noCompatibleConverter (shape : Shape) (managed : String)
  | noReturnConverter (managed : String)
  | noSuccessfulOverload (type method : String) (args attempts : Nat)
  | invocationFailure (message : String)
  | conversion (message : String)
  | unknownType (name : String)
  | unknownMember (type name : String)
deriving DecidableEq, Inhabited

namespace BridgeError

/-- The explanation of a failure. -/
def message : BridgeError → String
  | .notFound h => "cannot find object with handle " ++ h.display
  | .noCompatibleConverter shape managed =>
      "no converter from " ++ shape.display ++ " to " ++ managed
  | .noReturnConverter managed => "no converter for managed type " ++ managed
  | .noSuccessfulOverload type method args attempts =>
      "could not invoke " ++ type ++ "." ++ method ++ " with " ++ toString args ++
        " argument(s): " ++ toString attempts ++ " candidate(s) failed"
  | .invocationFailure m => "invocation failed: " ++ m
  | .conversion m => "conversion failed: " ++ m
  | .unknownType name => "unknown type " ++ name
  | .unknownMember type name => type ++ " has no member called " ++ name

/-- The host error under which a failure is reported. -/
def code : BridgeError → ErrorCode
  | .notFound _ => .ref
  | .noCompatibleConverter _ _ => .value
  | .noReturnConverter _ => .value
  | .noSuccessfulOverload _ _ _ _ => .null
  | .invocationFailure _ => .value
  | .conversion _ => .value
  | .unknownType _ => .name
  | .unknownMember _ _ => .name

def toCellError
    (e : BridgeError) : CellError :=
  { code := e.code, message := some e.message }

def toValue
    (e : BridgeError) : Value :=
  .error e.toCellError

end BridgeError

/-- How a step ends when it gives no result. -/
inductive Fault where
  | failed (e : BridgeError)
  /-- An abrupt end, with its message if that is a text. -/
  | panicked (message : Option String)
  /-- The step would never end. -/
  | diverged
deriving DecidableEq, Inhabited

/-- The abrupt end of an addition whose sum does not fit. -/
abbrev Fault.overflow : Fault :=
  .panicked (some "attempt to add with overflow")

end CellBridge
