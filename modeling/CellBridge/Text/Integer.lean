/-!
# Integers in text

`readInteger` reads a signed decimal integer that has to lie between `-(limit + 1)` and `limit`.
The text is one optional sign and digits; nothing may stand around them.  Reading goes from left
to right and stops at the first fault, so a character that is no digit counts only if the digits
before it stayed in range.
-/

namespace CellBridge
namespace Text

/-- Why a text is not an integer of the wanted range. -/
inductive IntegerFault where
  | empty
  | invalidDigit
  | tooLarge
  | tooSmall
deriving DecidableEq

def IntegerFault.message : IntegerFault → String
  | .empty => "cannot parse integer from empty string"
  | .invalidDigit => "invalid digit found in string"
  | .tooLarge => "number too large to fit in target type"
  | .tooSmall => "number too small to fit in target type"

def digit?
    (c : Char) : Option Nat :=
  if '0'.toNat ≤ c.toNat ∧ c.toNat ≤ '9'.toNat then
    some (c.toNat - '0'.toNat)
  else
    none

/-- Digits read after the value `acc`, as long as it does not pass `limit`. -/
def readMagnitude
    (limit : Nat)
    (overflow : IntegerFault)
    (acc : Nat) : List Char → Except IntegerFault Nat
  | [] => .ok acc
  | c :: cs =>
      match digit? c with
      | none => .error .invalidDigit
      | some d =>
          if 10 * acc + d ≤ limit then
            readMagnitude limit overflow (10 * acc + d) cs
          else
            .error overflow

/-- The integer that a text is, between `-(limit + 1)` and `limit`. -/
def readInteger
    (limit : Nat)
    (cs : List Char) : Except IntegerFault Int :=
  match cs with
  | [] => .error .empty
  | ['+'] => .error .invalidDigit
  | ['-'] => .error .invalidDigit
  | '+' :: ds => (readMagnitude limit .tooLarge 0 ds).map Int.ofNat
  | '-' :: ds => (readMagnitude (limit + 1) .tooSmall 0 ds).map fun n => -(Int.ofNat n)
  | ds => (readMagnitude limit .tooLarge 0 ds).map Int.ofNat

end Text
end CellBridge
