/-! Conditions that stop the program.

A fault is no error of the user's program: it arises from a value that no reader builds, such as a
function type without two arguments, and nothing recovers from it. -/

set_option autoImplicit false

namespace HindleyMilner

inductive Fault where
  /-- A function type was printed that does not have exactly two arguments. -/
  | malformedArrow (found : Nat)
  /-- A literal of unknown kind was given a type. -/
  | unknownLiteral (code : Int)
  /-- A node of an expression is missing. -/
  | missingNode
  /-- A type was to be unified that is missing. -/
  | missingType
  deriving DecidableEq, Repr

def Fault.message : Fault → String
  | .malformedArrow found =>
    "types: function type requires 2 arguments, found " ++ toString found
  | .unknownLiteral code => "unknown literal kind " ++ toString code
  | .missingNode => "missing expression"
  | .missingType => "missing type"

end HindleyMilner
