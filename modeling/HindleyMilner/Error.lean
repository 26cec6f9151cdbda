import HindleyMilner.Token
import HindleyMilner.Unify

/-! Errors in what the user wrote, and their wording.

An error is a cause, possibly within contexts that say what was being done. Errors are classified
by a code, which the contexts do not change. -/

set_option autoImplicit false

namespace HindleyMilner

inductive Expected where
  | expression
  | type
  | typeVariable
  | variableName
  | parameterName
  | token (kind : Token.Kind)
  deriving DecidableEq, Repr

def Expected.render : Expected → String
  | .expression => "expression"
  | .type => "type"
  | .typeVariable => "type variable"
  | .variableName => "variable name"
  | .parameterName => "parameter name"
  | .token kind => "'" ++ kind.render ++ "'"

inductive Category where
  | expression
  | type
  deriving DecidableEq, Repr

def Category.render : Category → String
  | .expression => "expression"
  | .type => "type"

inductive SyntaxError.Cause where
  /-- A character that starts no token. -/
  | stray (text : String)
  | expected (what : Expected) (found : Token)
  /-- A token after the end of what was to be read. -/
  | trailing (found : Token) (after : Category)
  /-- A number beyond 63 bits. -/
  | outOfRange (numeral : String)
  /-- A type variable that is quantified already. -/
  | repeated (name : String)
  | other (text : String)
  deriving DecidableEq, Repr

def SyntaxError.Cause.render : SyntaxError.Cause → String
  | .stray text => "unexpected character '" ++ text ++ "'"
  | .expected what found => "expected " ++ what.render ++ " but found " ++ found.describe
  | .trailing found after => "unexpected " ++ found.describe ++ " after " ++ after.render
  | .outOfRange numeral => "integer literal " ++ numeral ++ " is out of range"
  | .repeated name => "type variable " ++ name ++ " is quantified more than once"
  | .other text => text

structure SyntaxError where
  cause : SyntaxError.Cause
  pos : Position
  deriving DecidableEq, Repr

def SyntaxError.message (error : SyntaxError) : String := error.cause.render ++ error.pos.clause

inductive Error where
  | malformed (error : SyntaxError)
  | undefined (name : String) (pos : Position)
  | mismatch (reason : Mismatch)
  | plain (text : String)
  | within (context : String) (cause : Error)
  deriving DecidableEq, Repr

namespace Error

def root : Error → Error
  | .within _ cause => cause.root
  | error => error

def message : Error → Except Fault String
  | .malformed error => .ok error.message
  | .undefined name pos => .ok ("undefined variable '" ++ name ++ "'" ++ pos.clause)
  | .mismatch reason => reason.message
  | .plain text => .ok text
  | .within context cause => do return context ++ ": " ++ (← cause.message)

/-- The text of an error in a log line, where the cause comes first and each context has a line of
its own. -/
def logText : Error → Except Fault String
  | .within context cause => do return (← cause.logText) ++ "\n" ++ context
  | error => error.message

/-- The class of an error; zero is for errors without one. -/
def code : Error → Nat
  | .malformed _ => 1
  | .undefined _ _ => 2
  | .mismatch (.constructors _ _) => 3
  | .mismatch (.arity _ _) => 4
  | .mismatch (.infinite _ _) => 5
  | .plain _ => 0
  | .within _ cause => cause.code

def isMismatch : Error → Bool
  | .mismatch _ => true
  | .within _ cause => cause.isMismatch
  | _ => false

def threeDigits (number : Nat) : String :=
  let digits := toString number
  String.ofList (List.replicate (3 - digits.length) '0') ++ digits

def formatted (error : Error) : Except Fault String := do
  return "(E" ++ threeDigits error.code ++ ") " ++ (← error.message)

def report (error : Error) : Except Fault String := do
  let heading :=
    match error.code with
    | 0 => "Error: "
    | 1 => "Syntax Error: "
    | _ => "Type Error: "
  return heading ++ (← error.message) ++ "\n"

end Error

end HindleyMilner
