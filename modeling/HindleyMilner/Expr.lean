import HindleyMilner.Fault
import HindleyMilner.Position
import HindleyMilner.Ty

/-! Expressions: literals, variables, calls, functions and local definitions.

Every node knows its place in the source, and every node but a local definition carries the type
assigned to it, which is absent until inference assigns one. The type of a local definition is the
type of its body. An absent expression marks the place of one that was not given. -/

set_option autoImplicit false

namespace HindleyMilner

/-- What a literal is; its code is its number among the kinds. -/
inductive LiteralKind where
  | int
  | bool
  | unknown (code : Int)
  deriving DecidableEq, Repr

namespace LiteralKind

def ofCode (code : Int) : LiteralKind :=
  if code = 0 then .int else if code = 1 then .bool else .unknown code

def code : LiteralKind → Int
  | .int => 0
  | .bool => 1
  | .unknown code => code

def type : LiteralKind → Except Fault Ty
  | .int => .ok .int
  | .bool => .ok .bool
  | .unknown code => .error (.unknownLiteral code)

end LiteralKind

structure Mark where
  pos : Position := {}
  type : Ty := .absent
  deriving DecidableEq, Repr

inductive Expr where
  | absent
  | lit (kind : LiteralKind) (text : String) (mark : Mark)
  | var (name : String) (mark : Mark)
  | call (fn arg : Expr) (mark : Mark)
  | func (param : String) (body : Expr) (mark : Mark)
  | letIn (name : String) (value body : Expr) (pos : Position)
  deriving DecidableEq, Repr, Inhabited

namespace Expr

def calls (fn : Expr) (args : List Expr) (mark : Mark := {}) : Expr :=
  args.foldl (fun fn arg => .call fn arg mark) fn

def funcs (params : List String) (body : Expr) (mark : Mark := {}) : Expr :=
  params.foldr (fun param body => .func param body mark) body

def pos : Expr → Position
  | .absent => {}
  | .lit _ _ mark | .var _ mark | .call _ _ mark | .func _ _ mark => mark.pos
  | .letIn _ _ _ pos => pos

def type : Expr → Ty
  | .absent => .absent
  | .lit _ _ mark | .var _ mark | .call _ _ mark | .func _ _ mark => mark.type
  | .letIn _ _ body _ => body.type

def label : Expr → String
  | .absent => "<nil>"
  | .lit _ text _ => text
  | .var _ _ => "Var"
  | .call _ _ _ => "Call"
  | .func _ _ _ => "Func"
  | .letIn _ _ _ _ => "Let"

/-- The text of an expression, with parentheses around all but literals and variables. -/
def render : Expr → String
  | .absent => "<nil>"
  | .lit _ text _ => text
  | .var name _ => name
  | .call fn arg _ => "(" ++ fn.render ++ " " ++ arg.render ++ ")"
  | .func param body _ => "(\\" ++ param ++ " -> " ++ body.render ++ ")"
  | .letIn name value body _ =>
    "(let " ++ name ++ " = " ++ value.render ++ " in " ++ body.render ++ ")"

/-- The expression and its parts, each before its own parts; absent ones are passed over. -/
def nodes : Expr → List Expr
  | .absent => []
  | .lit kind text mark => [.lit kind text mark]
  | .var name mark => [.var name mark]
  | .call fn arg mark => .call fn arg mark :: (fn.nodes ++ arg.nodes)
  | .func param body mark => .func param body mark :: body.nodes
  | .letIn name value body pos => .letIn name value body pos :: (value.nodes ++ body.nodes)

/-- Change the types assigned to all nodes that carry one. -/
def mapTypes (f : Ty → Ty) : Expr → Expr
  | .absent => .absent
  | .lit kind text mark => .lit kind text { mark with type := f mark.type }
  | .var name mark => .var name { mark with type := f mark.type }
  | .call fn arg mark => .call (fn.mapTypes f) (arg.mapTypes f) { mark with type := f mark.type }
  | .func param body mark => .func param (body.mapTypes f) { mark with type := f mark.type }
  | .letIn name value body pos => .letIn name (value.mapTypes f) (body.mapTypes f) pos

end Expr

end HindleyMilner
