import HindleyMilner.Fault
import HindleyMilner.Ty

/-! The text of a type.

Function types are infix and associate to the right; other constructors stand before their
arguments. Parentheses stand only where the text would be read otherwise: around a function type
that is a domain or an argument, and around an argument that has arguments of its own. -/

set_option autoImplicit false

namespace HindleyMilner.Ty

inductive Place where
  | top
  | domain
  | argument
  deriving DecidableEq, Repr

def parens (needed : Bool) (text : String) : String :=
  if needed then "(" ++ text ++ ")" else text

mutual
def renderAt (place : Place) : Ty → Except Fault String
  | .absent => .ok "<nil>"
  | .var name => .ok name
  | .app con args =>
    if con = arrowName then
      match args with
      | [domain, codomain] => do
        let left ← renderAt .domain domain
        let right ← renderAt .top codomain
        return parens (place ≠ .top) (left ++ " -> " ++ right)
      | _ => .error (.malformedArrow args.length)
    else
      match args with
      | [] => .ok con
      | _ => do
        let rest ← renderArgs args
        return parens (place = .argument) (con ++ rest)

def renderArgs : List Ty → Except Fault String
  | [] => .ok ""
  | t :: rest => do
    let first ← renderAt .argument t
    let others ← renderArgs rest
    return " " ++ first ++ others
end

def render (t : Ty) : Except Fault String := renderAt .top t

/-- A text for every type: one that cannot be printed is named by its constructor and the number
of its arguments. -/
def describe (t : Ty) : String :=
  match t.render with
  | .ok text => text
  | .error _ =>
    match t with
    | .absent => "<nil>"
    | .var name => name
    | .app con args => con ++ "/" ++ toString args.length

end HindleyMilner.Ty
