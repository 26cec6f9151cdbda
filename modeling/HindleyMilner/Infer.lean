import HindleyMilner.Env
import HindleyMilner.Error
import HindleyMilner.Expr
import HindleyMilner.Supply

/-! Type inference for expressions with polymorphic local definitions.

Inference goes through an expression from left to right. It takes fresh variables from a supply,
learns a substitution for the variables of the environment and of the types found so far, and
assigns a type to each node. What it does on the way is kept as a list of events, so that a log can
be written from it; the events have no influence on the outcome. -/

set_option autoImplicit false

namespace HindleyMilner

inductive Event where
  /-- A local definition was given a scheme. -/
  | generalized (name : String) (scheme : Scheme)
  /-- A function was applied: two types were unified or found not to unify. -/
  | unified (first second : Ty) (outcome : Except Mismatch Subst)
  /-- The whole expression has no type. -/
  | failed (expr : Expr) (error : Error)

/-- A node that cannot be given a type: a variable that is bound nowhere, or a call whose parts, which
have their types by then, do not fit. -/
inductive Spot where
  | var (name : String) (mark : Mark)
  | call (fn arg : Expr) (mark : Mark) (fnTyped argTyped : Expr)
  deriving DecidableEq, Repr

def Spot.given : Spot → Expr
  | .var name mark => .var name mark
  | .call fn arg mark _ _ => .call fn arg mark

/-- The node with the types that were assigned before inference stopped at it. -/
def Spot.annotated : Spot → Expr
  | .var name mark => .var name mark
  | .call _ _ mark fnTyped argTyped => .call fnTyped argTyped mark

inductive Stop where
  | failed (error : Error) (spot : Spot)
  | fault (fault : Fault)
  deriving DecidableEq, Repr

/-- What inference finds: the substitution it learned, the type, and the expression with a type
assigned to each node. The assigned types are final only after the substitution is applied. -/
structure Typing where
  subst : Subst
  type : Ty
  tree : Expr

namespace Infer

/-- The variables left and the events so far, the latest first. -/
structure Progress where
  supply : Supply
  events : List Event

end Infer

/-- A step of inference. Progress is kept also when the step stops. -/
abbrev Infer (α : Type) := ExceptT Stop (StateM Infer.Progress) α

namespace Infer

def fresh : Infer Ty := do
  let progress ← get
  let (name, supply) := progress.supply.fresh
  set { progress with supply }
  return .var name

def instantiate (scheme : Scheme) : Infer Ty := do
  let progress ← get
  let (t, supply) := progress.supply.instantiate scheme
  set { progress with supply }
  return t

def emit (event : Event) : Infer Unit :=
  modify fun progress => { progress with events := event :: progress.events }

def applying (fn arg : Expr) : String := "cannot apply " ++ fn.render ++ " to " ++ arg.render

def typing (env : Env) : Expr → Infer Typing
  | .absent => throw (.fault .missingNode)
  | .lit kind text mark =>
    match kind.type with
    | .error fault => throw (.fault fault)
    | .ok t => return ⟨∅, t, .lit kind text { mark with type := t }⟩
  | .var name mark =>
    match env.find? name with
    | none => throw (.failed (.undefined name mark.pos) (.var name mark))
    | some scheme => do
      let t ← instantiate scheme
      return ⟨∅, t, .var name { mark with type := t }⟩
  | .func param body mark => do
    let domain ← fresh
    let found ← typing (env.declare param domain) body
    let t := found.subst.apply (.arrow domain found.type)
    return ⟨found.subst, t, .func param found.tree { mark with type := t }⟩
  | .call fn arg mark => do
    let function ← typing env fn
    let argument ← typing (env.subst function.subst) arg
    let result ← fresh
    -- What the argument has taught may refine the type of the function.
    let actual := argument.subst.apply function.type
    let needed := Ty.arrow argument.type result
    match unify actual needed with
    | .error (.fault fault) => throw (.fault fault)
    | .error (.mismatch reason) =>
      emit (.unified actual needed (.error reason))
      throw (.failed (.within (applying fn arg) (.mismatch reason))
        (.call fn arg mark function.tree argument.tree))
    | .ok s =>
      emit (.unified actual needed (.ok s))
      let t := s.apply result
      return ⟨function.subst.compose (argument.subst.compose s), t,
        .call function.tree argument.tree { mark with type := t }⟩
  | .letIn name value body pos => do
    let definition ← typing env value
    -- The environment is refined first, so that nothing it owns is quantified.
    let env := env.subst definition.subst
    let scheme := env.generalize definition.type
    emit (.generalized name scheme)
    let found ← typing (env.extend name scheme) body
    return ⟨definition.subst.compose found.subst, found.type,
      .letIn name definition.tree found.tree pos⟩

end Infer

end HindleyMilner
