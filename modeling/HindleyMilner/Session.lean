import HindleyMilner.Infer
import HindleyMilner.Log

/-! Inference sessions.

A session goes on numbering fresh variables from one request to the next and remembers the last
failure. A request that succeeds forgets an earlier failure. -/

set_option autoImplicit false

namespace HindleyMilner

structure Failure where
  error : Error
  node : Expr
  deriving DecidableEq, Repr

structure Session where
  supply : Supply := {}
  failure : Option Failure := none

inductive Halt where
  | failed (error : Error)
  | fault (fault : Fault)
  deriving DecidableEq, Repr

structure Answer (α : Type) where
  outcome : Except Halt α
  session : Session
  events : List Event

def Answer.map {α β : Type} (f : α → β) (answer : Answer α) : Answer β :=
  { answer with outcome := answer.outcome.map f }

namespace Event

/-- The line that a log shows for an event. The texts of an event are made whenever debug records
are logged at all, whether or not its section is enabled. -/
def line (config : Log.Config) (event : Event) : Except Fault String :=
  if config.enables Log.Level.debug then
    match event with
    | .generalized name scheme => do
      return Log.debugLine config "infer" "generalize"
        [⟨"name", .ofString name⟩, ⟨"scheme", .ofString (← scheme.render)⟩]
    | .unified first second outcome => do
      let first ← first.render
      let second ← second.render
      let last : Log.Attr ←
        match outcome with
        | .ok s => do pure ⟨"subst", .ofString (← s.render)⟩
        | .error reason => do pure ⟨"err", .ofString (← reason.message)⟩
      return Log.debugLine config "unify" "unify"
        [⟨"a", .ofString first⟩, ⟨"b", .ofString second⟩, last]
    | .failed expr error => do
      return Log.debugLine config "infer" "inference failed"
        [⟨"expr", .ofString expr.render⟩, ⟨"err", .ofString (← error.logText)⟩]
  else .ok ""

def log (config : Log.Config) (events : List Event) : Except Fault String := do
  return String.join (← events.mapM (line config))

end Event

/-- An answer together with its log. A fault while the log is written stops the request. -/
def Answer.logged {α : Type} (config : Log.Config) (answer : Answer α) :
    Except Fault (Except Halt α × String) := do
  let log ← Event.log config answer.events
  match answer.outcome with
  | .error (.fault fault) => .error fault
  | outcome => return (outcome, log)

namespace Session

def reset (session : Session) : Session := ⟨session.supply.reset, none⟩

def remembers (session : Session) (error : Error) : Bool :=
  session.failure.any (·.error = error)

def instantiate (session : Session) (scheme : Scheme) : Ty × Session :=
  let (t, supply) := session.supply.instantiate scheme
  (t, { session with supply })

/-- Find a type for an expression. An absent expression is refused before the session changes. A
failure is remembered with `node` of the place where inference stops. -/
def request (session : Session) (node : Spot → Expr) (env : Env) (expr : Expr) : Answer Typing :=
  if expr = .absent then ⟨.error (.failed (.plain "empty expression")), session, []⟩
  else
    let (outcome, progress) := (Infer.typing env expr).run.run ⟨session.supply, []⟩
    match outcome with
    | .ok found => ⟨.ok found, ⟨progress.supply, none⟩, progress.events.reverse⟩
    -- Only an error at a node is remembered. A fault leaves the session as a success does.
    | .error (.fault fault) => ⟨.error (.fault fault), ⟨progress.supply, none⟩, progress.events.reverse⟩
    | .error (.failed error spot) =>
      ⟨.error (.failed error), ⟨progress.supply, some ⟨error, node spot⟩⟩,
        progress.events.reverse ++ [.failed expr error]⟩

def infer (session : Session) (env : Env) (expr : Expr) : Answer Typing :=
  session.request Spot.given env expr

def inferScheme (session : Session) (env : Env) (expr : Expr) : Answer Scheme :=
  (session.infer env expr).map fun found => (env.subst found.subst).generalize found.type

/-- Assign its type to each node of a copy of the expression. A failure is remembered with a node of
the copy, whose parts have some of their types already. -/
def annotate (session : Session) (env : Env) (expr : Expr) : Answer Expr :=
  (session.request Spot.annotated env expr).map fun found => found.tree.mapTypes found.subst.apply

end Session

end HindleyMilner
