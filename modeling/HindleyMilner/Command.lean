import HindleyMilner.Command.Files
import HindleyMilner.Command.Options
import HindleyMilner.Expr.Outline
import HindleyMilner.Prelude.Document
import HindleyMilner.Repl

/-! The commands: `infer` prints the type of one expression, `repl` answers lines, and `help` and
`completion` tell about the others.

What a command reads is given to it, and what it writes is its value. -/

set_option autoImplicit false

namespace HindleyMilner

namespace Command

structure Inputs where
  stdin : List UInt8 := []
  /-- Why standard input broke off, if it did. -/
  stdinError : Option String := none
  /-- Whether a person types the standard input. -/
  interactive : Bool := false
  /-- The bytes of the file at a path, or why there are none. -/
  file : String → Except FileError (List UInt8)

/-- What a command writes, and the error it ends with, if it fails. -/
structure Outcome where
  out : String := ""
  log : String := ""
  error : Option Error := none

def Settings.loadPrelude (settings : Settings) (inputs : Inputs) : Prelude.Loaded :=
  if settings.prelude = "" then Prelude.standard
  else
    match inputs.file settings.prelude with
    | .ok bytes => Prelude.load settings.prelude bytes
    | .error reason =>
      Prelude.unreadable settings.prelude
        (.within ("reading prelude " ++ settings.prelude) (.plain (reason.message settings.prelude)))

def readSource (source : Option String) (inputs : Inputs) : Except Error String :=
  match source with
  | some text => .ok text
  | none =>
    match inputs.stdinError with
    | some reason => .error (.within "reading expression" (.plain reason))
    | none => .ok (String.ofList (Text.decode inputs.stdin))

def explain (annotated : Expr) : Except Fault String := do
  let lines ← annotated.nodes.mapM fun node => do
    return node.render ++ " : " ++ (← node.type.render) ++ "\n"
  return String.join lines

def conclude (config : Log.Config) (env : Env) (scheme : Bool) (expr : Expr) : Except Fault Outcome := do
  let session : Session := {}
  if scheme then
    match ← (session.inferScheme env expr).logged config with
    | (.ok found, log) => return { out := (← found.render) ++ "\n", log }
    | (.error (.failed error), log) => return { log, error := some error }
    | (.error (.fault fault), _) => .error fault
  else
    match ← (session.infer env expr).logged config with
    | (.ok found, log) => return { out := (← found.type.render) ++ "\n", log }
    | (.error (.failed error), log) => return { log, error := some error }
    | (.error (.fault fault), _) => .error fault

/-- Write one outcome after another; an error leaves out what would follow. -/
def Outcome.andThen (first : Outcome) (next : Except Fault Outcome) : Except Fault Outcome := do
  if first.error.isSome then return first
  else
    let next ← next
    return ⟨first.out ++ next.out, first.log ++ next.log, next.error⟩

def runInfer (config : Log.Config) (env : Env) (display : Display) (source : String) :
    Except Fault Outcome := do
  match Expr.parse source with
  | .error error => return { error := some (.malformed error) }
  | .ok expr =>
    let outline : Outcome := { out := if display.debug then expr.outline else "" }
    let explained : Outcome ←
      if display.explain then
        match ← ((Session.annotate {} env expr).logged config) with
        | (.ok annotated, log) => do pure { out := ← explain annotated, log }
        | (.error (.failed error), log) => pure { log, error := some error }
        | (.error (.fault fault), _) => .error fault
      else pure {}
    -- Where the types cannot be told, inference is not run a second time.
    let shown ← outline.andThen (.ok explained)
    shown.andThen (conclude config env display.scheme expr)

def usage : String :=
  "usage: " ++ programName ++ " infer [--scheme] [--explain] [--debug] [expression]\n"
    ++ "       " ++ programName ++ " repl\n"
    ++ "options: --prelude file, --log-level level\n"

def commandList : String := String.join (["completion", "help", "infer", "repl"].map (· ++ "\n"))

def run (command : Command) (inputs : Inputs) : Except Fault Outcome := do
  match command.task with
  | .help => withLevel fun _ => return { out := usage }
  | .completion => withLevel fun _ => return { out := commandList }
  | .infer display source =>
    withLevel fun config => do
      match readSource source inputs with
      | .error error => return { error := some error }
      | .ok text => withPrelude config fun env => runInfer config env display text
  | .repl =>
    withLevel fun config =>
      withPrelude config fun env => do
        let transcript ← Repl.run config env inputs.interactive inputs.stdin inputs.stdinError
        return ⟨transcript.out, transcript.log, transcript.error.map .plain⟩
where
  withLevel (next : Log.Config → Except Fault Outcome) : Except Fault Outcome :=
    match Log.Level.parse command.settings.logLevel with
    | .ok level => next { level }
    | .error reason =>
      let context := "invalid log level " ++ Text.quote command.settings.logLevel
      let cause := Log.Level.Invalid.message command.settings.logLevel reason
      return { error := some (.within context (.plain cause)) }
  withPrelude (config : Log.Config) (next : Env → Except Fault Outcome) : Except Fault Outcome := do
    let loaded := command.settings.loadPrelude inputs
    let log ← loaded.log config
    match loaded.outcome with
    | .error error => return { log, error := some error }
    | .ok prelude => Outcome.andThen { log } (next prelude.env)

def readsInput (command : Command) : Bool :=
  match command.task with
  | .infer _ none | .repl => true
  | .infer _ (some _) | .help | .completion => false

def refused (misuse : Misuse) : Outcome := { error := some (.plain misuse.message) }

def execute (args : List String) (inputs : Inputs) : Except Fault Outcome :=
  match parse args with
  | .error misuse => return refused misuse
  | .ok command => command.run inputs

end Command

end HindleyMilner
