import HindleyMilner.Expr.Reader
import HindleyMilner.Prelude
import HindleyMilner.Session
import HindleyMilner.Text.Lines

/-! Reading lines and answering each with a type.

A line that starts with a colon is a command, and any other line that is not blank is an expression.
Lines do not depend on each other: after each expression the session starts again. -/

set_option autoImplicit false

namespace HindleyMilner.Repl

def help : String :=
  "syntax: e ::= x | int | true | false | (e e ...) | (\\x -> e) | (let x = e in e)\n"
    ++ "commands: :env (list the context), :help, :quit\n"

def banner (env : Env) : Except Fault String := do
  return help ++ "Run in Context:\n" ++ (← env.render) ++ "\n"

def prompt : String := "> "

/-- What is written for a line, what is logged, the session after it, and whether it ends the
reading. -/
structure Reply where
  out : String := ""
  log : String := ""
  session : Session
  quits : Bool := false

def trim (line : List Text.Piece) : List Text.Piece :=
  let isBlank (piece : Text.Piece) : Bool :=
    match piece with
    | .char c => Text.isBlank c
    | .stray _ => false
  ((line.dropWhile isBlank).reverse.dropWhile isBlank).reverse

/-- Infer the type of an expression and say what it is. The session is the one inference leaves. -/
def evaluate (config : Log.Config) (env : Env) (session : Session) (source : String) : Except Fault Reply := do
  match Expr.parse source with
  | .error error => return { session, out := ← (Error.malformed error).report }
  | .ok expr =>
    let answer := session.infer env expr
    -- A failure that is remembered here is forgotten by the reset after the answer.
    let session := answer.session
    match ← answer.logged config with
    | (.error (.failed error), log) => return { session, log, out := ← error.report }
    | (.error (.fault fault), _) => .error fault
    | (.ok found, log) =>
      return { session, log, out := "\x60" ++ source ++ "\x60 infer as \x60" ++ (← found.type.render) ++ "\x60\n" }

def evalLine (config : Log.Config) (source : List Text.Piece) : String :=
  Log.debugLine config "repl" "eval" [⟨"src", .text source⟩]

def reply (config : Log.Config) (env : Env) (session : Session) (line : List UInt8) : Except Fault Reply := do
  let pieces := trim (Text.pieces line)
  let source := String.ofList (pieces.map Text.Piece.toChar)
  if source = "" then return { session }
  else if source = ":quit" || source = ":q" then return { session, quits := true }
  else if source = ":help" then return { session, out := help }
  else if source = ":env" then return { session, out := ← env.render }
  else if source.toList.head? = some ':' then
    return { session, out := "Unknown command " ++ source ++ " (try :help)\n" }
  else
    let answer ← evaluate config env session source
    return { session := answer.session.reset, out := answer.out, log := evalLine config pieces ++ answer.log }

/-- Where the texts for a person and those for a log go. -/
structure Console (m : Type → Type) where
  write : String → m Unit
  log : String → m Unit

section Conversation

variable {m : Type → Type} [Monad m] [MonadExceptOf Fault m] (console : Console m) (config : Log.Config) (env : Env)

def exchange (mark : String) (line : List UInt8) (state : Session × Bool) : m (ForInStep (Session × Bool)) := do
  let answer ← MonadExcept.ofExcept (reply config env state.1 line)
  console.log answer.log
  console.write answer.out
  if answer.quits then return .done (answer.session, true)
  else
    console.write mark
    return .yield (answer.session, false)

/-- Answer lines until one quits, and tell whether one did. The banner and the prompts are written only
where a person types the lines. -/
def converse {ρ : Type} [ForIn m ρ (List UInt8)] (interactive : Bool) (lines : ρ) : m Bool := do
  let mark := if interactive then prompt else ""
  if interactive then console.write (← MonadExcept.ofExcept (banner env))
  console.write mark
  let (_, quits) ← forIn lines ({}, false) (exchange console config env mark)
  if interactive && !quits then console.write "\n"
  return quits

end Conversation

structure Transcript where
  out : String := ""
  log : String := ""
  error : Option String := none

def recorder : Console (StateT Transcript (Except Fault)) where
  write text := modify fun kept => { kept with out := kept.out ++ text }
  log text := modify fun kept => { kept with log := kept.log ++ text }

/-- The conversation over some lines; `error` is what stops the reading after the last one. -/
def record (config : Log.Config) (env : Env) (interactive : Bool) (error : Option String)
    (lines : List (List UInt8)) : Except Fault Transcript := do
  let (quits, kept) ← (converse recorder config env interactive lines).run {}
  return { kept with error := if quits then none else error }

def tooLong : String := "bufio.Scanner: token too long"

def run (config : Log.Config) (env : Env) (interactive : Bool) (input : List UInt8)
    (inputError : Option String) : Except Fault Transcript :=
  let ⟨lines, overlong⟩ := Text.lines input
  record config env interactive (if overlong then some tooLong else inputError) lines

end HindleyMilner.Repl
