import HindleyMilner.Command

/-! The command-line program: reads what a command needs, and writes what it answers. -/

set_option autoImplicit false

namespace HindleyMilner.Program

def fail (report : Except Fault String) : IO UInt32 := do
  match report with
  | .ok text => IO.eprint text
  | .error fault => IO.eprintln fault.message
  return 1

def finish (outcome : Except Fault Command.Outcome) : IO UInt32 := do
  match outcome with
  | .error fault => fail (.error fault)
  | .ok outcome =>
    IO.eprint outcome.log
    IO.print outcome.out
    match outcome.error with
    | none => return 0
    | some error => fail error.report

/-- The lines typed at a terminal, which are read one by one as they are asked for. -/
structure TypedLines where
  stdin : IO.FS.Stream

partial def TypedLines.forEach {β : Type} (lines : TypedLines) (state : β)
    (step : List UInt8 → β → ExceptT Fault IO (ForInStep β)) : ExceptT Fault IO β := do
  (← IO.getStdout).flush
  let line ← lines.stdin.getLine
  if line = "" then return state
  else
    match ← step line.toUTF8.toList state with
    | .done state => return state
    | .yield state => lines.forEach state step

instance : ForIn (ExceptT Fault IO) TypedLines (List UInt8) where
  forIn lines state step := lines.forEach state step

def terminal : Repl.Console (ExceptT Fault IO) where
  write text := IO.print text
  log text := IO.eprint text

def greet (config : Log.Config) (loaded : Prelude.Loaded) (prelude : Prelude) (stdin : IO.FS.Stream) : IO UInt32 := do
  let conversation : ExceptT Fault IO Bool := do
    IO.eprint (← MonadExcept.ofExcept (loaded.log config))
    Repl.converse terminal config prelude.env true (TypedLines.mk stdin)
  match ← conversation.run with
  | .error fault => fail (.error fault)
  | .ok _ => return 0

/-- Why the system does not open a file, by its number for the reason. -/
def fileError (error : IO.Error) : Command.FileError :=
  match error with
  | .noFileOrDirectory .. => .missing
  | .inappropriateType _ 20 _ => .notAFolder
  | .inappropriateType _ 21 _ => .isAFolder
  | .invalidArgument _ 36 _ => .nameTooLong
  | .invalidArgument .. => .badPath
  | error => .other (toString error)

def readBytes (path : String) : IO (Except Command.FileError (List UInt8)) := do
  if path.contains '\x00' then return .error .badPath
  else
    try
      return .ok (← IO.FS.readBinFile path).toList
    catch error => return .error (fileError error)

partial def readInput (stream : IO.FS.Stream) (bytes : ByteArray) : IO ByteArray := do
  let chunk ← stream.read 65536
  if chunk.isEmpty then return bytes else readInput stream (bytes ++ chunk)

def follow (command : Command) : IO UInt32 := do
  let path := command.settings.prelude
  let file ← if path = "" then pure (.error .missing) else readBytes path
  let inputs : Command.Inputs := { file := fun _ => file }
  let stdin ← IO.getStdin
  if command.task = .repl && (← stdin.isTty) then
    let loaded := command.settings.loadPrelude inputs
    match Log.Level.parse command.settings.logLevel, loaded.outcome with
    | .ok level, .ok prelude => greet { level } loaded prelude stdin
    | _, _ => finish (command.run inputs)
  else
    let bytes ← if command.readsInput then readInput stdin .empty else pure .empty
    finish (command.run { inputs with stdin := bytes.toList })

end HindleyMilner.Program

def main (args : List String) : IO UInt32 :=
  match HindleyMilner.Command.parse args with
  | .error misuse => HindleyMilner.Program.finish (.ok (HindleyMilner.Command.refused misuse))
  | .ok command => HindleyMilner.Program.follow command
