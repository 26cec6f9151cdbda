import HindleyMilner.Command.Suggestion
import HindleyMilner.Text.Quoted

/-! Command lines.

A command line names a command and gives options and words. Options may stand anywhere before a
`--`, and the last one given counts. Besides `infer` and `repl` there is `help`, and `completion`
with a command of its own for each shell. -/

set_option autoImplicit false

namespace HindleyMilner

namespace Command

structure Settings where
  prelude : String := ""
  logLevel : String := "warn"
  deriving DecidableEq, Repr

structure Display where
  scheme : Bool := false
  explain : Bool := false
  debug : Bool := false
  deriving DecidableEq, Repr

inductive Task where
  | infer (display : Display) (source : Option String)
  | repl
  | help
  /-- List the commands for a shell that completes what is typed. -/
  | completion
  deriving DecidableEq, Repr

inductive Misuse where
  | unknownCommand (name : String)
  /-- A word after a command that takes none. -/
  | unexpectedWord (word command : String)
  | unknownFlag (name : String)
  | unknownShorthand (letter : Char) (group : String)
  | badFlag (text : String)
  | valueMissing (flag : String)
  /-- A value of a switch that is neither true nor false. -/
  | notABool (flag value : String)
  | tooMany (most found : Nat)
  | tooFew (least found : Nat)
  deriving DecidableEq, Repr

def programName : String := "algw"

def quoteLetter (letter : Char) : String :=
  let text :=
    if letter = '\'' then "\\'" else if letter = '"' then "\"" else Text.quoteChar letter
  "'" ++ text ++ "'"

def Misuse.message : Misuse → String
  | .unknownCommand name =>
    "unknown command " ++ Text.quote name ++ " for " ++ Text.quote programName ++ hint name
  | .unexpectedWord word command =>
    "unknown command " ++ Text.quote word ++ " for " ++ Text.quote (programName ++ " " ++ command)
  | .unknownFlag name => "unknown flag: --" ++ name
  | .unknownShorthand letter group =>
    "unknown shorthand flag: " ++ quoteLetter letter ++ " in -" ++ group
  | .badFlag text => "bad flag syntax: " ++ text
  | .valueMissing flag => "flag needs an argument: " ++ flag
  | .notABool flag value =>
    "invalid argument " ++ Text.quote value ++ " for " ++ Text.quote flag
      ++ " flag: strconv.ParseBool: parsing " ++ Text.quote value ++ ": invalid syntax"
  | .tooMany most found =>
    "accepts at most " ++ toString most ++ " arg(s), received " ++ toString found
  | .tooFew least found =>
    "requires at least " ++ toString least ++ " arg(s), only received " ++ toString found

/-- A command; `root` is the program without one. -/
inductive Name where
  | root
  | infer
  | repl
  | help
  | completion
  /-- The script of a shell. -/
  | script (shell : String)
  /-- What a script asks for while a command line is typed. -/
  | choices
  deriving DecidableEq, Repr

def shells : List String := ["bash", "zsh", "fish", "powershell"]

def Name.subcommand? (name : Name) (word : String) : Option Name :=
  match name with
  | .root =>
    if word = "infer" then some .infer
    else if word = "repl" then some .repl
    else if word = "help" then some .help
    else if word = "completion" then some .completion
    else if word = "__complete" || word = "__completeNoDesc" then some .choices
    else none
  | .completion => if word ∈ shells then some (.script word) else none
  | _ => none

/-- Commands that only group others have nothing to do but to show help. -/
def Name.isGroup : Name → Bool
  | .root | .completion => true
  | _ => false

def startsWith (text start : String) : Bool := start.toList.isPrefixOf text.toList

/-- The argument is an option whose value, before the command is known, is taken to be the next
argument. -/
def takesNext (arg : String) : Bool :=
  !arg.contains '=' && (startsWith arg "--" || (startsWith arg "-" && arg.utf8ByteSize == 2))

def firstWord? : List String → Option String
  | [] => none
  | arg :: rest =>
    if arg = "--" then none
    else if takesNext arg then
      match rest with
      | _ :: next :: others => firstWord? (next :: others)
      | _ => none
    else if arg ≠ "" && !startsWith arg "-" then some arg
    else firstWord? rest

/-- Leave out the first argument that is a word, is no value of an option and has a given text. -/
def dropWord (word : String) : List String → List String
  | [] => []
  | arg :: rest =>
    if arg = "--" then arg :: rest
    else if takesNext arg then
      match rest with
      | [] => [arg]
      | value :: others => arg :: value :: dropWord word others
    else if arg = word then rest
    else arg :: dropWord word rest

def Name.descend (name : Name) (args : List String) : Name × List String :=
  match firstWord? args with
  | none => (name, args)
  | some word =>
    match name.subcommand? word with
    | none => (name, args)
    | some next => (next, dropWord word args)

/-- The command that the arguments name, and the arguments without its words. Commands are nested
two deep. -/
def locate (args : List String) : Name × List String :=
  let (name, args) := Name.root.descend args
  name.descend args

structure Parsed where
  settings : Settings := {}
  display : Display := {}
  help : Bool := false
  words : List String := []
  deriving DecidableEq, Repr

inductive Flag where
  | prelude
  | logLevel
  | scheme
  | explain
  | debug
  | noDescriptions
  | help
  deriving DecidableEq, Repr

def Name.ownFlag? (command : Name) (name : String) : Option Flag :=
  match command with
  | .infer =>
    if name = "scheme" then some .scheme
    else if name = "explain" then some .explain
    else if name = "debug" then some .debug
    else none
  | .script _ => if name = "no-descriptions" then some .noDescriptions else none
  | _ => none

def Name.flag? (command : Name) (name : String) : Option Flag :=
  if name = "prelude" then some .prelude
  else if name = "log-level" then some .logLevel
  else if name = "help" then some .help
  else command.ownFlag? name

def Flag.isSwitch : Flag → Bool
  | .prelude | .logLevel => false
  | _ => true

def bool? (text : String) : Option Bool :=
  if text ∈ ["1", "t", "T", "TRUE", "true", "True"] then some true
  else if text ∈ ["0", "f", "F", "FALSE", "false", "False"] then some false
  else none

def Flag.render : Flag → String
  | .prelude => "--prelude"
  | .logLevel => "--log-level"
  | .scheme => "--scheme"
  | .explain => "--explain"
  | .debug => "--debug"
  | .noDescriptions => "--no-descriptions"
  | .help => "-h, --help"

def Parsed.set (parsed : Parsed) (flag : Flag) (value : String) : Except Misuse Parsed := do
  let bool : Except Misuse Bool :=
    match bool? value with
    | some value => .ok value
    | none => .error (.notABool flag.render value)
  match flag with
  | .prelude => return { parsed with settings := { parsed.settings with prelude := value } }
  | .logLevel => return { parsed with settings := { parsed.settings with logLevel := value } }
  | .scheme => return { parsed with display := { parsed.display with scheme := ← bool } }
  | .explain => return { parsed with display := { parsed.display with explain := ← bool } }
  | .debug => return { parsed with display := { parsed.display with debug := ← bool } }
  -- The switch changes nothing here, but its value is checked.
  | .noDescriptions => do
    discard bool
    return parsed
  | .help => return { parsed with help := ← bool }

def splitFlag (text : List Char) : String × Option String :=
  let name := String.ofList (text.takeWhile (· ≠ '='))
  match text.dropWhile (· ≠ '=') with
  | [] => (name, none)
  | _ :: value => (name, some (String.ofList value))

def firstByte (text : List Char) : Char :=
  match (String.ofList text).toUTF8.toList with
  | [] => '-'
  | byte :: _ => Char.ofNat byte.toNat

/-- Options that are meant for a test of the program, and not for the program itself. -/
def isTestGroup (group : List Char) : Bool := "test.".toList.isPrefixOf group

/-- Read single-letter options that share one dash. Only `h` is one, and what follows an equals sign is
its value. -/
def parseLetters (parsed : Parsed) : List Char → Except Misuse Parsed
  | [] => .ok parsed
  | 'h' :: '=' :: first :: value => parsed.set .help (String.ofList (first :: value))
  | 'h' :: rest => do parseLetters (← parsed.set .help "true") rest
  | group =>
    if isTestGroup group then .ok parsed
    else .error (.unknownShorthand (firstByte group) (String.ofList group))

def parseArgs (command : Name) (parsed : Parsed) : List String → Except Misuse Parsed
  | [] => .ok parsed
  | arg :: rest =>
    match arg.toList with
    | ['-', '-'] => .ok { parsed with words := parsed.words ++ rest }
    | '-' :: '-' :: text =>
      if text.head? = some '-' || text.head? = some '=' then .error (.badFlag arg)
      else
        let (name, value) := splitFlag text
        match command.flag? name with
        | none => .error (.unknownFlag name)
        | some flag =>
          match value with
          | some value => do parseArgs command (← parsed.set flag value) rest
          | none =>
            if flag.isSwitch then do parseArgs command (← parsed.set flag "true") rest
            else
              match rest with
              | [] => .error (.valueMissing arg)
              | value :: others => do parseArgs command (← parsed.set flag value) others
    | '-' :: letter :: group => do parseArgs command (← parseLetters parsed (letter :: group)) rest
    | _ => parseArgs command { parsed with words := parsed.words ++ [arg] } rest

end Command

structure Command where
  settings : Command.Settings
  task : Command.Task
  deriving DecidableEq, Repr

namespace Command

def Name.task (name : Name) (parsed : Parsed) : Except Misuse Task :=
  match name, parsed.words with
  | .infer, [] => .ok (.infer parsed.display none)
  -- A lone dash stands for the standard input, as no word does.
  | .infer, [source] => .ok (.infer parsed.display (if source = "-" then none else some source))
  | .infer, words => .error (.tooMany 1 words.length)
  | .repl, [] => .ok .repl
  | .repl, word :: _ => .error (.unexpectedWord word "repl")
  | .script _, [] => .ok .completion
  | .script shell, word :: _ => .error (.unexpectedWord word ("completion " ++ shell))
  | _, _ => .ok .help

/-- Understand a command line. Where help is asked for by a flag, or there is nothing else to do, the
other options do not count. -/
def parse (args : List String) : Except Misuse Command := do
  let (name, args) := locate args
  match name, firstWord? args with
  | .root, some word => .error (.unknownCommand word)
  | .choices, _ => if args = [] then .error (.tooFew 1 0) else return ⟨{}, .completion⟩
  | _, _ =>
    let parsed ← parseArgs name {} args
    if parsed.help || name.isGroup then return ⟨{}, .help⟩
    else return ⟨parsed.settings, ← name.task parsed⟩

end Command

end HindleyMilner
