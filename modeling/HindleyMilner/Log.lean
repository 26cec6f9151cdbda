import HindleyMilner.Log.Level
import HindleyMilner.Text.Blank

/-! Log lines and the choice of the records that are logged.

A record is a level, a message and attributes. It is written as one line of `key=value` pairs.
Records below the warning level are logged only for enabled sections, and a record belongs to the
sections that its attributes or those of its logger name. -/

set_option autoImplicit false

namespace HindleyMilner.Log

open Text

inductive Value where
  | text (pieces : List Piece)
  | number (value : Int)
  | flag (value : Bool)
  | null
  deriving DecidableEq, Repr

def Value.ofString (text : String) : Value := .text (text.toList.map .char)

def Value.pieces : Value → List Piece
  | .text pieces => pieces
  | .number value => (toString value).toList.map .char
  | .flag value => (if value then "true" else "false").toList.map .char
  | .null => "<nil>".toList.map .char

/-- Text that is not read back as one word: blanks, controls, quotes, the equals sign, characters
without a visible form and bytes that are no characters. -/
def needsQuotes (pieces : List Piece) : Bool :=
  pieces.isEmpty || pieces.any fun
    | .stray _ => true
    | .char c =>
      if c.toNat < 0x80 then c.toNat ≤ 0x20 || c == '=' || c == '"'
      else c == replacement || isBlank c || !isVisible c

def word (pieces : List Piece) : String :=
  if needsQuotes pieces then quotePieces pieces
  else String.ofList (pieces.map Piece.toChar)

structure Attr where
  key : String
  value : Value
  deriving DecidableEq, Repr

def Attr.isWritten (attr : Attr) : Bool :=
  -- Times are never written, nor is an attribute without key and value.
  attr.key ≠ "time" && !(attr.key == "" && attr.value == .null)

/-- A key after the groups it is in. The groups and the key are looked at one by one to tell whether
the whole is quoted, so a missing key is quoted in a group too. -/
def keyWord (groups : List String) (key : String) : String :=
  let path := (String.join (groups.map (· ++ "."))).toList.map Piece.char
  let key := key.toList.map Piece.char
  if (path ≠ [] && needsQuotes path) || needsQuotes key then quotePieces (path ++ key)
  else String.ofList ((path ++ key).map Piece.toChar)

def Attr.render (groups : List String) (attr : Attr) : String :=
  if attr.isWritten then " " ++ keyWord groups attr.key ++ "=" ++ word attr.value.pieces else ""

structure Config where
  level : Level := Level.warn
  sections : List String := ["infer", "unify", "repl", "prelude"]
  deriving DecidableEq, Repr

/-- A section is enabled by any text that it starts with. -/
def Config.enablesSection (config : Config) (name : String) : Bool :=
  config.sections.any fun enabled => enabled.toList.isPrefixOf name.toList

def Config.enables (config : Config) (level : Level) : Bool := decide (config.level ≤ level)

/-- What a logger adds to each record: open groups, attributes that are written already, and the
sections they name. -/
structure Logger where
  groups : List String := []
  written : String := ""
  sections : List String := []
  deriving DecidableEq, Repr

def sectionOf? (attr : Attr) : Option String :=
  if attr.key = "section" then some (String.ofList (attr.value.pieces.map Piece.toChar)) else none

namespace Logger

def withAttr (logger : Logger) (attr : Attr) : Logger :=
  { logger with
    written := logger.written ++ attr.render logger.groups
    sections := logger.sections ++ (sectionOf? attr).toList }

def withGroup (logger : Logger) (name : String) : Logger :=
  if name = "" then logger else { logger with groups := logger.groups ++ [name] }

def withSection (logger : Logger) (name : String) : Logger :=
  logger.withAttr ⟨"section", .ofString name⟩

def passes (config : Config) (logger : Logger) (level : Level) (attrs : List Attr) : Bool :=
  -- Below the warning level a record needs a section that is enabled.
  Level.warn ≤ level || logger.sections.any config.enablesSection
    || (attrs.filterMap sectionOf?).any config.enablesSection

/-- The text that logging a record adds to the log: one line, or nothing. -/
def log (config : Config) (logger : Logger) (level : Level) (message : String)
    (attrs : List Attr) : String :=
  if config.enables level && logger.passes config level attrs then
    "level=" ++ Level.render level ++ " msg=" ++ word (message.toList.map .char)
      ++ logger.written ++ String.join (attrs.map (Attr.render logger.groups)) ++ "\n"
  else ""

end Logger

def debugLine (config : Config) (name message : String) (attrs : List Attr) : String :=
  (Logger.withSection {} name).log config Level.debug message attrs

end HindleyMilner.Log
