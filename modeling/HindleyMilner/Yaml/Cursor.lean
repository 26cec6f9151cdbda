import HindleyMilner.Yaml.Source

/-! Reading a stream character by character.

A cursor knows its line and column. Reading is a computation that moves the cursor and fails where
the stream is malformed. -/

set_option autoImplicit false

namespace HindleyMilner.Yaml

/-- The character beyond the end of a stream. -/
def isEnd (c : Char) : Bool := c == '\x00'

def isBreak (c : Char) : Bool :=
  c == '\r' || c == '\n' || c == '\u0085' || c == '\u2028' || c == '\u2029'

def isBreakOrEnd (c : Char) : Bool := isBreak c || isEnd c

def isSpace (c : Char) : Bool := c == ' ' || c == '\t'

def isGap (c : Char) : Bool := isSpace c || isBreakOrEnd c

def isNameChar (c : Char) : Bool := c.isAlphanum || c == '_' || c == '-'

def hexDigit? (c : Char) : Option Nat :=
  if '0' ≤ c && c ≤ '9' then some (c.toNat - '0'.toNat)
  else if 'a' ≤ c && c ≤ 'f' then some (c.toNat - 'a'.toNat + 10)
  else if 'A' ≤ c && c ≤ 'F' then some (c.toNat - 'A'.toNat + 10)
  else none

structure Cursor where
  source : Source
  /-- The characters before it. -/
  index : Nat := 0
  line : Nat := 0
  column : Nat := 0
  /-- The line ends that were passed since the last character that is no space. -/
  lineEnds : Nat := 0
  /-- More than the steps of any loop over the stream. -/
  bound : Nat
  deriving Repr

namespace Cursor

def ofBytes (bytes : List UInt8) : Cursor :=
  { source := .ofBytes bytes, bound := bytes.length + 8 }

def char (cursor : Cursor) (distance : Nat) : Char := cursor.source.char distance

def advance (cursor : Cursor) : Cursor :=
  { cursor with
    source := cursor.source.next
    index := cursor.index + 1
    column := cursor.column + 1
    lineEnds := if isSpace (cursor.char 0) then cursor.lineEnds else 0 }

def advanceLine (cursor : Cursor) (width : Nat) : Cursor :=
  { cursor with
    source := width.repeat Source.next cursor.source
    index := cursor.index + width
    line := cursor.line + 1
    column := 0
    lineEnds := cursor.lineEnds + 1 }

/-- The line separates documents: three dashes or three dots at its start, and a gap. -/
def atMarker (cursor : Cursor) : Bool :=
  let mark := cursor.char 0
  cursor.column == 0 && (mark == '-' || mark == '.') && cursor.char 1 == mark
    && cursor.char 2 == mark && isGap (cursor.char 3)

end Cursor

abbrev Scan := StateT Cursor Option

namespace Scan

def need (count : Nat) : Scan Unit := do
  let cursor ← get
  match cursor.source.need count with
  | none => failure
  | some source => set { cursor with source }

def look (distance : Nat) : Scan Char := return (← get).char distance

def skip : Scan Unit := modify Cursor.advance

def read : Scan Char := do
  let c ← look 0
  skip
  return c

/-- Read a line end as the characters that it stands for: a separator of lines or paragraphs is kept,
any other is a newline. Anything else is left. -/
def readBreak : Scan (List Char) := do
  need 2
  let first ← look 0
  if first == '\r' && (← look 1) == '\n' then
    modify (·.advanceLine 2)
    return ['\n']
  else if isBreak first then
    modify (·.advanceLine 1)
    return [if first == '\u2028' || first == '\u2029' then first else '\n']
  else return []

def skipBreak : Scan Unit := discard readBreak

def readWhile (inClass : Char → Bool) : Scan (List Char) := do
  loop (← get).bound
where
  loop : Nat → Scan (List Char)
    | 0 => failure
    | fuel + 1 => do
      need 1
      if inClass (← look 0) then
        let c ← read
        return c :: (← loop fuel)
      else return []

def skipWhile (inClass : Char → Bool) : Scan Unit := discard (readWhile inClass)

/-- Pass over what is left of a line, which may be blank or a comment. -/
def finishLine : Scan Unit := do
  skipWhile isSpace
  if (← look 0) == '#' then skipWhile (!isBreakOrEnd ·)
  if !isBreakOrEnd (← look 0) then failure
  if isBreak (← look 0) then skipBreak

end Scan

end HindleyMilner.Yaml
