import HindleyMilner.Yaml.Comment
import HindleyMilner.Yaml.Property
import HindleyMilner.Yaml.Scalar.Block
import HindleyMilner.Yaml.Scalar.Plain
import HindleyMilner.Yaml.Scalar.Quoted

/-! The tokens of a stream, read as they are asked for.

Collections in blocks start and end by columns. What may turn out to be a key is remembered until a
colon follows it on the same line and within a limit, or cannot follow any more; the token of a key is
then put before it. So a token is given out only when it is settled what stands before it, and two
tokens more are always read first. -/

set_option autoImplicit false

namespace HindleyMilner.Yaml

structure KeyMark where
  /-- Whether it may still be a key. -/
  possible : Bool := false
  /-- Whether it is an error if it is none. -/
  required : Bool := false
  /-- The number of its first token. -/
  number : Nat := 0
  index : Nat := 0
  line : Nat := 0
  column : Nat := 0
  deriving DecidableEq, Repr

def keyReach : Nat := 1024

def depthLimit : Nat := 10000

structure Tokens where
  cursor : Cursor
  started : Bool := false
  /-- The tokens that are read and not taken. -/
  queue : List Token := []
  /-- How many tokens were taken. -/
  taken : Nat := 0
  /-- The first token of the queue may be taken. -/
  settled : Bool := false
  /-- A mark for the block context and one for each flow collection that is open. -/
  marks : Array KeyMark := #[]
  /-- For numbers of tokens, which of the marks may belong to them. -/
  levels : List (Nat × Nat) := []
  /-- A key may start here. -/
  keyAllowed : Bool := true
  /-- The column of the innermost block collection, and those of the collections around it. -/
  indent : Int := -1
  outer : List Int := []

namespace Tokens

def ofBytes (bytes : List UInt8) : Tokens := { cursor := .ofBytes bytes }

def inFlow (tokens : Tokens) : Bool := 1 < tokens.marks.size

def nextNumber (tokens : Tokens) : Nat := tokens.taken + tokens.queue.length

def dropLevel (tokens : Tokens) (number : Nat) : Tokens :=
  { tokens with levels := tokens.levels.filter (·.1 != number) }

/-- Put a token before the one with a number, or at the end if that one is taken already. -/
def insert (tokens : Tokens) (number : Nat) (token : Token) : Tokens :=
  if number < tokens.taken then { tokens with queue := tokens.queue ++ [token] }
  else
    let (before, after) := tokens.queue.splitAt (number - tokens.taken)
    { tokens with queue := before ++ token :: after }

def push (tokens : Tokens) (token : Token) : Tokens := { tokens with queue := tokens.queue ++ [token] }

def closing (column indent : Int) : List Int → Nat × Int × List Int
  | [] => (0, indent, [])
  | outer :: rest =>
    if column < indent then
      let (count, indent, rest) := closing column outer rest
      (count + 1, indent, rest)
    else (0, indent, outer :: rest)

def unroll (tokens : Tokens) (column : Int) : Tokens :=
  if tokens.inFlow then tokens
  else
    let (count, indent, outer) := closing column tokens.indent tokens.outer
    { tokens with queue := tokens.queue ++ List.replicate count .blockEnd, indent, outer }

/-- Start a block collection at a column to the right of the innermost one, before the token with a
number. -/
def roll (tokens : Tokens) (column number : Nat) (token : Token) : Option Tokens :=
  if tokens.inFlow || column ≤ tokens.indent then some tokens
  else if depthLimit ≤ tokens.outer.length then none
  else
    some ({ tokens with indent := column, outer := tokens.indent :: tokens.outer }.insert number token)

end Tokens

abbrev Feed := StateT Tokens Option

namespace Feed

def scan {α : Type} (action : Scan α) : Feed α := do
  let tokens ← get
  match action.run tokens.cursor with
  | none => failure
  | some (value, cursor) =>
    set { tokens with cursor }
    return value

def allowKey (allowed : Bool) : Feed Unit := modify ({ · with keyAllowed := allowed })

def push (token : Token) : Feed Unit := modify (·.push token)

def isKey (level : Nat) : Feed Bool := do
  let tokens ← get
  match tokens.marks[level]? with
  | none => failure
  | some mark =>
    if !mark.possible then return false
    -- A key ends on its line and within reach.
    else if mark.line < tokens.cursor.line || mark.index + keyReach < tokens.cursor.index then
      if mark.required then failure
      set { tokens with marks := tokens.marks.setIfInBounds level { mark with possible := false } }
      return false
    else return true

def lastMark : Feed (Nat × KeyMark) := do
  let marks := (← get).marks
  match marks.back? with
  | none => failure
  | some mark => return (marks.size - 1, mark)

def closeMark : Feed Unit := do
  let (level, mark) ← lastMark
  if mark.possible then
    if mark.required then failure
    modify fun tokens =>
      { tokens with marks := tokens.marks.setIfInBounds level { mark with possible := false } }.dropLevel
        mark.number

/-- Mark the next token as what may be a key, if a key may start here. A key is required where it
would continue a block mapping. -/
def openMark : Feed Unit := do
  let tokens ← get
  if tokens.keyAllowed then
    let cursor := tokens.cursor
    let mark : KeyMark :=
      { possible := true, required := !tokens.inFlow && tokens.indent == cursor.column,
        number := tokens.nextNumber, index := cursor.index, line := cursor.line, column := cursor.column }
    closeMark
    let (level, _) ← lastMark
    modify fun tokens =>
      { tokens with
        marks := tokens.marks.setIfInBounds level mark
        levels := (mark.number, level) :: tokens.levels.filter (·.1 != mark.number) }

def roll (column number : Nat) (token : Token) : Feed Unit := do
  match (← get).roll column number token with
  | none => failure
  | some tokens => set tokens

/-- In a block, an entry or a key starts here, which opens a collection if there is none at this
column. -/
def startHere (collection : Token) : Feed Unit := do
  let tokens ← get
  if !tokens.inFlow then
    if !tokens.keyAllowed then failure
    roll tokens.cursor.column tokens.nextNumber collection

/-- Pass over spaces, comments and line ends up to the next token. Tabs may not stand where a key may
start in a block. -/
def skipGaps : Nat → Feed Unit
  | 0 => failure
  | fuel + 1 => do
    scan (Scan.need 1)
    let cursor := (← get).cursor
    -- A byte order mark may stand at the start of a line.
    if cursor.column == 0 && cursor.source.front == '\uFEFF' then scan Scan.skip
    let tokens ← get
    let tabs := tokens.inFlow || !tokens.keyAllowed
    scan (Scan.skipWhile fun c => c == ' ' || (tabs && c == '\t'))
    if (← get).cursor.char 0 == '#' then scan (Scan.comments tokens.cursor.bound)
    if isBreak ((← get).cursor.char 0) then
      scan Scan.skipBreak
      if !tokens.inFlow then allowKey true
      skipGaps fuel

def readStart : Feed Unit :=
  modify fun tokens => { tokens with started := true, marks := #[{}] }.push .streamStart

def readEnd : Feed Unit := do
  modify fun tokens =>
    let cursor := tokens.cursor
    -- The stream ends on a line of its own.
    if cursor.column == 0 then tokens
    else { tokens with cursor := { cursor with column := 0, line := cursor.line + 1 } }
  modify (·.unroll (-1))
  closeMark
  allowKey false
  push .streamEnd

def readDirective : Feed Unit := do
  modify (·.unroll (-1))
  closeMark
  allowKey false
  push (← scan Scan.directive)

def readMarker (token : Token) : Feed Unit := do
  modify (·.unroll (-1))
  closeMark
  allowKey false
  scan (Scan.skipMany 3)
  push token

def readFlowStart (token : Token) : Feed Unit := do
  openMark
  modify fun tokens =>
    let cursor := tokens.cursor
    { tokens with
      marks := tokens.marks.push
        { number := tokens.nextNumber, index := cursor.index, line := cursor.line, column := cursor.column } }
  if depthLimit < (← get).marks.size - 1 then failure
  allowKey true
  scan Scan.skip
  push token

def readFlowEnd (token : Token) : Feed Unit := do
  closeMark
  if (← get).inFlow then
    let (_, mark) ← lastMark
    modify fun tokens => { tokens with marks := tokens.marks.pop }.dropLevel mark.number
  allowKey false
  scan Scan.skip
  push token

def readFlowEntry : Feed Unit := do
  closeMark
  allowKey true
  scan Scan.skip
  push .flowEntry

def readBlockEntry : Feed Unit := do
  startHere .blockSequence
  closeMark
  allowKey true
  scan Scan.skip
  push .blockEntry

def readKey : Feed Unit := do
  startHere .blockMapping
  closeMark
  allowKey !(← get).inFlow
  scan Scan.skip
  push .key

/-- A colon makes a key of what is marked, or follows a key that was announced. -/
def readValue : Feed Unit := do
  let (level, mark) ← lastMark
  if ← isKey level then
    modify (·.insert mark.number .key)
    roll mark.column mark.number .blockMapping
    modify fun tokens =>
      { tokens with marks := tokens.marks.setIfInBounds level { mark with possible := false } }.dropLevel
        mark.number
    allowKey false
  else
    startHere .blockMapping
    allowKey !(← get).inFlow
  scan Scan.skip
  push .value

def readContent (token : Scan Token) : Feed Unit := do
  openMark
  allowKey false
  push (← scan token)

def readBlockScalar (folded : Bool) : Feed Unit := do
  closeMark
  allowKey true
  let text ← scan (Scan.block folded (← get).indent)
  push (.scalar false text)

def readPlain : Feed Unit := do
  openMark
  allowKey false
  let tokens ← get
  let (text, crosses) ← scan (Scan.plain tokens.inFlow (tokens.indent + 1).toNat)
  push (.scalar true text)
  -- A scalar that ends with its line may be followed by a key.
  if crosses then allowKey true

def readToken (first second : Char) : Feed Unit := do
  let inFlow := (← get).inFlow
  if first == '[' then readFlowStart .flowSequence
  else if first == '\x7b' then readFlowStart .flowMapping
  else if first == ']' then readFlowEnd .flowSequenceEnd
  else if first == '\x7d' then readFlowEnd .flowMappingEnd
  else if first == ',' then readFlowEntry
  else if first == '-' && isGap second then readBlockEntry
  else if first == '?' && (inFlow || isGap second) then readKey
  else if first == ':' && (inFlow || isGap second) then readValue
  else if first == '*' then readContent (return .reference (← Scan.anchorName))
  else if first == '&' then readContent (return .anchor (← Scan.anchorName))
  else if first == '!' then readContent Scan.tag
  else if first == '|' && !inFlow then readBlockScalar false
  else if first == '>' && !inFlow then readBlockScalar true
  else if first == '\'' || first == '"' then readContent (return .scalar false (← Scan.quoted first))
  else if first == '-' || !(isGap first || isIndicator first)
      || (!inFlow && (first == '?' || first == ':')) then readPlain
  else failure

def readNext : Feed Unit := do
  scan (Scan.need 1)
  if !(← get).started then readStart
  else
    skipGaps (← get).cursor.bound
    modify fun tokens => tokens.unroll tokens.cursor.column
    -- A line that separates documents is told by four characters.
    scan (Scan.need 4)
    let cursor := (← get).cursor
    let first := cursor.char 0
    if isEnd first then readEnd
    else if cursor.column == 0 && first == '%' then readDirective
    else if cursor.atMarker then
      readMarker (if first == '-' then .documentStart else .documentEnd)
    else
      readToken first (cursor.char 1)
      if (← get).queue.getLast? != some .blockEntry then scan Scan.lineComment

/-- Whether nothing can still be put before the first token of the queue. -/
def isSettled : Feed Bool := do
  let tokens ← get
  match tokens.queue with
  -- Two tokens after the first have to be read.
  | _ :: _ :: _ :: _ =>
    match tokens.levels.lookup tokens.taken with
    | none => return true
    | some level => return !(← isKey level)
  | _ => return false

def settle : Nat → Feed Unit
  | 0 => failure
  | fuel + 1 => do
    if ← isSettled then modify ({ · with settled := true })
    else
      readNext
      settle fuel

def peek : Feed Token := do
  if !(← get).settled then settle (← get).cursor.bound
  match (← get).queue with
  | [] => failure
  | token :: _ => return token

def take : Feed Unit :=
  modify fun tokens =>
    { tokens with queue := tokens.queue.tail, taken := tokens.taken + 1, settled := false }

end Feed

end HindleyMilner.Yaml
