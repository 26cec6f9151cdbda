import HindleyMilner.Yaml.Cursor

/-! Scalars in blocks of lines.

A literal block keeps its lines. A folded block joins lines, unless one of them starts with a space.
A header tells what becomes of the line ends after the last line, and how far the block is indented if
that is not to be taken from its first line. -/

set_option autoImplicit false

namespace HindleyMilner.Yaml

inductive Chomping where
  | strip
  /-- The end of the last line stays. -/
  | clip
  | keep
  deriving DecidableEq, Repr

def Chomping.ofChar? : Char → Option Chomping
  | '+' => some .keep
  | '-' => some .strip
  | _ => none

def Chomping.apply (chomping : Chomping) (last others : List Char) : List Char :=
  match chomping with
  | .strip => []
  | .clip => last
  | .keep => last ++ others

namespace Scan

def blockWidth : Scan (Option Nat) := do
  let c ← look 0
  if c.isDigit then
    if c == '0' then failure
    skip
    return some (c.toNat - '0'.toNat)
  else return none

def blockChomping : Scan (Option Chomping) := do
  match Chomping.ofChar? (← look 0) with
  | some chomping =>
    skip
    return some chomping
  | none => return none

def blockHeader : Scan (Chomping × Option Nat) := do
  need 1
  match ← blockChomping with
  | some chomping =>
    need 1
    return (chomping, ← blockWidth)
  | none =>
    match ← blockWidth with
    | none => return (.clip, none)
    | some width =>
      need 1
      return ((← blockChomping).getD .clip, some width)

/-- Pass over indentation and read the ends of empty lines; gives the indentation of the block, which
is the deepest of these lines if it is not known. -/
def blockBreaks (least : Nat) (indent : Option Nat) : Scan (List Char × Nat) := do
  loop 0 (← get).bound
where
  /-- The column is still to the left of the text. -/
  inIndent (column : Nat) : Bool := indent.all (column < ·)
  skipIndent : Nat → Scan Unit
    | 0 => failure
    | fuel + 1 => do
      need 1
      if inIndent (← get).column && (← look 0) == ' ' then
        skip
        skipIndent fuel
  loop (deepest : Nat) : Nat → Scan (List Char × Nat)
    | 0 => failure
    | fuel + 1 => do
      skipIndent (← get).bound
      let column := (← get).column
      let deepest := max deepest column
      let c ← look 0
      if inIndent column && c == '\t' then failure
      if isBreak c then
        let text ← readBreak
        let (more, indent) ← loop deepest fuel
        return (text ++ more, indent)
      else return ([], indent.getD (max deepest (max least 1)))

/-- Read the lines of a block. `before` is the end of the line before, `empty` the ends of empty lines
after that, and `spaced` tells whether that line starts with a space. -/
def blockLines (folded : Bool) (chomping : Chomping) (indent : Nat) (before empty : List Char)
    (spaced : Bool) : Nat → Scan (List Char)
  | 0 => failure
  | fuel + 1 => do
    need 1
    let c ← look 0
    if (← get).column == indent && !isEnd c then
      -- A folded line end is a space, or nothing where empty lines follow it.
      let joint :=
        if folded && !spaced && !isSpace c && before.head? == some '\n' then
          if empty.isEmpty then [' '] else []
        else before
      let line ← readWhile (!isBreakOrEnd ·)
      let ending ← readBreak
      let (breaks, _) ← blockBreaks 0 (some indent)
      let more ← blockLines folded chomping indent ending breaks (isSpace c) fuel
      return joint ++ empty ++ line ++ more
    else return chomping.apply before empty

def block (folded : Bool) (outer : Int) : Scan String := do
  skip
  let (chomping, width) ← blockHeader
  finishLine
  let indent := width.map fun width => if 0 ≤ outer then outer.toNat + width else width
  let (breaks, indent) ← blockBreaks (outer + 1).toNat indent
  return String.ofList (← blockLines folded chomping indent [] breaks false (← get).bound)

end Scan

end HindleyMilner.Yaml
