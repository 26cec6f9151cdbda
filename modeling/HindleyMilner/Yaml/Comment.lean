import HindleyMilner.Yaml.Cursor

/-! Comments.

A comment goes from a hash to the end of its line. After one, the next lines are searched for another,
so that comments that follow each other are passed over together, however they are indented. -/

set_option autoImplicit false

namespace HindleyMilner.Yaml

def commentReach : Nat := 512

namespace Scan

/-- A comment follows on the line, some characters away. -/
def commentFollows (distance : Nat) : Nat → Scan Bool
  | 0 => return false
  | reach + 1 => do
    need (distance + 1)
    let c ← look distance
    if isSpace c then commentFollows (distance + 1) reach else return c == '#'

def skipComment : Scan Unit := skipWhile (!isBreakOrEnd ·)

def lineComment : Scan Unit := do
  if (← get).lineEnds == 0 then
    if ← commentFollows 0 commentReach then skipComment

/-- The distance to a comment on one of the next lines, with nothing but empty lines before it. -/
def nextComment? (distance : Nat) : Nat → Scan (Option Nat)
  | 0 => return none
  | reach + 1 => do
    need (distance + 1)
    let c ← look distance
    if isSpace c || c == '\n' || c == '\r' then nextComment? (distance + 1) reach
    else if c == '#' then return some distance
    else
      -- A line end of several bytes is not passed over, but one more character is looked at.
      if isBreak c && 0 < reach then need (distance + 2)
      return none

def skipTo (index : Nat) : Nat → Scan Unit
  | 0 => failure
  | fuel + 1 => do
    if (← get).index < index then
      need 1
      if isBreak (← look 0) then skipBreak else skip
      skipTo index fuel

def comments : Nat → Scan Unit
  | 0 => failure
  | fuel + 1 => do
    skipComment
    match ← nextComment? 1 (commentReach - 1) with
    | none => return ()
    | some distance =>
      let cursor ← get
      skipTo (cursor.index + distance) cursor.bound
      comments fuel

end Scan

end HindleyMilner.Yaml
