import HindleyMilner.Yaml.Cursor

/-! Gaps between the words of a scalar.

Within a line a gap is kept. A gap with one line end is read as a space, and with more of them as one
line end fewer; a separator of lines or paragraphs is never lost. -/

set_option autoImplicit false

namespace HindleyMilner.Yaml

structure Gap where
  /-- The spaces of a gap within a line. -/
  spaces : List Char := []
  /-- The first line end. -/
  first : List Char := []
  /-- The other line ends. -/
  others : List Char := []
  /-- Whether a line ended. -/
  crosses : Bool := false
  deriving DecidableEq, Repr

def Gap.text (gap : Gap) : List Char :=
  if gap.crosses then
    if gap.first.head? = some '\n' then
      if gap.others.isEmpty then [' '] else gap.others
    else gap.first ++ gap.others
  else gap.spaces

def Gap.addSpace (gap : Gap) (c : Char) : Gap :=
  if gap.crosses then gap else { gap with spaces := gap.spaces ++ [c] }

def Gap.addBreak (gap : Gap) (text : List Char) : Gap :=
  if gap.crosses then { gap with others := gap.others ++ text } else { first := text, crosses := true }

namespace Scan

/-- Read a gap. A tab that follows a line end may not stand before a column. -/
def gap (tabsFrom : Nat) (start : Gap) : Scan Gap := do
  loop start (← get).bound
where
  loop (gap : Gap) : Nat → Scan Gap
    | 0 => failure
    | fuel + 1 => do
      need 1
      let c ← look 0
      if isSpace c then
        if gap.crosses && c == '\t' && (← get).column < tabsFrom then failure
        skip
        loop (gap.addSpace c) fuel
      else if isBreak c then
        loop (gap.addBreak (← readBreak)) fuel
      else return gap

end Scan

end HindleyMilner.Yaml
