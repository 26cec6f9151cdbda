import HindleyMilner.Yaml.Scalar.Gap

/-! Scalars without quotes. -/

set_option autoImplicit false

namespace HindleyMilner.Yaml

def isIndicator (c : Char) : Bool :=
  c ∈ ['-', '?', ':', ',', '[', ']', '\x7b', '\x7d', '#', '&', '*', '!', '|', '>', '\'', '"', '%',
    '@', '\x60']

def endsInFlow (c : Char) : Bool := c ∈ [',', '?', '[', ']', '\x7b', '\x7d']

namespace Scan

def plainRun (inFlow : Bool) : Nat → Scan (List Char)
  | 0 => failure
  | fuel + 1 => do
    let c ← look 0
    if isGap c || (c == ':' && isGap (← look 1)) || (inFlow && endsInFlow c) then return []
    else
      let c ← read
      need 2
      return c :: (← plainRun inFlow fuel)

/-- Read a plain scalar that goes on after a gap; tells whether it ends in a gap over a line end. Its
lines start at column `least` or to the right of it. -/
def plainFrom (inFlow : Bool) (least : Nat) (before : Gap) : Nat → Scan (List Char × Bool)
  | 0 => failure
  | fuel + 1 => do
    need 4
    if (← get).atMarker || (← look 0) == '#' then return ([], before.crosses)
    else
      let run ← plainRun inFlow (← get).bound
      if run.isEmpty then return ([], before.crosses)
      else
        let text := before.text ++ run
        let c ← look 0
        if !(isSpace c || isBreak c) then return (text, false)
        else
          let after ← gap least {}
          -- A line further to the left belongs to a block around this one.
          if !inFlow && (← get).column < least then return (text, after.crosses)
          else
            let (more, crosses) ← plainFrom inFlow least after fuel
            return (text ++ more, crosses)

def plain (inFlow : Bool) (least : Nat) : Scan (String × Bool) := do
  let (text, crosses) ← plainFrom inFlow least {} (← get).bound
  return (String.ofList text, crosses)

end Scan

end HindleyMilner.Yaml
