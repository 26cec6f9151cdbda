import HindleyMilner.Yaml.Scalar.Gap

/-! Scalars in quotes.

Between single quotes a quote is written twice. Between double quotes a backslash starts an escape,
and one before a line end joins two lines without a space. -/

set_option autoImplicit false

namespace HindleyMilner.Yaml

def escaped? : Char → Option Char
  | '0' => some '\x00'
  | 'a' => some '\x07'
  | 'b' => some '\x08'
  | 't' | '\t' => some '\t'
  | 'n' => some '\n'
  | 'v' => some '\x0b'
  | 'f' => some '\x0c'
  | 'r' => some '\r'
  | 'e' => some '\x1b'
  | ' ' => some ' '
  | '"' => some '"'
  | '\'' => some '\''
  | '\\' => some '\\'
  | 'N' => some '\u0085'
  | '_' => some '\u00a0'
  | 'L' => some '\u2028'
  | 'P' => some '\u2029'
  | _ => none

def codeWidth? : Char → Option Nat
  | 'x' => some 2
  | 'u' => some 4
  | 'U' => some 8
  | _ => none

namespace Scan

def skipMany : Nat → Scan Unit
  | 0 => return ()
  | count + 1 => do
    skip
    skipMany count

def codeFrom (value distance : Nat) : Nat → Scan Nat
  | 0 => return value
  | count + 1 => do
    match hexDigit? (← look distance) with
    | none => failure
    | some digit => codeFrom (16 * value + digit) (distance + 1) count

def escape : Scan Char := do
  let letter ← look 1
  match escaped? letter with
  | some c =>
    skipMany 2
    return c
  | none =>
    match codeWidth? letter with
    | none => failure
    | some width =>
      skipMany 2
      need width
      let code ← codeFrom 0 0 width
      if code.isValidChar then
        skipMany width
        return Char.ofNat code
      else failure

/-- Read up to a gap or the closing quote; tells whether an escaped line end came before. -/
def quotedRun (quote : Char) : Nat → Scan (List Char × Bool)
  | 0 => failure
  | fuel + 1 => do
    let c ← look 0
    let next ← look 1
    if isGap c then return ([], false)
    else if c == quote && !(quote == '\'' && next == '\'') then return ([], false)
    else if quote == '"' && c == '\\' && isBreak next then
      need 3
      skip
      skipBreak
      return ([], true)
    else
      -- A quote is left here only if it is written twice.
      let c ← if c == quote then (do skipMany 2; return c)
        else if quote == '"' && c == '\\' then escape
        else read
      need 2
      let (more, joins) ← quotedRun quote fuel
      return (c :: more, joins)

def quotedFrom (quote : Char) : Nat → Scan (List Char)
  | 0 => failure
  | fuel + 1 => do
    need 4
    if (← get).atMarker || isEnd (← look 0) then failure
    let (run, joins) ← quotedRun quote (← get).bound
    need 1
    if (← look 0) == quote then return run
    else
      let gap ← gap 0 { crosses := joins }
      return run ++ gap.text ++ (← quotedFrom quote fuel)

def quoted (quote : Char) : Scan String := do
  skip
  let text ← quotedFrom quote (← get).bound
  skip
  return String.ofList text

end Scan

end HindleyMilner.Yaml
