import HindleyMilner.Yaml.Cursor
import HindleyMilner.Yaml.Token

/-! Anchors, references, tags and directives. -/

set_option autoImplicit false

namespace HindleyMilner.Yaml

def isTagChar (c : Char) : Bool :=
  isNameChar c || c ∈ [';', '/', '?', ':', '@', '&', '=', '+', '$', ',', '.', '!', '~', '*', '\'',
    '(', ')', '[', ']', '%']

def endsName (c : Char) : Bool := isGap c || c ∈ ['?', ':', ',', ']', '\x7d', '%', '@', '\x60']

namespace Scan

def anchorName : Scan String := do
  skip
  let name ← readWhile isNameChar
  if name.isEmpty || !endsName (← look 0) then failure
  else return String.ofList name

def escapedByte : Scan Nat := do
  need 3
  match ← look 0, hexDigit? (← look 1), hexDigit? (← look 2) with
  | '%', some high, some low =>
    skip
    skip
    skip
    return 16 * high + low
  | _, _, _ => failure

def escapedTail : Nat → Scan (List Char)
  | 0 => return []
  | count + 1 => do
    let byte ← escapedByte
    if 0x80 ≤ byte && byte < 0xC0 then return Char.ofNat byte :: (← escapedTail count) else failure

/-- The bytes of an escaped character. A tag is only ever compared with ASCII text, so they need not
be put together. -/
def escapedBytes : Scan (List Char) := do
  let lead ← escapedByte
  match utf8Width? (UInt8.ofNat lead) with
  | none => failure
  | some width => return Char.ofNat lead :: (← escapedTail (width - 1))

def tagChars : Scan (List Char) := do
  loop (← get).bound
where
  loop : Nat → Scan (List Char)
    | 0 => failure
    | fuel + 1 => do
      need 1
      let c ← look 0
      if c == '%' then
        let bytes ← escapedBytes
        return bytes ++ (← loop fuel)
      else if isTagChar c then
        let c ← read
        return c :: (← loop fuel)
      else return []

/-- A handle: an exclamation mark, a name, and another mark unless the name is a part of the tag. -/
def tagHandle : Scan (List Char) := do
  need 1
  if (← look 0) != '!' then failure
  skip
  let name ← readWhile isNameChar
  if (← look 0) == '!' then
    skip
    return '!' :: (name ++ ['!'])
  else return '!' :: name

def tagRest : Scan String := do
  let text ← tagChars
  if text.isEmpty then failure else return String.ofList text

/-- A tag as its handle and what follows. A tag in angle brackets has no handle, nor has a mark that
stands alone. -/
def tag : Scan Token := do
  need 2
  let token ←
    if (← look 1) == '<' then do
      skip
      skip
      let rest ← tagRest
      if (← look 0) != '>' then failure
      skip
      pure (Token.tag "" rest)
    else do
      let handle ← tagHandle
      -- Without a second mark the name is the start of the tag.
      if 1 < handle.length && handle.getLast? == some '!' then
        pure (Token.tag (String.ofList handle) (← tagRest))
      else
        let rest := handle.drop 1 ++ (← tagChars)
        pure (if rest.isEmpty then Token.tag "" "!" else Token.tag "!" (String.ofList rest))
  need 1
  if isGap (← look 0) then return token else failure

def versionNumber : Scan Nat := do
  let digits ← readWhile Char.isDigit
  if digits.isEmpty || 2 < digits.length then failure
  else return digits.foldl (fun value c => 10 * value + (c.toNat - '0'.toNat)) 0

def version : Scan Token := do
  skipWhile isSpace
  let major ← versionNumber
  if (← look 0) != '.' then failure
  skip
  return .version major (← versionNumber)

def handle : Scan Token := do
  skipWhile isSpace
  let name ← tagHandle
  if name.getLast? != some '!' then failure
  need 1
  if !isSpace (← look 0) then failure
  skipWhile isSpace
  let start ← tagRest
  need 1
  if isGap (← look 0) then return .handle (String.ofList name) start else failure

def directive : Scan Token := do
  skip
  let name ← readWhile isNameChar
  if name.isEmpty || !isGap (← look 0) then failure
  let token ←
    if name == "YAML".toList then version
    else if name == "TAG".toList then handle
    else failure
  finishLine
  return token

end Scan

end HindleyMilner.Yaml
