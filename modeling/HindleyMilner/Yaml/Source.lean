import HindleyMilner.Text.Utf8

/-! The characters of a YAML stream.

A stream is given in bytes. It is decoded in windows, one after another and only when characters are
asked for, so a byte that is no part of a character does no harm in a window that is never reached.
Beyond its end a stream has as many NUL characters as are asked for. -/

set_option autoImplicit false

namespace HindleyMilner.Yaml

inductive Encoding where
  | utf8
  /-- Units of two bytes, the less significant one first or last. -/
  | utf16 (littleEndian : Bool)
  deriving DecidableEq, Repr

/-- The encoding of a stream and the number of bytes that tell it, which are no part of the text. -/
def Encoding.detect : List UInt8 → Encoding × Nat
  | 0xFF :: 0xFE :: _ => (.utf16 true, 2)
  | 0xFE :: 0xFF :: _ => (.utf16 false, 2)
  | 0xEF :: 0xBB :: 0xBF :: _ => (.utf8, 3)
  | _ => (.utf8, 0)

def isAllowed (c : Char) : Bool :=
  let point := c.toNat
  c == '\t' || c == '\n' || c == '\r' || (0x20 ≤ point && point ≤ 0x7E) || point == 0x85
    || (0xA0 ≤ point && point ≤ 0xFFFD) || 0x10000 ≤ point

def utf8Width? (lead : UInt8) : Option Nat :=
  if lead < 0x80 then some 1
  else if lead < 0xC0 then none
  else if lead < 0xE0 then some 2
  else if lead < 0xF0 then some 3
  else if lead < 0xF8 then some 4
  else none

inductive Front where
  | char (c : Char) (width : Nat)
  /-- The window ends within a character. -/
  | cut
  | malformed
  deriving DecidableEq, Repr

def utf8Front (bytes : List UInt8) : Front :=
  match bytes with
  | [] => .cut
  | lead :: _ =>
    match utf8Width? lead with
    | none => .malformed
    | some width =>
      if (bytes.take width).length < width then .cut
      else
        match Text.leading? bytes with
        | some (c, width) => .char c width
        | none => .malformed

def unit (littleEndian : Bool) (first second : UInt8) : Nat :=
  if littleEndian then first.toNat + 256 * second.toNat else 256 * first.toNat + second.toNat

def isHighHalf (unit : Nat) : Bool := 0xD800 ≤ unit && unit < 0xDC00

def isLowHalf (unit : Nat) : Bool := 0xDC00 ≤ unit && unit < 0xE000

/-- A character takes one unit, or a high and a low half. -/
def utf16Front (littleEndian : Bool) : List UInt8 → Front
  | a :: b :: rest =>
    let high := unit littleEndian a b
    if isLowHalf high then .malformed
    else if isHighHalf high then
      match rest with
      | c :: d :: _ =>
        let low := unit littleEndian c d
        if isLowHalf low then .char (Char.ofNat (0x10000 + (high - 0xD800) * 0x400 + (low - 0xDC00))) 4
        else .malformed
      | _ => .cut
    else .char (Char.ofNat high) 2
  | _ => .cut

def Encoding.front : Encoding → List UInt8 → Front
  | .utf8 => utf8Front
  | .utf16 littleEndian => utf16Front littleEndian

/-- The characters of a window, and the bytes of a character that the window cuts. -/
def Encoding.decode (encoding : Encoding) : Nat → List UInt8 → Option (List Char × List UInt8)
  | 0, bytes => some ([], bytes)
  | fuel + 1, bytes =>
    match encoding.front bytes with
    | .cut => some ([], bytes)
    | .malformed => none
    | .char c width =>
      if isAllowed c then
        (encoding.decode fuel (bytes.drop width)).map fun (chars, left) => (c :: chars, left)
      else none

def windowSize : Nat := 512

structure Source where
  /-- The characters that are decoded. -/
  ahead : List Char
  /-- The bytes that are not. -/
  bytes : List UInt8
  encoding : Encoding
  /-- The bytes of the next window. -/
  room : Nat
  /-- The character that was next when characters were last decoded. -/
  front : Char
  deriving Repr

namespace Source

def ofBytes (bytes : List UInt8) : Source :=
  -- A stream without bytes is an empty line.
  let bytes := if bytes.isEmpty then [0x0A] else bytes
  let (encoding, mark) := Encoding.detect bytes
  { ahead := [], bytes := bytes.drop mark, encoding, room := windowSize - mark, front := '\x00' }

def char (source : Source) (distance : Nat) : Char := source.ahead.getD distance '\x00'

def holds : Nat → List Char → Bool
  | 0, _ => true
  | _ + 1, [] => false
  | count + 1, _ :: rest => holds count rest

/-- Decode windows until `count` characters are ahead or the stream ends; one NUL marks its end. -/
def fill (count : Nat) : Nat → Source → Option Source
  | 0, source => some source
  | fuel + 1, source =>
    if holds count source.ahead then some source
    else if source.bytes.isEmpty then some { source with ahead := source.ahead ++ ['\x00'] }
    else
      let window := source.bytes.take source.room
      match source.encoding.decode window.length window with
      -- A window that holds no whole character is malformed.
      | none | some ([], _) => none
      | some (chars, left) =>
        fill count fuel
          { source with
            ahead := source.ahead ++ chars
            bytes := left ++ source.bytes.drop source.room
            room := windowSize }

def need (count : Nat) (source : Source) : Option Source :=
  if holds count source.ahead then some source
  else (source.fill count (count + 1)).map fun source => { source with front := source.char 0 }

def next (source : Source) : Source := { source with ahead := source.ahead.drop 1 }

end Source

end HindleyMilner.Yaml
