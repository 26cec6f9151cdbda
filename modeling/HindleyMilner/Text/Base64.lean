/-! Bytes written in base sixty-four. -/

set_option autoImplicit false

namespace HindleyMilner.Text

def sextet? (c : Char) : Option Nat :=
  if c.isUpper then some (c.toNat - 'A'.toNat)
  else if c.isLower then some (c.toNat - 'a'.toNat + 26)
  else if c.isDigit then some (c.toNat - '0'.toNat + 52)
  else if c = '+' then some 62
  else if c = '/' then some 63
  else none

/-- Four digits are three bytes; at the end equals signs take the place of digits. -/
def decodeQuads : List Char → Option (List UInt8)
  | [] => some []
  | [a, b, '=', '='] => do
    let bits := 64 * (← sextet? a) + (← sextet? b)
    return [UInt8.ofNat (bits / 16)]
  | [a, b, c, '='] => do
    let bits := 64 * (64 * (← sextet? a) + (← sextet? b)) + (← sextet? c)
    return [UInt8.ofNat (bits / 1024), UInt8.ofNat (bits / 4)]
  | a :: b :: c :: d :: rest => do
    let bits := 64 * (64 * (64 * (← sextet? a) + (← sextet? b)) + (← sextet? c)) + (← sextet? d)
    let bytes ← decodeQuads rest
    return UInt8.ofNat (bits / 65536) :: UInt8.ofNat (bits / 256) :: UInt8.ofNat bits :: bytes
  | _ => none

def decodeBase64 (text : List Char) : Option (List UInt8) :=
  decodeQuads (text.filter fun c => c ≠ '\n' && c ≠ '\r')

end HindleyMilner.Text
