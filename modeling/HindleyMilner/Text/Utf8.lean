/-! Reading bytes as text.

A byte sequence is cut into characters and stray bytes, where a stray byte is one that starts no
well-formed character. Text made of it shows each stray byte as the replacement character. -/

set_option autoImplicit false

namespace HindleyMilner.Text

inductive Piece where
  | char (c : Char)
  | stray (byte : UInt8)
  deriving DecidableEq, Repr

/-- The character U+FFFD, which stands for a byte that belongs to no character. -/
def replacement : Char := '\uFFFD'

def Piece.toChar : Piece → Char
  | .char c => c
  | .stray _ => replacement

def tailBits? (byte : UInt8) : Option Nat :=
  if 0x80 ≤ byte.toNat ∧ byte.toNat ≤ 0xBF then some (byte.toNat - 0x80) else none

/-- The code point of a sequence, unless a shorter sequence holds it or it is no scalar value. -/
def scalar? (least point : Nat) : Option Char :=
  if least ≤ point then
    if valid : point.isValidChar then some (Char.ofNatAux point valid) else none
  else none

def leading? : List UInt8 → Option (Char × Nat)
  | [] => none
  | first :: rest =>
    let lead := first.toNat
    if lead < 0x80 then
      (scalar? 0 lead).map fun c => (c, 1)
    else if 0xC0 ≤ lead ∧ lead < 0xE0 then
      match rest with
      | b :: _ => do
        let b ← tailBits? b
        let c ← scalar? 0x80 ((lead - 0xC0) * 64 + b)
        return (c, 2)
      | _ => none
    else if 0xE0 ≤ lead ∧ lead < 0xF0 then
      match rest with
      | b :: c :: _ => do
        let b ← tailBits? b
        let c ← tailBits? c
        let c ← scalar? 0x800 (((lead - 0xE0) * 64 + b) * 64 + c)
        return (c, 3)
      | _ => none
    else if 0xF0 ≤ lead ∧ lead < 0xF8 then
      match rest with
      | b :: c :: d :: _ => do
        let b ← tailBits? b
        let c ← tailBits? c
        let d ← tailBits? d
        let c ← scalar? 0x10000 ((((lead - 0xF0) * 64 + b) * 64 + c) * 64 + d)
        return (c, 4)
      | _ => none
    else none

def piecesFrom (skip : Nat) : List UInt8 → List Piece
  | [] => []
  | byte :: rest =>
    match skip with
    | skip + 1 => piecesFrom skip rest
    | 0 =>
      match leading? (byte :: rest) with
      | some (c, width) => .char c :: piecesFrom (width - 1) rest
      | none => .stray byte :: piecesFrom 0 rest

def pieces (bytes : List UInt8) : List Piece := piecesFrom 0 bytes

def decode (bytes : List UInt8) : List Char := (pieces bytes).map Piece.toChar

end HindleyMilner.Text
