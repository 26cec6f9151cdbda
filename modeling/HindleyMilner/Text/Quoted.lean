import HindleyMilner.Text.Utf8
import HindleyMilner.Text.Visible

/-! Quoted text: visible characters and spaces stand for themselves between double quotes, and
every other character is written as an escape. -/

set_option autoImplicit false

namespace HindleyMilner.Text

def hex (width number : Nat) : String :=
  let digits := Nat.toDigits 16 number
  String.ofList (List.replicate (width - digits.length) '0' ++ digits)

/-- A character of quoted text. Controls with a short escape have it; other invisible characters
are written by their code point in two, four or eight digits. -/
def quoteChar (c : Char) : String :=
  if c = '"' then "\\\""
  else if c = '\\' then "\\\\"
  else if c = ' ' || isVisible c then c.toString
  else if c = '\x07' then "\\a"
  else if c = '\x08' then "\\b"
  else if c = '\x0c' then "\\f"
  else if c = '\n' then "\\n"
  else if c = '\r' then "\\r"
  else if c = '\t' then "\\t"
  else if c = '\x0b' then "\\v"
  else if c.toNat < 0x20 || c.toNat = 0x7F then "\\x" ++ hex 2 c.toNat
  else if c.toNat < 0x10000 then "\\u" ++ hex 4 c.toNat
  else "\\U" ++ hex 8 c.toNat

def quotePiece : Piece → String
  | .char c => quoteChar c
  | .stray byte => "\\x" ++ hex 2 byte.toNat

def quotePieces (text : List Piece) : String :=
  "\"" ++ String.join (text.map quotePiece) ++ "\""

def quote (text : String) : String := quotePieces (text.toList.map .char)

end HindleyMilner.Text
