import HindleyMilner.Text.Numeral
import HindleyMilner.Text.Quoted

/-! Levels of log records.

A level is a number of 64 bits; four numbers have names, and the others are written as a distance
from a named one. -/

set_option autoImplicit false

namespace HindleyMilner.Log

abbrev Level := Int64

namespace Level

def debug : Level := -4

def info : Level := 0

def warn : Level := 4

def error : Level := 8

def offsetFrom (name : String) (distance : Int64) : String :=
  if distance = 0 then name
  else if distance < 0 then name ++ toString distance.toInt
  else name ++ "+" ++ toString distance.toInt

/-- Levels are written from the greatest named level that is not above them, or from the least. -/
def render (level : Level) : String :=
  if level < info then offsetFrom "DEBUG" (level - debug)
  else if level < warn then offsetFrom "INFO" (level - info)
  else if level < error then offsetFrom "WARN" (level - warn)
  else offsetFrom "ERROR" (level - error)

inductive Invalid where
  | unknownName
  | notANumber (text : String)
  | outOfRange (text : String)
  deriving DecidableEq, Repr

def Invalid.render : Invalid → String
  | .unknownName => "unknown name"
  | .notANumber text => "strconv.Atoi: parsing " ++ Text.quote text ++ ": invalid syntax"
  | .outOfRange text => "strconv.Atoi: parsing " ++ Text.quote text ++ ": value out of range"

def Invalid.message (text : String) (reason : Invalid) : String :=
  "slog: level string " ++ Text.quote text ++ ": " ++ reason.render

/-- The value of ASCII digits that go on from `value`. Digits are read from the left, and a number
of more than 64 bits is refused as soon as it is reached, whatever stands after it. -/
def magnitudeFrom (spelled : String) (value : Nat) : List Char → Except Invalid Nat
  | [] => .ok value
  | c :: rest =>
    if Text.isNumeral c then
      let value := 10 * value + Text.numeralValue [c]
      if value ≤ 0xFFFFFFFFFFFFFFFF then magnitudeFrom spelled value rest else .error (.outOfRange spelled)
    else .error (.notANumber spelled)

def distance? (text : List Char) : Except Invalid Int64 := do
  let spelled := String.ofList text
  -- The first character is the sign.
  if text.tail = [] then .error (.notANumber spelled)
  else
    let magnitude ← magnitudeFrom spelled 0 text.tail
    let value : Int := if text.head? = some '-' then -(magnitude : Int) else magnitude
    if -0x8000000000000000 ≤ value ∧ value < 0x8000000000000000 then .ok (Int64.ofInt value)
    else .error (.outOfRange spelled)

/-- Upper-case form of the letters that level names are made of, the dotless i among them. -/
def upper (c : Char) : Char := if c = 'ı' then 'I' else c.toUpper

def named? (name : List Char) : Option Level :=
  let name := String.ofList (name.map upper)
  if name = "DEBUG" then some debug
  else if name = "INFO" then some info
  else if name = "WARN" then some warn
  else if name = "ERROR" then some error
  else none

def parse (text : String) : Except Invalid Level := do
  let isSign (c : Char) : Bool := c == '+' || c == '-'
  let name := text.toList.takeWhile (!isSign ·)
  let distance ←
    match text.toList.dropWhile (!isSign ·) with
    | [] => .ok 0
    | signed => distance? signed
  match named? name with
  | none => .error .unknownName
  | some level => return level + distance

end Level

end HindleyMilner.Log
