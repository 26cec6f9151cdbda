import HindleyMilner.Text.Numeral

/-! Kinds of plain text.

A text without quotes may be read as no value, a truth value, a number or a time. Here this matters
only for no value, and for a text with a tag, which has to be of the kind that the tag names. -/

set_option autoImplicit false

namespace HindleyMilner.Yaml

inductive Kind where
  | null
  | bool
  | int
  | float
  | time
  | merge
  | text
  deriving DecidableEq, Repr

def Kind.tag : Kind → String
  | .null => "!!null"
  | .bool => "!!bool"
  | .int => "!!int"
  | .float => "!!float"
  | .time => "!!timestamp"
  | .merge => "!!merge"
  | .text => "!!str"

def isNullText (text : String) : Bool := text ∈ ["", "~", "null", "Null", "NULL"]

def isBoolText (text : String) : Bool :=
  text ∈ ["true", "True", "TRUE", "false", "False", "FALSE"]

def isSpecialFloat (text : String) : Bool :=
  text ∈ [".nan", ".NaN", ".NAN", ".inf", ".Inf", ".INF", "+.inf", "+.Inf", "+.INF", "-.inf", "-.Inf",
    "-.INF"]

def digitValue? (c : Char) : Option Nat :=
  if Text.isNumeral c then some (c.toNat - '0'.toNat)
  else if c.isLower then some (c.toNat - 'a'.toNat + 10)
  else if c.isUpper then some (c.toNat - 'A'.toNat + 10)
  else none

def inBase? (base : Nat) (digits : List Char) : Option Nat :=
  digits.foldlM (fun value c => do
    let digit ← digitValue? c
    if digit < base then some (base * value + digit) else none) 0

def magnitude? : List Char → Option Nat
  | [] => none
  | '0' :: letter :: digit :: digits =>
    if letter.toLower = 'x' then inBase? 16 (digit :: digits)
    else if letter.toLower = 'o' then inBase? 8 (digit :: digits)
    else if letter.toLower = 'b' then inBase? 2 (digit :: digits)
    else inBase? 8 (letter :: digit :: digits)
  -- Digits after a zero are octal, as they are after `0o`.
  | '0' :: digits => inBase? 8 digits
  | digits => inBase? 10 digits

/-- A number of 64 bits; without a sign all of them may be used for its value. -/
def isInt : List Char → Bool
  | '+' :: digits => (magnitude? digits).any (· < 0x8000000000000000)
  | '-' :: digits => (magnitude? digits).any (· ≤ 0x8000000000000000)
  | digits => (magnitude? digits).any (· ≤ 0xFFFFFFFFFFFFFFFF)

def splitDigits (text : List Char) : List Char × List Char :=
  (text.takeWhile Text.isNumeral, text.dropWhile Text.isNumeral)

def dropSign : List Char → List Char
  | '+' :: rest | '-' :: rest => rest
  | text => text

def exponent? : List Char → Option Int
  | [] => some 0
  | letter :: rest =>
    let digits := dropSign rest
    if (letter = 'e' || letter = 'E') && !digits.isEmpty && digits.all Text.isNumeral then
      let value : Int := Text.numeralValue digits
      some (if rest.head? = some '-' then -value else value)
    else none

/-- A decimal number is less than the least one that is taken for infinite. -/
def isFinite (digits : List Char) (exponent : Int) : Bool :=
  let digits := digits.dropWhile (· = '0')
  let size := digits.length + exponent
  -- Only a number near the limit is worked out.
  if digits.isEmpty || size < 300 then true
  else if 400 < size then false
  else
    let value := Text.numeralValue digits
    -- Halfway between the greatest float and the power of two after it.
    let limit := Nat.pow 2 1024 - Nat.pow 2 970
    if 0 ≤ exponent then value * Nat.pow 10 exponent.toNat < limit
    else value < limit * Nat.pow 10 (-exponent).toNat

def isFloat (text : List Char) : Bool :=
  let (whole, rest) := splitDigits (dropSign text)
  let (fraction, rest) :=
    match rest with
    | '.' :: rest => splitDigits rest
    | rest => ([], rest)
  !(whole.isEmpty && fraction.isEmpty)
    && (exponent? rest).any fun exponent => isFinite (whole ++ fraction) (exponent - fraction.length)

def shortNumber? (low high : Nat) (text : List Char) : Option (Nat × List Char) :=
  let digits := (text.take 2).takeWhile Text.isNumeral
  let value := Text.numeralValue digits
  if !digits.isEmpty && low ≤ value && value ≤ high then some (value, text.drop digits.length) else none

def char? (c : Char) : List Char → Option (List Char)
  | head :: rest => if head = c then some rest else none
  | [] => none

def daysIn (year month : Nat) : Nat :=
  if month = 2 then if year % 4 = 0 && (year % 100 ≠ 0 || year % 400 = 0) then 29 else 28
  else if month ∈ [4, 6, 9, 11] then 30
  else 31

def date? (text : List Char) : Option (List Char) := do
  let (year, rest) := splitDigits text
  if year.length ≠ 4 then none
  else
    let (month, rest) ← shortNumber? 1 12 (← char? '-' rest)
    let (_, rest) ← shortNumber? 1 (daysIn (Text.numeralValue year) month) (← char? '-' rest)
    return rest

def clock? (text : List Char) : Option (List Char) := do
  let (_, rest) ← shortNumber? 0 23 text
  let (_, rest) ← shortNumber? 0 59 (← char? ':' rest)
  let (_, rest) ← shortNumber? 0 59 (← char? ':' rest)
  match rest with
  | point :: digit :: more =>
    if (point = '.' || point = ',') && Text.isNumeral digit then return more.dropWhile Text.isNumeral
    else return rest
  | rest => return rest

def isZone : List Char → Bool
  | ['Z'] => true
  | [sign, a, b, ':', c, d] =>
    (sign = '+' || sign = '-') && [a, b, c, d].all Text.isNumeral
      && Text.numeralValue [a, b] ≤ 24 && Text.numeralValue [c, d] ≤ 60
  | _ => false

def isTime (text : List Char) : Bool :=
  match date? text with
  | none => false
  | some [] => true
  | some ('T' :: rest) | some ('t' :: rest) => (clock? rest).any isZone
  | some (' ' :: rest) => (clock? (rest.dropWhile (· = ' '))).any (·.isEmpty)
  | some _ => false

/-- The kind of a text; only where times are asked for is a date one. -/
def Kind.ofText (times : Bool) (text : String) : Kind :=
  if isNullText text then .null
  else if isBoolText text then .bool
  else if isSpecialFloat text then .float
  else if text = "<<" then .merge
  else
    let chars := text.toList
    match chars with
    | [] => .null
    | first :: _ =>
      if first = '.' then if isFloat chars then .float else .text
      else if Text.isNumeral first || first = '+' || first = '-' then
        -- Underscores between digits do not count.
        let digits := chars.filter (· ≠ '_')
        if times && isTime chars then .time
        else if isInt digits then .int
        else if isFloat digits then .float
        else .text
      else .text

/-- A text with a tag is of the kind that the tag names; a whole number will also do for a number. -/
def Kind.fits (kind : Kind) (tag : String) : Bool :=
  kind.tag = tag || (kind = .int && tag = Kind.tag .float)

end HindleyMilner.Yaml
