/-! Numbers written in ASCII digits. -/

set_option autoImplicit false

namespace HindleyMilner.Text

def isNumeral (c : Char) : Bool := '0' ≤ c && c ≤ '9'

def numeralValue (digits : List Char) : Nat :=
  digits.foldl (fun value c => value * 10 + (c.toNat - '0'.toNat)) 0

end HindleyMilner.Text
