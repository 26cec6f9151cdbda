import HindleyMilner.Ty

/-! Equality of types up to the names of their variables. -/

set_option autoImplicit false

namespace HindleyMilner.Ty

/-- Variables of one type paired with variables of another, one to one. -/
abbrev Pairing := List (String × String)

def Pairing.add (pairing : Pairing) (a b : String) : Option Pairing :=
  match pairing.find? (·.1 == a) with
  | some pair => if pair.2 = b then some pairing else none
  | none => if pairing.any (·.2 == b) then none else some ((a, b) :: pairing)

mutual
/-- Walk two types of the same shape from left to right and pair their variables. -/
def pairVars : Ty → Ty → Pairing → Option Pairing
  | .var a, .var b, pairing => pairing.add a b
  | .app c as, .app d bs, pairing => if c = d then pairVarsAll as bs pairing else none
  | _, _, _ => none

def pairVarsAll : List Ty → List Ty → Pairing → Option Pairing
  | [], [], pairing => some pairing
  | a :: as, b :: bs, pairing => (pairVars a b pairing).bind (pairVarsAll as bs)
  | _, _, _ => none
end

def alphaEquals (a b : Ty) : Bool := (pairVars a b []).isSome

end HindleyMilner.Ty
