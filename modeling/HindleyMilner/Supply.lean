import HindleyMilner.Scheme

/-! Fresh type variables.

Variables are named `t0`, `t1` and so on after a counter of 64 bits, which starts again at its
least value when it runs over. -/

set_option autoImplicit false

namespace HindleyMilner

/-- The counter, and the variables chosen so far for the quantifiers of the scheme that is being
instantiated. Between instantiations none are chosen. -/
structure Supply where
  next : Int64 := 0
  chosen : Subst := ∅

namespace Supply

def nameOf (number : Int64) : String := "t" ++ toString number.toInt

def fresh (supply : Supply) : String × Supply :=
  (nameOf supply.next, { supply with next := supply.next + 1 })

def freshList : Nat → Supply → List String × Supply
  | 0, supply => ([], supply)
  | count + 1, supply =>
    let (first, supply) := supply.fresh
    let (others, supply) := freshList count supply
    (first :: others, supply)

def reset (_ : Supply) : Supply := {}

/-- Choose a fresh variable for each quantifier, the outermost first. A repeated name takes the
variable of its innermost quantifier. -/
def choose : List String → Supply → Supply
  | [], supply => supply
  | name :: rest, supply =>
    let (new, supply) := supply.fresh
    choose rest { supply with chosen := supply.chosen.insert name (.var new) }

/-- The type of a scheme with a fresh variable in place of each quantified one. All are replaced
at once, so a fresh name that is also a quantified one is safe. -/
def instantiate (scheme : Scheme) (supply : Supply) : Ty × Supply :=
  if scheme.isMono then (scheme.type, supply)
  else
    let supply := supply.choose scheme.bound
    (supply.chosen.apply scheme.type, { supply with chosen := ∅ })

end Supply

end HindleyMilner
