/-! Ranges of code points, the form in which character properties are tabulated. -/

set_option autoImplicit false

namespace HindleyMilner.Text

abbrev Ranges := List (Nat × Nat)

/-- Membership stops at the first range that starts above the code point. -/
def Ranges.covers : Ranges → Nat → Bool
  | [], _ => false
  | (low, high) :: rest, point =>
    if point < low then false else decide (point ≤ high) || Ranges.covers rest point

theorem Ranges.covers_cons_of_lt {low high point : Nat} {rest : Ranges} (below : point < low) :
    Ranges.covers ((low, high) :: rest) point = false := by
  simp [covers, below]

theorem Ranges.covers_cons_of_mem {low high point : Nat} {rest : Ranges}
    (above : low ≤ point) (within : point ≤ high) :
    Ranges.covers ((low, high) :: rest) point = true := by
  simp [covers, Nat.not_lt.2 above, within]

end HindleyMilner.Text
