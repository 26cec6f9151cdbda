import HindleyMilner.Proofs.FreeVariables
import HindleyMilner.Supply
import Mathlib

/-! Numbered variables.

As long as the counter stays within its 64 bits, the fresh variables of a supply are `t` followed
by successive natural numbers, and no two of them are the same. -/

set_option autoImplicit false

namespace HindleyMilner.Supply

def numbered (k : Nat) : String := "t" ++ toString k

theorem numbered_injective {j k : Nat} (same : numbered j = numbered k) : j = k :=
  Nat.repr_injective ((String.append_right_inj "t").1 same)

/-- The least number that the counter does not reach, two to the power of 63. -/
def limit : Nat := 9223372036854775808

theorem nameOf_ofNat {k : Nat} (below : k < limit) : nameOf (.ofNat k) = numbered k := by
  unfold nameOf
  rw [Int64.toInt_ofNat_of_lt below]
  rfl

def starting (n : Nat) : Supply := { next := .ofNat n }

theorem starting_injective {j k : Nat} (below : j < limit) (belowOther : k < limit)
    (same : starting j = starting k) : j = k := by
  have numbers := congrArg (fun supply => supply.next.toInt) same
  simp only [starting, Int64.toInt_ofNat_of_lt below, Int64.toInt_ofNat_of_lt belowOther] at numbers
  exact Int.ofNat.inj numbers

theorem next_succ (n : Nat) : Int64.ofNat n + 1 = Int64.ofNat (n + 1) := by
  rw [Int64.ofNat_add]
  rfl

theorem fresh_starting (n : Nat) (below : n < limit) : (starting n).fresh = (numbered n, starting (n + 1)) := by
  unfold fresh starting
  rw [nameOf_ofNat below, next_succ]

/-- Put numbered variables in for the names, one number for each place in the list. -/
def renewal : Nat → List String → Subst → Subst
  | _, [], chosen => chosen
  | n, name :: rest, chosen => renewal (n + 1) rest (chosen.insert name (.var (numbered n)))

theorem choose_eq_renewal {n : Nat} {bound : List String} (chosen : Subst)
    (fits : n + bound.length ≤ limit) :
    choose bound ⟨.ofNat n, chosen⟩ = ⟨.ofNat (n + bound.length), renewal n bound chosen⟩ := by
  induction bound generalizing n chosen with
  | nil => rfl
  | cons name rest ih =>
    rw [List.length_cons] at fits
    have step := ih (n := n + 1) (chosen.insert name (.var (numbered n))) (by omega)
    have count : n + 1 + rest.length = n + (rest.length + 1) := by omega
    rw [count] at step
    unfold choose fresh renewal
    rw [nameOf_ofNat (by omega), next_succ, List.length_cons]
    exact step

def renewed (n : Nat) (scheme : Scheme) : Ty := (renewal n scheme.bound ∅).apply scheme.type

theorem instantiate_starting (n : Nat) (scheme : Scheme) (fits : n + scheme.bound.length ≤ limit) :
    instantiate scheme (starting n) = (renewed n scheme, starting (n + scheme.bound.length)) := by
  unfold instantiate renewed
  split
  · rename_i plain
    have none : scheme.bound = [] := List.isEmpty_iff.1 plain
    rw [none, List.length_nil, Nat.add_zero, renewal, Subst.apply_empty]
  · have chosen := choose_eq_renewal ∅ fits
    rw [starting, chosen]
    rfl

theorem image_renewal_of_not_mem {v : String} {bound : List String} {n : Nat} {chosen : Subst}
    (outside : v ∉ bound) : (renewal n bound chosen).image v = chosen.image v := by
  induction bound generalizing n chosen with
  | nil => rfl
  | cons name rest ih =>
    obtain ⟨other, outsideRest⟩ := not_or.1 (mt List.mem_cons.2 outside)
    rw [renewal, ih outsideRest, Subst.image_insert, if_neg other]

theorem image_renewal_of_mem {v : String} {bound : List String} (n : Nat) (chosen : Subst)
    (mem : v ∈ bound) :
    ∃ i, bound[i]? = some v ∧ (renewal n bound chosen).image v = .var (numbered (n + i)) := by
  induction bound generalizing n chosen with
  | nil => exact absurd mem List.not_mem_nil
  | cons name rest ih =>
    -- A name that is quantified twice takes the number of its innermost quantifier.
    by_cases inRest : v ∈ rest
    · obtain ⟨i, place, image⟩ := ih (n + 1) (chosen.insert name (.var (numbered n))) inRest
      refine ⟨i + 1, place, ?_⟩
      rw [renewal, image]
      congr 2
      omega
    · have same : v = name := (List.mem_cons.1 mem).resolve_right inRest
      refine ⟨0, by rw [same]; rfl, ?_⟩
      rw [renewal, image_renewal_of_not_mem inRest, Subst.image_insert, if_pos same]
      rfl

theorem isComplete_renewal {bound : List String} {n : Nat} {chosen : Subst} (whole : chosen.IsComplete) :
    (renewal n bound chosen).IsComplete := by
  induction bound generalizing n chosen with
  | nil => exact whole
  | cons name rest ih => exact ih (whole.insert (Ty.isComplete_var _))

theorem occurs_renewed {n : Nat} {scheme : Scheme} {v : String}
    (inside : (renewed n scheme).occurs v = true) :
    scheme.Free v ∨ ∃ k, n ≤ k ∧ k < n + scheme.bound.length ∧ v = numbered k := by
  obtain ⟨source, inType, inImage⟩ := (Subst.occurs_apply _ _ _).1 inside
  by_cases mem : source ∈ scheme.bound
  · obtain ⟨i, place, image⟩ := image_renewal_of_mem n ∅ mem
    rw [image, Ty.occurs_var] at inImage
    have bound := (List.getElem?_eq_some_iff.1 place).1
    exact .inr ⟨n + i, by omega, by omega, inImage⟩
  · rw [image_renewal_of_not_mem mem, Subst.image_empty, Ty.occurs_var] at inImage
    subst inImage
    exact .inl ⟨inType, mem⟩

end HindleyMilner.Supply
