import HindleyMilner.NameMap
import HindleyMilner.Ty.Printer

/-! Substitutions of types for type variables.

A substitution replaces all its variables at once; what it puts in is not looked at again. -/

set_option autoImplicit false

namespace HindleyMilner

abbrev Subst := NameMap Ty

namespace Subst

def image (s : Subst) (name : String) : Ty := (s.find? name).getD (.var name)

mutual
def apply (s : Subst) : Ty → Ty
  | .absent => .absent
  | .var name => s.image name
  | .app con args => .app con (applyAll s args)

def applyAll (s : Subst) : List Ty → List Ty
  | [] => []
  | t :: rest => apply s t :: applyAll s rest
end

def without (s : Subst) (names : List String) : Subst := names.foldl NameMap.erase s

/-- First `s`, then `next`. -/
def compose (s next : Subst) : Subst := (s.map next.apply).union next

theorem applyAll_eq_map (s : Subst) (ts : List Ty) : s.applyAll ts = ts.map s.apply := by
  induction ts with
  | nil => rfl
  | cons t rest ih => simp [applyAll, ih]

@[simp] theorem apply_absent (s : Subst) : s.apply .absent = .absent := by rw [apply]

@[simp] theorem apply_var (s : Subst) (name : String) : s.apply (.var name) = s.image name := by
  rw [apply]

@[simp] theorem apply_app (s : Subst) (con : String) (args : List Ty) :
    s.apply (.app con args) = .app con (args.map s.apply) := by
  rw [apply, applyAll_eq_map]

theorem occurs_apply (s : Subst) (t : Ty) (name : String) :
    (s.apply t).occurs name = true ↔
      ∃ source, t.occurs source = true ∧ (s.image source).occurs name = true := by
  induction t using Ty.argsInduction with
  | absent => simp [Ty.occurs]
  | var other => simp [Ty.occurs]
  | app con args ih =>
    simp only [apply_app, Ty.occurs_app, List.any_map, List.any_eq_true, Function.comp_apply]
    constructor
    · rintro ⟨t, mem, found⟩
      obtain ⟨source, inArg, inImage⟩ := (ih t mem).1 found
      exact ⟨source, ⟨t, mem, inArg⟩, inImage⟩
    · rintro ⟨source, ⟨t, mem, inArg⟩, inImage⟩
      exact ⟨t, mem, (ih t mem).2 ⟨source, inArg, inImage⟩⟩

def render (s : Subst) : Except Fault String := do
  let parts ← s.entries.mapM fun (name, t) => do return name ++ " ↦ " ++ (← t.render)
  return "\x7b" ++ ", ".intercalate parts ++ "\x7d"

end Subst

end HindleyMilner
