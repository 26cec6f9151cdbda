import HindleyMilner.NameSet
import HindleyMilner.Subst

/-! Type schemes: a type under a list of quantified variables, the outermost first.

A quantified name may be repeated or may not occur in the type. Substituting into a scheme leaves
the quantified names as they are and does not rename them. -/

set_option autoImplicit false

namespace HindleyMilner

structure Scheme where
  bound : List String
  type : Ty
  deriving DecidableEq, Repr

namespace Scheme

def mono (t : Ty) : Scheme := ⟨[], t⟩

def quantify (name : String) (scheme : Scheme) : Scheme := ⟨name :: scheme.bound, scheme.type⟩

theorem foldr_quantify (names : List String) (t : Ty) : names.foldr quantify (.mono t) = ⟨names, t⟩ := by
  induction names with
  | nil => rfl
  | cons name names ih => rw [List.foldr_cons, ih, quantify]

def isMono (scheme : Scheme) : Bool := scheme.bound.isEmpty

/-- The variables that no quantifier binds, in the order of their first occurrences. -/
def freeVars (scheme : Scheme) : List String := scheme.type.collect scheme.bound []

def generalize (t : Ty) (owned : NameSet) : Scheme :=
  ⟨t.vars.filter fun name => !owned.contains name, t⟩

/-- Quantify over the variables that are still free, after those already quantified. -/
def close (scheme : Scheme) : Scheme := ⟨scheme.bound ++ scheme.freeVars, scheme.type⟩

def subst (s : Subst) (scheme : Scheme) : Scheme :=
  -- A type that is put in may mention a quantified name, which then captures it.
  ⟨scheme.bound, (s.without scheme.bound).apply scheme.type⟩

def render (scheme : Scheme) : Except Fault String := do
  let text ← scheme.type.render
  return String.join (scheme.bound.map fun name => "∀" ++ name ++ ".") ++ text

end Scheme

end HindleyMilner
