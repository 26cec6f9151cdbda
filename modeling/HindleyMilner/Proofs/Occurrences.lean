import HindleyMilner.Scheme
import Mathlib.Data.List.Induction

/-! The variables of types and schemes in the order of their first occurrences.

Variables are collected with those found so far at hand. What is added is what a type has from left to
right, without what was found, is bound, or stands to the left already. So the free variables of a scheme
are those of its type without the bound ones, and a type that is generalized has its variables either
bound or free, both in their order. -/

set_option autoImplicit false

namespace HindleyMilner

namespace Ty

mutual
/-- The variables of a type from left to right, each as often as it occurs. -/
def occurrences : Ty → List String
  | .absent => []
  | .var name => [name]
  | .app _ args => occurrencesAll args

def occurrencesAll : List Ty → List String
  | [] => []
  | t :: rest => occurrences t ++ occurrencesAll rest
end

theorem occurrencesAll_eq_flatMap (ts : List Ty) : occurrencesAll ts = ts.flatMap occurrences := by
  induction ts with
  | nil => rfl
  | cons t rest ih => rw [occurrencesAll, ih, List.flatMap_cons]

@[simp] theorem occurrences_app (con : String) (args : List Ty) :
    occurrences (.app con args) = args.flatMap occurrences := by
  rw [occurrences, occurrencesAll_eq_flatMap]

def additions (bound found names : List String) : List String :=
  (names.filter fun name => decide (name ∉ bound ∧ name ∉ found)).eraseDups

theorem additions_append (bound found first second : List String) :
    additions bound found (first ++ second) =
      additions bound found first ++ additions bound (found ++ additions bound found first) second := by
  unfold additions
  rw [List.filter_append, List.eraseDups_append, List.removeAll, List.filter_filter]
  congr 2
  refine List.filter_congr fun name mem => ?_
  rw [Bool.eq_iff_iff]
  simp only [List.elem_eq_mem, List.mem_filter, List.mem_append, List.mem_eraseDups, Bool.and_eq_true,
    Bool.not_eq_true', decide_eq_true_eq, decide_eq_false_iff_not]
  grind

theorem collect_eq_append (bound : List String) (t : Ty) (found : List String) :
    collect bound t found = found ++ additions bound found t.occurrences := by
  induction t using argsInduction generalizing found with
  | absent => simp [collect, occurrences, additions]
  | var name =>
    rw [collect, occurrences]
    by_cases old : name ∈ bound ∨ name ∈ found
    · have none : ¬ (name ∉ bound ∧ name ∉ found) := fun new => old.elim new.1 new.2
      simp [additions, old, none]
    · have new : name ∉ bound ∧ name ∉ found := not_or.1 old
      simp [additions, new, List.eraseDups_cons]
  | app con args ih =>
    rw [collect, collectAll_eq_foldl, occurrences_app]
    induction args generalizing found with
    | nil => simp [additions]
    | cons arg rest ihRest =>
      rw [List.foldl_cons, ihRest fun t mem => ih t (List.mem_cons_of_mem _ mem), ih arg List.mem_cons_self,
        List.flatMap_cons, additions_append, List.append_assoc]

/-- Each variable is listed at its first occurrence. -/
theorem vars_eq_eraseDups (t : Ty) : t.vars = t.occurrences.eraseDups := by
  rw [vars, collect_eq_append, List.nil_append, additions, List.filter_eq_self.2 (by simp)]

theorem eraseDups_filter (keep : String → Bool) (names : List String) :
    (names.filter keep).eraseDups = names.eraseDups.filter keep := by
  induction names using List.reverseRecOn with
  | nil => simp
  | append_singleton names name ih =>
    rw [List.filter_append, List.eraseDups_append, List.eraseDups_append, List.filter_append, ih]
    -- A name that is kept is new after the kept ones exactly if it is new after all of them.
    by_cases kept : keep name = true <;> by_cases old : name ∈ names <;>
      simp [List.removeAll, List.eraseDups_cons, kept, old]

/-- To pass over the bound variables while collecting is to collect all and to leave them out. -/
theorem collect_eq_filter (bound : List String) (t : Ty) :
    collect bound t [] = t.vars.filter fun name => decide (name ∉ bound) := by
  rw [collect_eq_append, vars_eq_eraseDups, ← eraseDups_filter, List.nil_append, additions]
  simp

end Ty

namespace Scheme

theorem freeVars_eq_filter (scheme : Scheme) :
    scheme.freeVars = scheme.type.vars.filter fun name => decide (name ∉ scheme.bound) :=
  Ty.collect_eq_filter scheme.bound scheme.type

/-- What is not quantified is what the enclosing scope owns. -/
theorem freeVars_generalize (t : Ty) (owned : NameSet) :
    (generalize t owned).freeVars = t.vars.filter fun name => owned.contains name := by
  rw [freeVars_eq_filter]
  refine List.filter_congr fun name mem => ?_
  have inType : name ∈ t.vars := mem
  simp [generalize, inType]

/-- The variables of a type are those that occur, each listed once, at its first occurrence. The free variables
of a scheme are those of its type without the quantified ones. A type that is generalized is quantified over those
of its variables that the enclosing scope does not own, the first one outermost, and the others are free. All are in
the order of the type. -/
theorem freeVars_inOrder (t : Ty) (scheme : Scheme) (owned : NameSet) :
    t.vars.Nodup ∧ t.vars = t.occurrences.eraseDups ∧ (∀ v, t.occurs v = true ↔ v ∈ t.vars) ∧
    scheme.freeVars = scheme.type.vars.filter (fun v => decide (v ∉ scheme.bound)) ∧
    generalize t owned = (t.vars.filter fun v => !owned.contains v).foldr quantify (.mono t) ∧
    (generalize t owned).bound = t.vars.filter (fun v => !owned.contains v) ∧
    (generalize t owned).freeVars = t.vars.filter (fun v => owned.contains v) ∧
    (generalize t owned).type = t := by
  refine ⟨Ty.nodup_vars t, Ty.vars_eq_eraseDups t, fun v => Ty.mem_vars.symm, freeVars_eq_filter scheme, ?_, rfl,
    freeVars_generalize t owned, rfl⟩
  rw [foldr_quantify, generalize]

/-- The variable `a` is owned, and `b` occurs twice. -/
example :
    let t : Ty := .arrow (.var "b") (.arrow (.var "a") (.arrow (.var "c") (.var "b")))
    generalize t (.ofNames ["a"]) = quantify "b" (quantify "c" (.mono t)) ∧
    (generalize t (.ofNames ["a"])).freeVars = ["a"] := by
  decide

end Scheme

end HindleyMilner
