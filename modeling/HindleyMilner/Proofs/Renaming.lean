import Mathlib
import HindleyMilner.Session
import HindleyMilner.Ty.Renaming
import HindleyMilner.Proofs.Substitution

/-! Renaming of type variables.

A type is equal to its renaming up to the names of variables if no two variables of it are given
one name. Types that are instances of each other differ by such a renaming. -/

set_option autoImplicit false

namespace HindleyMilner

namespace Ty

variable {f g : String → String} {t a b : Ty} {v w : String}

mutual
def rename (f : String → String) : Ty → Ty
  | .absent => .absent
  | .var name => .var (f name)
  | .app con args => .app con (renameAll f args)

def renameAll (f : String → String) : List Ty → List Ty
  | [] => []
  | t :: rest => rename f t :: renameAll f rest
end

@[simp] theorem rename_absent (f : String → String) : rename f .absent = .absent := by rw [rename]

@[simp] theorem rename_var (f : String → String) (name : String) : rename f (.var name) = .var (f name) := by
  rw [rename]

theorem renameAll_eq_map (f : String → String) (ts : List Ty) : renameAll f ts = ts.map (rename f) := by
  induction ts with
  | nil => rfl
  | cons t rest ih => simp [renameAll, ih]

@[simp] theorem rename_app (f : String → String) (con : String) (args : List Ty) :
    rename f (.app con args) = .app con (args.map (rename f)) := by
  rw [rename, renameAll_eq_map]

@[simp] theorem rename_arrow (f : String → String) (domain codomain : Ty) :
    rename f (arrow domain codomain) = arrow (rename f domain) (rename f codomain) := by
  simp [arrow]

theorem rename_congr (same : ∀ v, t.occurs v = true → f v = g v) : t.rename f = t.rename g := by
  induction t using argsInduction with
  | absent => simp
  | var name => simpa using same
  | app con args ih =>
    simp only [rename_app, app.injEq, true_and, List.map_inj_left]
    exact fun arg mem => ih arg mem fun v inside => same v (occurs_app_iff.2 ⟨arg, mem, inside⟩)

theorem rename_rename (f g : String → String) (t : Ty) : (t.rename f).rename g = t.rename (g ∘ f) := by
  induction t using argsInduction with
  | absent => simp
  | var name => simp
  | app con args ih => simpa using ih

/-- What is put in for the new names in a renamed type is what another substitution puts in for the old ones. -/
theorem apply_rename_of_images {s r : Subst} (images : ∀ v, t.occurs v = true → r.image (f v) = s.image v) :
    r.apply (t.rename f) = s.apply t := by
  induction t using argsInduction with
  | absent => simp
  | var name => simpa using images
  | app con args ih =>
    simp only [rename_app, Subst.apply_app, List.map_map, app.injEq, true_and, List.map_inj_left, Function.comp_apply]
    exact fun arg mem => ih arg mem fun v inside => images v (occurs_app_iff.2 ⟨arg, mem, inside⟩)

/-- A substitution that puts variables in for the variables of a type renames it. -/
theorem apply_eq_rename {s : Subst} (images : ∀ v, t.occurs v = true → s.image v = .var (f v)) :
    s.apply t = t.rename f := by
  have renamed : Subst.apply ∅ (t.rename f) = s.apply t := apply_rename_of_images fun v inside => by
    rw [Subst.image_empty, images v inside]
  rw [← renamed, Subst.apply_empty]

theorem rename_eq_self (fixed : ∀ v, t.occurs v = true → f v = v) : t.rename f = t := by
  have renamed : Subst.apply ∅ t = t.rename f := apply_eq_rename fun v inside => by
    rw [Subst.image_empty, fixed v inside]
  rw [← renamed, Subst.apply_empty]

theorem occurs_rename_iff : (t.rename f).occurs v = true ↔ ∃ w, t.occurs w = true ∧ f w = v := by
  induction t using argsInduction with
  | absent => simp [occurs]
  | var name =>
    simp only [rename_var, occurs_var, exists_eq_left]
    exact eq_comm
  | app con args ih =>
    simp only [rename_app, occurs_app_iff, List.mem_map, exists_exists_and_eq_and]
    constructor
    · rintro ⟨arg, mem, inside⟩
      obtain ⟨w, inArg, same⟩ := (ih arg mem).1 inside
      exact ⟨w, ⟨arg, mem, inArg⟩, same⟩
    · rintro ⟨w, ⟨arg, mem, inArg⟩, same⟩
      exact ⟨arg, mem, (ih arg mem).2 ⟨w, inArg, same⟩⟩

theorem isComplete_rename (whole : t.isComplete = true) : (t.rename f).isComplete = true := by
  induction t using argsInduction with
  | absent => exact absurd whole not_isComplete_absent
  | var name => simp
  | app con args ih =>
    rw [isComplete_app] at whole
    rw [rename_app, isComplete_app, List.forall_mem_map]
    exact fun arg mem => ih arg mem (whole arg mem)

/-- Every pair is a variable of the domain with its new name. -/
def Pairing.Follows (f : String → String) (domain : String → Prop) (pairing : Pairing) : Prop :=
  ∀ pair ∈ pairing, domain pair.1 ∧ pair.2 = f pair.1

theorem Pairing.exists_add {domain : String → Prop} {pairing : Pairing}
    (distinct : ∀ v w, domain v → domain w → f v = f w → v = w) (follows : pairing.Follows f domain)
    (inside : domain v) : ∃ next, pairing.add v (f v) = some next ∧ next.Follows f domain := by
  unfold Pairing.add
  cases earlier : pairing.find? (·.1 == v) with
  | some pair =>
    have same : pair.1 = v := by simpa using List.find?_some earlier
    have paired := (follows pair (List.mem_of_find?_eq_some earlier)).2
    exact ⟨pairing, if_pos (same ▸ paired), follows⟩
  | none =>
    have unused : ¬ pairing.any (·.2 == f v) = true := by
      intro used
      obtain ⟨pair, mem, taken⟩ := List.any_eq_true.1 used
      obtain ⟨insidePair, paired⟩ := follows pair mem
      have same := distinct pair.1 v insidePair inside (paired.symm.trans (by simpa using taken))
      exact List.find?_eq_none.1 earlier pair mem (by simpa using same)
    refine ⟨(v, f v) :: pairing, if_neg unused, ?_⟩
    rw [Pairing.Follows, List.forall_mem_cons]
    exact ⟨⟨inside, rfl⟩, follows⟩

theorem exists_pairVars_rename {domain : String → Prop} {pairing : Pairing}
    (distinct : ∀ v w, domain v → domain w → f v = f w → v = w) (whole : t.isComplete = true)
    (within : ∀ v, t.occurs v = true → domain v) (follows : pairing.Follows f domain) :
    ∃ next, pairVars t (t.rename f) pairing = some next ∧ next.Follows f domain := by
  induction t using argsInduction generalizing pairing with
  | absent => exact absurd whole not_isComplete_absent
  | var name =>
    rw [rename_var, pairVars]
    exact Pairing.exists_add distinct follows (within name (occurs_var.2 rfl))
  | app con args ih =>
    rw [rename_app, pairVars, if_pos rfl]
    rw [isComplete_app] at whole
    -- The arguments are walked with one pairing, so each starts where the one before it ended.
    induction args generalizing pairing with
    | nil => exact ⟨pairing, by rw [List.map_nil, pairVarsAll], follows⟩
    | cons arg rest ihRest =>
      obtain ⟨wholeArg, wholeRest⟩ := List.forall_mem_cons.1 whole
      simp only [occurs_app_iff, List.mem_cons, exists_eq_or_imp] at within
      obtain ⟨next, paired, followsNext⟩ :=
        ih arg List.mem_cons_self wholeArg (fun v inside => within v (.inl inside)) follows
      rw [List.map_cons, pairVarsAll, paired]
      refine ihRest (fun u mem => ih u (List.mem_cons_of_mem _ mem)) wholeRest (fun v inside => ?_) followsNext
      exact within v (.inr (occurs_app_iff.1 inside))

theorem alphaEquals_rename (whole : t.isComplete = true)
    (distinct : ∀ v w, t.occurs v = true → t.occurs w = true → f v = f w → v = w) :
    t.alphaEquals (t.rename f) = true := by
  have start : Pairing.Follows f (fun v => t.occurs v = true) [] := fun pair mem => absurd mem List.not_mem_nil
  obtain ⟨pairing, paired, _⟩ := exists_pairVars_rename distinct whole (fun _ inside => inside) start
  rw [alphaEquals, paired]
  rfl

/-- A renaming that keeps the variables apart can be taken back. -/
theorem rename_alphaEquals (whole : t.isComplete = true)
    (distinct : ∀ v w, t.occurs v = true → t.occurs w = true → f v = f w → v = w) :
    (t.rename f).alphaEquals t = true := by
  let back := Function.invFunOn f {v | t.occurs v = true}
  have restores (v : String) (inside : t.occurs v = true) : back (f v) = v :=
    Set.InjOn.leftInvOn_invFunOn (fun v inV w inW => distinct v w inV inW) inside
  have restored : (t.rename f).rename back = t := by
    rw [rename_rename]
    exact rename_eq_self restores
  have alpha := alphaEquals_rename (f := back) (isComplete_rename (f := f) whole) fun v w inV inW same => by
    obtain ⟨first, insideFirst, rfl⟩ := occurs_rename_iff.1 inV
    obtain ⟨second, insideSecond, rfl⟩ := occurs_rename_iff.1 inW
    rw [restores first insideFirst, restores second insideSecond] at same
    rw [same]
  rwa [restored] at alpha

theorem exists_var_of_apply {s : Subst} (result : s.apply t = .var v) : ∃ w, t = .var w ∧ s.image w = .var v := by
  cases t with
  | absent => simp at result
  | var name => exact ⟨name, rfl, by simpa using result⟩
  | app con args => simp at result

/-- Types that are instances of each other are equal up to the names of variables. -/
theorem alphaEquals_of_instances {s r : Subst} (whole : a.isComplete = true) (forth : b = s.apply a)
    (back : a = r.apply b) : a.alphaEquals b = true := by
  rw [forth, ← Subst.apply_compose] at back
  -- Going forth and back gives each variable again, so it went to a variable.
  have images (v : String) (inside : a.occurs v = true) : ∃ w, s.image v = .var w ∧ r.image w = .var v := by
    have fixed := Subst.apply_eq_self_iff.1 back.symm v inside
    rw [Subst.image_compose] at fixed
    exact exists_var_of_apply fixed
  choose! f toVar backAgain using images
  rw [forth, apply_eq_rename toVar]
  refine alphaEquals_rename whole fun v w inV inW same => ?_
  have backV := backAgain v inV
  rw [same, backAgain w inW] at backV
  exact (var.inj backV).symm

end Ty

/-- Both outcomes are failures, or both are types that are equal up to the names of variables. -/
def Session.Alike : Except Halt Typing → Except Halt Typing → Prop
  | .ok found, .ok other => found.type.alphaEquals other.type = true
  | .error _, .error _ => True
  | _, _ => False

instance (first second : Except Halt Typing) : Decidable (Session.Alike first second) :=
  match first, second with
  | .ok found, .ok other => inferInstanceAs (Decidable (found.type.alphaEquals other.type = true))
  | .error _, .error _ => isTrue trivial
  | .ok _, .error _ | .error _, .ok _ => isFalse id

end HindleyMilner
