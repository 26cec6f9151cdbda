import Mathlib
import HindleyMilner.Unify
import HindleyMilner.Proofs.Substitution

/-! Unification decides whether two types have a common instance, and finds a most general one.

A successful run is described by four rules. The substitution that the rules build solves the
equations, every other solution factors through it, it is idempotent, and it concerns no variable
but those of the equations. Where the types are complete, a run fails only if nothing solves the
equations. -/

set_option autoImplicit false

namespace HindleyMilner

namespace Subst

variable {u : Subst} {t : Ty} {name : String}

theorem size_image_le (u : Subst) (inside : t.occurs name = true) :
    (u.image name).size ≤ (u.apply t).size := by
  induction t using Ty.argsInduction with
  | absent => simp [Ty.occurs] at inside
  | var other =>
    have same : u.apply (.var other) = u.image name := by rw [apply_var, Ty.occurs_var.1 inside]
    exact Nat.le_of_eq (congrArg Ty.size same.symm)
  | app con args ih =>
    obtain ⟨arg, mem, inArg⟩ := Ty.occurs_app_iff.1 inside
    have below := ih arg mem inArg
    have part := Ty.size_le_sizeAll (List.mem_map_of_mem (f := u.apply) mem)
    rw [apply_app, Ty.size]
    omega

/-- No substitution makes a variable equal to a larger type that contains it. -/
theorem image_ne_apply_of_occurs (u : Subst) (inside : t.occurs name = true) (larger : t ≠ .var name) :
    u.image name ≠ u.apply t := by
  intro same
  cases t with
  | absent => simp [Ty.occurs] at inside
  | var other =>
    rw [Ty.occurs_var] at inside
    exact larger (inside ▸ rfl)
  | app con args =>
    obtain ⟨arg, mem, inArg⟩ := Ty.occurs_app_iff.1 inside
    have below := size_image_le u inArg
    have part := Ty.size_le_sizeAll (List.mem_map_of_mem (f := u.apply) mem)
    have sizes := congrArg Ty.size same
    rw [apply_app, Ty.size] at sizes
    omega

/-- A substitution that gives a variable what it gives a type absorbs the binding of one to the
other. -/
theorem apply_apply_single (solved : u.image name = u.apply t) (other : Ty) :
    u.apply (apply (NameMap.single name t) other) = u.apply other := by
  rw [← apply_compose]
  refine apply_congr fun v _ => ?_
  rw [image_compose, Unify.image_single]
  split
  · rename_i same
    rw [same, solved]
  · exact apply_var u v

theorem binds_single {v : String} : Binds (NameMap.single name t) v ↔ v = name := by
  unfold Binds
  rw [NameMap.find?_single]
  split <;> simp_all

theorem mentions_single {v : String} : Mentions (NameMap.single name t) v ↔ t.occurs v = true := by
  constructor
  · rintro ⟨w, value, found, inside⟩
    rw [NameMap.find?_single] at found
    split at found
    · cases found
      exact inside
    · cases found
  · intro inside
    exact ⟨name, t, by simp, inside⟩

end Subst

namespace Unify

variable {s u : Subst} {a b : Ty} {equations rest : List Equation} {name v : String}

def Unifies (u : Subst) (equations : List Equation) : Prop :=
  ∀ e ∈ equations, u.apply e.1 = u.apply e.2

def IsComplete (equations : List Equation) : Prop :=
  ∀ e ∈ equations, e.1.isComplete = true ∧ e.2.isComplete = true

theorem unifies_cons {e : Equation} :
    Unifies u (e :: rest) ↔ u.apply e.1 = u.apply e.2 ∧ Unifies u rest := List.forall_mem_cons

theorem unifies_append {first second : List Equation} :
    Unifies u (first ++ second) ↔ Unifies u first ∧ Unifies u second := List.forall_mem_append

theorem unifies_zip {as bs : List Ty} (same : as.length = bs.length) :
    Unifies u (as.zip bs) ↔ as.map u.apply = bs.map u.apply := by
  induction as generalizing bs with
  | nil =>
    cases bs with
    | nil => simp [Unifies]
    | cons b others => cases same
  | cons a others ih =>
    cases bs with
    | nil => cases same
    | cons b bs =>
      rw [List.zip_cons_cons, unifies_cons, ih (Nat.succ.inj same), List.map_cons, List.map_cons,
        List.cons.injEq]

theorem unifies_substAll : Unifies u (substAll s equations) ↔ Unifies (s.compose u) equations := by
  unfold Unifies substAll
  rw [List.forall_mem_map]
  simp only [Subst.apply_compose]

theorem unifies_substAll_single {t : Ty} (solved : u.image name = u.apply t) :
    Unifies u (substAll (NameMap.single name t) equations) ↔ Unifies u equations := by
  unfold Unifies substAll
  rw [List.forall_mem_map]
  simp only [Subst.apply_apply_single solved]

theorem image_eq_of_unifies {t : Ty} {first : Equation} (sides : first = (.var name, t) ∨ first = (t, .var name))
    (unified : Unifies u (first :: rest)) : u.image name = u.apply t := by
  have head := (unifies_cons.1 unified).1
  rcases sides with rfl | rfl
  · exact head
  · exact head.symm

@[simp] theorem substAll_empty (equations : List Equation) : substAll ∅ equations = equations := by
  simp [substAll]

theorem substAll_append (s : Subst) (first rest : List Equation) :
    substAll s (first ++ rest) = substAll s first ++ substAll s rest := List.map_append

theorem substAll_compose (s next : Subst) (equations : List Equation) :
    substAll (s.compose next) equations = substAll next (substAll s equations) := by
  simp [substAll]

/-- The rules by which a list of equations is worked off. -/
inductive Solution : List Equation → Subst → Prop where
  | nil : Solution [] ∅
  | trivial {name : String} {rest : List Equation} {s : Subst} :
      Solution rest s → Solution ((.var name, .var name) :: rest) s
  | bind {name : String} {t : Ty} {first : Equation} {rest : List Equation} {s : Subst} :
      first = (.var name, t) ∨ first = (t, .var name) → ¬ t.occurs name = true →
      Solution (substAll (NameMap.single name t) rest) s →
      Solution (first :: rest) (Subst.compose (NameMap.single name t) s)
  | args {con : String} {as bs : List Ty} {rest : List Equation} {s : Subst} :
      as.length = bs.length → Solution (as.zip bs ++ rest) s →
      Solution ((.app con as, .app con bs) :: rest) s

theorem exists_ok_of_compose {outcome : Except Impasse Subst} {first : Subst}
    (solved : (do let next ← outcome; return first.compose next) = .ok s) :
    ∃ next, outcome = .ok next ∧ first.compose next = s := by
  cases outcome with
  | error impasse => cases solved
  | ok next => exact ⟨next, rfl, Except.ok.inj solved⟩

theorem eq_error_of_compose {outcome : Except Impasse Subst} {first : Subst} {impasse : Impasse}
    (failed : (do let next ← outcome; return first.compose next) = .error impasse) : outcome = .error impasse := by
  cases outcome with
  | error earlier => exact failed
  | ok next => cases failed

theorem solution_of_solve (solved : solve equations = .ok s) : Solution equations s := by
  -- The recursion is not structural: substituting into the equations that are left enlarges them.
  induction equations using solve.induct generalizing s with
  | case1 =>
    rw [solve] at solved
    cases solved
    exact .nil
  | case2 name rest ih =>
    rw [solve, if_pos rfl] at solved
    exact .trivial (ih solved)
  | case3 name t rest other inside =>
    rw [solve, if_neg other, if_pos inside] at solved
    cases solved
  | case4 name t rest other fresh ih =>
    rw [solve, if_neg other, if_neg fresh] at solved
    obtain ⟨next, found, rfl⟩ := exists_ok_of_compose solved
    exact .bind (.inl rfl) fresh (ih found)
  | case5 c as name rest inside =>
    rw [solve, if_pos inside] at solved
    cases solved
  | case6 c as name rest fresh ih =>
    rw [solve, if_neg fresh] at solved
    obtain ⟨next, found, rfl⟩ := exists_ok_of_compose solved
    exact .bind (.inr rfl) fresh (ih found)
  | case7 c as d bs rest different =>
    rw [solve, if_pos different] at solved
    cases solved
  | case8 c as d bs rest same lengths =>
    rw [solve, if_neg same, if_pos lengths] at solved
    cases solved
  | case9 c as d bs rest same lengths ih =>
    rw [solve, if_neg same, if_neg lengths] at solved
    cases Decidable.not_not.1 same
    exact .args (Decidable.not_not.1 lengths) (ih solved)
  | case10 t rest =>
    rw [solve] at solved
    cases solved
  | case11 c as rest =>
    rw [solve] at solved
    cases solved

theorem Solution.unifies (solution : Solution equations s) : Unifies s equations := by
  induction solution with
  | nil => exact fun e mem => absurd mem List.not_mem_nil
  | trivial _ ih => exact unifies_cons.2 ⟨rfl, ih⟩
  | @bind name t first rest s sides fresh _ ih =>
    have solved : Subst.apply (NameMap.single name t) t = t :=
      Subst.apply_eq_self fun w inside bound => fresh (Subst.binds_single.1 bound ▸ inside)
    have sidesEqual : s.apply (Subst.apply (NameMap.single name t) (.var name)) =
        s.apply (Subst.apply (NameMap.single name t) t) := by
      rw [solved, Subst.apply_var, image_single, if_pos rfl]
    refine unifies_cons.2 ⟨?_, unifies_substAll.1 ih⟩
    rw [Subst.apply_compose, Subst.apply_compose]
    rcases sides with rfl | rfl
    · exact sidesEqual
    · exact sidesEqual.symm
  | args lengths _ ih =>
    obtain ⟨arguments, rest⟩ := unifies_append.1 ih
    refine unifies_cons.2 ⟨?_, rest⟩
    rw [Subst.apply_app, Subst.apply_app, (unifies_zip lengths).1 arguments]

/-- Every solution of the equations factors through the one that the rules build. -/
theorem Solution.factors (solution : Solution equations s) (unified : Unifies u equations) (t : Ty) :
    u.apply (s.apply t) = u.apply t := by
  induction solution generalizing t with
  | nil => rw [Subst.apply_empty]
  | trivial _ ih => exact ih (unifies_cons.1 unified).2 t
  | @bind name value first rest s sides _ _ ih =>
    have solved := image_eq_of_unifies sides unified
    -- A solution absorbs the binding, so it also solves the equations that are left.
    rw [Subst.apply_compose, ih ((unifies_substAll_single solved).2 (unifies_cons.1 unified).2),
      Subst.apply_apply_single solved]
  | args lengths _ ih =>
    obtain ⟨head, tail⟩ := unifies_cons.1 unified
    rw [Subst.apply_app, Subst.apply_app, Ty.app.injEq] at head
    exact ih (unifies_append.2 ⟨(unifies_zip lengths).2 head.2, tail⟩) t

theorem Solution.mentions_of_touches (solution : Solution equations s) (touched : s.Touches v) :
    Mentions equations v := by
  induction solution with
  | nil => exact touched.elim (absurd · Subst.not_binds_empty) (absurd · Subst.not_mentions_empty)
  | trivial _ ih => exact (ih touched).cons _
  | @bind name t first rest s sides fresh _ ih =>
    have inFirst (inside : v = name ∨ t.occurs v = true) : Mentions (first :: rest) v := by
      refine ⟨first, List.mem_cons_self, ?_⟩
      rcases sides with rfl | rfl
      · exact inside.imp_left Ty.occurs_var.2
      · exact inside.symm.imp_right Ty.occurs_var.2
    rcases Subst.touches_compose touched with (bound | put) | later
    · exact inFirst (.inl (Subst.binds_single.1 bound))
    · exact inFirst (.inr (Subst.mentions_single.1 put))
    · exact mentions_of_bound (by simpa using fresh) sides (ih later)
  | args _ _ ih => exact mentions_zip (ih touched)

theorem Solution.idempotent (solution : Solution equations s) : s.Idempotent := by
  induction solution with
  | nil => exact fun v bound => absurd bound Subst.not_binds_empty
  | trivial _ ih => exact ih
  | @bind name t first rest s sides fresh tail ih =>
    -- The bound variable is gone from the equations that are left, so it cannot come back.
    have gone : ¬ s.Touches name := fun touched =>
      (mentions_substAll_single (by simpa using fresh) (tail.mentions_of_touches touched)).1 rfl
    have single : Subst.Idempotent (NameMap.single name t) := fun v bound put =>
      fresh (Subst.binds_single.1 bound ▸ Subst.mentions_single.1 put)
    exact single.compose ih fun v bound => Subst.binds_single.1 bound ▸ gone
  | args _ _ ih => exact ih

/-- Equations between equal types are worked off without a binding. -/
theorem Solution.eq_empty (solution : Solution equations s) (equal : ∀ e ∈ equations, e.1 = e.2) : s = ∅ := by
  induction solution with
  | nil => rfl
  | trivial _ ih => exact ih (List.forall_mem_cons.1 equal).2
  | @bind name t first rest s sides fresh _ _ =>
    -- The other side would be the variable itself, which occurs in itself.
    have same : t = .var name := by
      rcases sides with rfl | rfl
      · exact (List.forall_mem_cons.1 equal).1.symm
      · exact (List.forall_mem_cons.1 equal).1
    exact absurd (Ty.occurs_var.2 rfl) (same ▸ fresh)
  | @args con as bs rest s lengths _ ih =>
    obtain ⟨head, tail⟩ := List.forall_mem_cons.1 equal
    obtain rfl : as = bs := (Ty.app.inj head).2
    refine ih (List.forall_mem_append.2 ⟨fun e mem => ?_, tail⟩)
    obtain ⟨i, _, rfl⟩ := List.mem_iff_getElem.1 mem
    rw [List.getElem_zip]

theorem IsComplete.substAll (whole : IsComplete equations) (wholeSubst : s.IsComplete) :
    IsComplete (Unify.substAll s equations) := by
  intro e mem
  obtain ⟨old, memOld, rfl⟩ := List.mem_map.1 mem
  exact ⟨wholeSubst.apply (whole old memOld).1, wholeSubst.apply (whole old memOld).2⟩

theorem isComplete_single {t : Ty} (whole : t.isComplete = true) :
    Subst.IsComplete (NameMap.single name t) :=
  Subst.isComplete_empty.insert whole

theorem IsComplete.not_absent {first : Equation} (whole : IsComplete (first :: rest)) :
    ¬ (first.1 = .absent ∨ first.2 = .absent) := by
  obtain ⟨wholeFirst, wholeSecond⟩ := (List.forall_mem_cons.1 whole).1
  rintro (gone | gone)
  · exact Ty.not_isComplete_absent (gone ▸ wholeFirst)
  · exact Ty.not_isComplete_absent (gone ▸ wholeSecond)

theorem IsComplete.value {t : Ty} {first : Equation} (whole : IsComplete (first :: rest))
    (sides : first = (.var name, t) ∨ first = (t, .var name)) : t.isComplete = true := by
  obtain ⟨wholeFirst, wholeSecond⟩ := (List.forall_mem_cons.1 whole).1
  rcases sides with rfl | rfl
  · exact wholeSecond
  · exact wholeFirst

theorem IsComplete.bind {t : Ty} {first : Equation} (whole : IsComplete (first :: rest))
    (sides : first = (.var name, t) ∨ first = (t, .var name)) :
    IsComplete (Unify.substAll (NameMap.single name t) rest) :=
  IsComplete.substAll (List.forall_mem_cons.1 whole).2 (isComplete_single (whole.value sides))

theorem IsComplete.args {c d : String} {as bs : List Ty}
    (whole : IsComplete ((.app c as, .app d bs) :: rest)) : IsComplete (as.zip bs ++ rest) := by
  obtain ⟨⟨wholeAs, wholeBs⟩, wholeRest⟩ := List.forall_mem_cons.1 whole
  intro e mem
  rcases List.mem_append.1 mem with inArgs | inRest
  · obtain ⟨inLeft, inRight⟩ := List.of_mem_zip inArgs
    exact ⟨Ty.isComplete_app.1 wholeAs e.1 inLeft, Ty.isComplete_app.1 wholeBs e.2 inRight⟩
  · exact wholeRest e inRest

theorem Solution.isComplete (solution : Solution equations s) (whole : IsComplete equations) :
    s.IsComplete := by
  induction solution with
  | nil => exact Subst.isComplete_empty
  | trivial _ ih => exact ih (List.forall_mem_cons.1 whole).2
  | @bind name t first rest s sides fresh _ ih =>
    exact (isComplete_single (whole.value sides)).compose (ih (whole.bind sides))
  | args _ _ ih => exact ih whole.args

/-- The rules by which a list of equations is found to have no solution. -/
inductive Obstacle : List Equation → Impasse → Prop where
  | infinite {name : String} {t : Ty} {first : Equation} {rest : List Equation} :
      first = (.var name, t) ∨ first = (t, .var name) → t ≠ .var name → t.occurs name = true →
      Obstacle (first :: rest) (.mismatch (.infinite name t))
  | constructors {con other : String} {as bs : List Ty} {rest : List Equation} : con ≠ other →
      Obstacle ((.app con as, .app other bs) :: rest) (.mismatch (.constructors con other))
  | arity {con : String} {as bs : List Ty} {rest : List Equation} : as.length ≠ bs.length →
      Obstacle ((.app con as, .app con bs) :: rest) (.mismatch (.arity (.app con as) (.app con bs)))
  | missing {first : Equation} {rest : List Equation} : first.1 = .absent ∨ first.2 = .absent →
      Obstacle (first :: rest) (.fault .missingType)
  | trivial {name : String} {rest : List Equation} {impasse : Impasse} :
      Obstacle rest impasse → Obstacle ((.var name, .var name) :: rest) impasse
  | bind {name : String} {t : Ty} {first : Equation} {rest : List Equation} {impasse : Impasse} :
      first = (.var name, t) ∨ first = (t, .var name) →
      Obstacle (substAll (NameMap.single name t) rest) impasse → Obstacle (first :: rest) impasse
  | args {con : String} {as bs : List Ty} {rest : List Equation} {impasse : Impasse} :
      as.length = bs.length → Obstacle (as.zip bs ++ rest) impasse →
      Obstacle ((.app con as, .app con bs) :: rest) impasse

theorem obstacle_of_solve {impasse : Impasse} (failed : solve equations = .error impasse) :
    Obstacle equations impasse := by
  induction equations using solve.induct generalizing impasse with
  | case1 =>
    rw [solve] at failed
    cases failed
  | case2 name rest ih =>
    rw [solve, if_pos rfl] at failed
    exact .trivial (ih failed)
  | case3 name t rest other inside =>
    rw [solve, if_neg other, if_pos inside] at failed
    cases failed
    exact .infinite (.inl rfl) other inside
  | case4 name t rest other fresh ih =>
    rw [solve, if_neg other, if_neg fresh] at failed
    exact .bind (.inl rfl) (ih (eq_error_of_compose failed))
  | case5 c as name rest inside =>
    rw [solve, if_pos inside] at failed
    cases failed
    exact .infinite (.inr rfl) Ty.noConfusion inside
  | case6 c as name rest fresh ih =>
    rw [solve, if_neg fresh] at failed
    exact .bind (.inr rfl) (ih (eq_error_of_compose failed))
  | case7 c as d bs rest different =>
    rw [solve, if_pos different] at failed
    cases failed
    exact .constructors different
  | case8 c as d bs rest same lengths =>
    rw [solve, if_neg same, if_pos lengths] at failed
    cases failed
    cases Decidable.not_not.1 same
    exact .arity lengths
  | case9 c as d bs rest same lengths ih =>
    rw [solve, if_neg same, if_neg lengths] at failed
    cases Decidable.not_not.1 same
    exact .args (Decidable.not_not.1 lengths) (ih failed)
  | case10 t rest =>
    rw [solve] at failed
    cases failed
    exact .missing (.inl rfl)
  | case11 c as rest =>
    rw [solve] at failed
    cases failed
    exact .missing (.inr rfl)

/-- Complete types meet no obstacle but a mismatch. -/
theorem Obstacle.exists_mismatch {impasse : Impasse} (obstacle : Obstacle equations impasse) (whole : IsComplete equations) :
    ∃ reason, impasse = .mismatch reason := by
  induction obstacle with
  | infinite | constructors | arity => exact ⟨_, rfl⟩
  | missing gone => exact absurd gone whole.not_absent
  | trivial _ ih => exact ih (List.forall_mem_cons.1 whole).2
  | bind sides _ ih => exact ih (whole.bind sides)
  | args _ _ ih => exact ih whole.args

/-- Equations between complete types that meet an obstacle have no solution. -/
theorem Obstacle.not_unifies {impasse : Impasse} (obstacle : Obstacle equations impasse) (whole : IsComplete equations) :
    ¬ Unifies u equations := by
  intro unified
  induction obstacle with
  | infinite sides other inside =>
    -- The occurs check fails for good: no substitution makes a type equal to a proper part of it.
    exact Subst.image_ne_apply_of_occurs u inside other (image_eq_of_unifies sides unified)
  | constructors different =>
    have head := (unifies_cons.1 unified).1
    rw [Subst.apply_app, Subst.apply_app, Ty.app.injEq] at head
    exact different head.1
  | arity lengths =>
    have head := (unifies_cons.1 unified).1
    rw [Subst.apply_app, Subst.apply_app, Ty.app.injEq] at head
    exact lengths (by simpa using congrArg List.length head.2)
  -- Two absent types are not equal, which is why the types have to be complete.
  | missing gone => exact whole.not_absent gone
  | trivial _ ih => exact ih (List.forall_mem_cons.1 whole).2 (unifies_cons.1 unified).2
  | bind sides _ ih =>
    have solved := image_eq_of_unifies sides unified
    exact ih (whole.bind sides) ((unifies_substAll_single solved).2 (unifies_cons.1 unified).2)
  | args lengths _ ih =>
    obtain ⟨head, tail⟩ := unifies_cons.1 unified
    rw [Subst.apply_app, Subst.apply_app, Ty.app.injEq] at head
    exact ih whole.args (unifies_append.2 ⟨(unifies_zip lengths).2 head.2, tail⟩)

/-- Equations between complete types that have a solution are solved. -/
theorem exists_solve_of_unifies (whole : IsComplete equations) (unified : Unifies u equations) :
    ∃ s, solve equations = .ok s := by
  cases outcome : solve equations with
  | ok s => exact ⟨s, rfl⟩
  | error impasse => exact absurd unified ((obstacle_of_solve outcome).not_unifies whole)

end Unify

section
variable {a b : Ty} {s u : Subst}

theorem unifies_pair : Unify.Unifies u [(a, b)] ↔ u.apply a = u.apply b := by
  simp [Unify.Unifies]

theorem isComplete_pair (wholeA : a.isComplete = true) (wholeB : b.isComplete = true) :
    Unify.IsComplete [(a, b)] := by
  intro e mem
  rw [List.mem_singleton] at mem
  exact mem ▸ ⟨wholeA, wholeB⟩

theorem apply_eq_of_unify (found : unify a b = .ok s) : s.apply a = s.apply b :=
  unifies_pair.1 (Unify.solution_of_solve found).unifies

theorem factors_of_unify (found : unify a b = .ok s) (unified : u.apply a = u.apply b) (t : Ty) :
    u.apply (s.apply t) = u.apply t :=
  (Unify.solution_of_solve found).factors (unifies_pair.2 unified) t

theorem idempotent_of_unify (found : unify a b = .ok s) : s.Idempotent :=
  (Unify.solution_of_solve found).idempotent

theorem occurs_of_unify (found : unify a b = .ok s) {v : String} (touched : s.Touches v) :
    a.occurs v = true ∨ b.occurs v = true := by
  obtain ⟨e, mem, inside⟩ := (Unify.solution_of_solve found).mentions_of_touches touched
  rw [List.mem_singleton] at mem
  subst mem
  exact inside

theorem isComplete_of_unify (found : unify a b = .ok s) (wholeA : a.isComplete = true)
    (wholeB : b.isComplete = true) : s.IsComplete :=
  (Unify.solution_of_solve found).isComplete (isComplete_pair wholeA wholeB)

theorem exists_mismatch_of_unify {impasse : Impasse} (failed : unify a b = .error impasse) (wholeA : a.isComplete = true)
    (wholeB : b.isComplete = true) : ∃ reason, impasse = .mismatch reason :=
  (Unify.obstacle_of_solve failed).exists_mismatch (isComplete_pair wholeA wholeB)

theorem exists_unify (wholeA : a.isComplete = true) (wholeB : b.isComplete = true)
    (unified : u.apply a = u.apply b) : ∃ s, unify a b = .ok s :=
  Unify.exists_solve_of_unifies (isComplete_pair wholeA wholeB) (unifies_pair.2 unified)

/-- Types are unified without a binding exactly if they are equal. -/
theorem unify_eq_empty_iff (wholeA : a.isComplete = true) (wholeB : b.isComplete = true) :
    unify a b = .ok ∅ ↔ a = b := by
  constructor
  · intro found
    have unified := apply_eq_of_unify found
    rwa [Subst.apply_empty, Subst.apply_empty] at unified
  · rintro rfl
    obtain ⟨s, found⟩ := exists_unify (u := ∅) wholeA wholeA rfl
    rw [found, (Unify.solution_of_solve found).eq_empty (List.forall_mem_singleton.2 rfl)]

end

/-- Unification of complete types finds a unifier through which every unifier factors, and it fails
only where there is none, with a mismatch. -/
theorem unify_mostGeneral (a b : Ty) (wholeA : a.isComplete = true) (wholeB : b.isComplete = true) :
    (∀ s, unify a b = .ok s →
      (s.apply a).equals (s.apply b) = true ∧
        ∀ u : Subst, u.apply a = u.apply b → ∀ t, u.apply t = u.apply (s.apply t)) ∧
    ∀ impasse, unify a b = .error impasse →
      (∃ reason, impasse = .mismatch reason) ∧ ∀ u : Subst, u.apply a ≠ u.apply b := by
  constructor
  · intro s found
    have whole := (isComplete_of_unify found wholeA wholeB).apply wholeA
    exact ⟨Ty.equals_iff.2 ⟨apply_eq_of_unify found, whole⟩,
      fun u unified t => (factors_of_unify found unified t).symm⟩
  · intro impasse failed
    refine ⟨exists_mismatch_of_unify failed wholeA wholeB, fun u unified => ?_⟩
    obtain ⟨s, found⟩ := exists_unify wholeA wholeB unified
    rw [found] at failed
    cases failed

/-- The second argument fixes what the first one put in for `a`, and the result is the third. -/
theorem unify_mostGeneral_threaded :
    ∃ s, unify (.arrow (.var "a") (.arrow (.var "b") (.var "c")))
        (.arrow (.app "List" [.var "b"]) (.arrow .int (.var "a"))) = .ok s ∧
      s.apply (.var "c") = .app "List" [.int] ∧
      ∀ u : Subst,
        u.apply (.arrow (.var "a") (.arrow (.var "b") (.var "c"))) =
          u.apply (.arrow (.app "List" [.var "b"]) (.arrow .int (.var "a"))) →
        ∀ t, u.apply t = u.apply (s.apply t) := by
  refine ⟨_, by cbv, by decide, ?_⟩
  exact ((unify_mostGeneral _ _ (by decide) (by decide)).1 _ (by cbv)).2

/-- The unifier of complete types binds and mentions variables of these types only, and mentions none that
it binds, so that applying it once is enough. Equal types have a unifier, the empty substitution, and no
other types have this one. -/
theorem unify_relevant (a b : Ty) (wholeA : a.isComplete = true) (wholeB : b.isComplete = true) :
    (∀ s, unify a b = .ok s →
      (∀ v, s.Binds v ∨ s.Mentions v → a.occurs v = true ∨ b.occurs v = true) ∧
      (∀ v, s.Binds v → ¬ s.Mentions v) ∧
      (∀ t, s.apply (s.apply t) = s.apply t) ∧
      (s = ∅ ↔ a.equals b = true)) ∧
    (a.equals b = true → unify a b = .ok ∅) := by
  have equal : unify a b = .ok ∅ ↔ a.equals b = true := by
    rw [unify_eq_empty_iff wholeA wholeB, Ty.equals_iff, and_iff_left wholeA]
  refine ⟨fun s found => ?_, equal.2⟩
  have idempotent := idempotent_of_unify found
  refine ⟨fun v touched => occurs_of_unify found touched, idempotent, idempotent.apply_apply, ?_⟩
  rw [← equal, found, Except.ok.injEq]

/-- The second argument binds a variable that the value put in by the first one mentions, and the third
argument binds the variable that both have come to; the fourth one is equal by then. -/
theorem unify_relevant_chain :
    let first : Ty := .app "F" [.var "a", .var "b", .var "c", .var "a"]
    let second : Ty := .app "F" [.app "List" [.var "b"], .var "c", .int, .app "List" [.int]]
    ∃ s, unify first second = .ok s ∧ s.names = ["a", "b", "c"] ∧ s.image "a" = .app "List" [.int] ∧
      (∀ v, s.Binds v → ¬ s.Mentions v) ∧ (∀ t, s.apply (s.apply t) = s.apply t) ∧
      ¬ first.equals second = true := by
  intro first second
  have computed : ∃ s, unify first second = .ok s ∧ s.names = ["a", "b", "c"] ∧
      s.image "a" = .app "List" [.int] := ⟨_, by cbv, by decide, by decide⟩
  obtain ⟨s, found, names, image⟩ := computed
  obtain ⟨_, idempotent, settled, empty⟩ := (unify_relevant first second (by decide) (by decide)).1 s found
  refine ⟨s, found, names, image, idempotent, settled, fun equal => ?_⟩
  rw [empty.2 equal] at names
  cases names

end HindleyMilner
