import HindleyMilner.Error
import HindleyMilner.Proofs.Declarative
import HindleyMilner.Proofs.Equivariance
import HindleyMilner.Proofs.Unification

/-! Unification from the other side.

Only an equation between two variables is worked off differently if its sides are exchanged: the other
variable is bound. What is left then differs by the exchange of these two names. So the two ways of
unifying two types go on in step, up to a permutation of the names, and end alike. -/

set_option autoImplicit false

namespace HindleyMilner

namespace Subst

variable {s other : Subst} {π : Equiv.Perm String} {names : List String} {v : String}

/-- Each variable becomes a variable, and each is what one variable becomes. -/
def IsRenaming (r : Subst) : Prop := ∃ π : Equiv.Perm String, ∀ v, r.image v = .var (π v)

def ofPerm (π : Equiv.Perm String) (names : List String) : Subst := patch (names.map fun v => (v, .var (π v))) ∅

theorem image_ofPerm (moved : ∀ v, π v ≠ v → v ∈ names) (v : String) : (ofPerm π names).image v = .var (π v) := by
  unfold ofPerm
  rw [image_patch_map names (fun v => .var (π v))]
  split
  · rfl
  · rename_i outside
    rw [image_empty, not_imp_comm.1 (moved v) outside]

theorem apply_eq_rename_of_images (images : ∀ v, other.image v = (s.image v).rename π) (t : Ty) :
    other.apply t = (s.apply t).rename π := by
  induction t using Ty.argsInduction with
  | absent => simp
  | var name => simpa using images name
  | app con args ih => simpa using ih

/-- Either of two variables may be bound to the other, up to the exchange of their names. -/
theorem apply_single_swap (x y : String) (t : Ty) :
    apply (NameMap.single y (.var x)) t = (apply (NameMap.single x (.var y)) t).rename (Equiv.swap x y) := by
  refine apply_eq_rename_of_images (fun v => ?_) t
  rw [Unify.image_single, Unify.image_single]
  by_cases isX : v = x
  · simp [isX]
  · by_cases isY : v = y
    · simp [isY]
    · simp [isX, isY, Equiv.swap_apply_of_ne_of_ne]

end Subst

/-- The mismatch as it is met from the other side. -/
def Mismatch.flip : Mismatch → Mismatch
  | .constructors first second => .constructors second first
  | .arity first second => .arity second first
  | .infinite name t => .infinite name t

theorem Ty.rename_one (t : Ty) : t.rename (1 : Equiv.Perm String) = t := rename_eq_self fun _ _ => rfl

theorem Ty.rename_mul (τ π : Equiv.Perm String) (t : Ty) : t.rename (τ * π) = (t.rename π).rename τ :=
  (rename_rename π τ t).symm

theorem Mismatch.rename_one (reason : Mismatch) : reason.rename 1 = reason := by
  cases reason <;> simp only [rename, Ty.rename_one, Equiv.Perm.one_apply]

theorem Mismatch.rename_mul (τ π : Equiv.Perm String) (reason : Mismatch) :
    reason.rename (τ * π) = (reason.rename π).rename τ := by
  cases reason <;> simp only [rename, Ty.rename_mul, Equiv.Perm.mul_apply]

namespace Unify

variable {π : Equiv.Perm String} {outcome other : Except Impasse Subst} {equations rest : List Equation}
  {name : String} {t : Ty}

def flipAll (equations : List Equation) : List Equation := equations.map Prod.swap

theorem flipAll_cons (a b : Ty) (rest : List Equation) : flipAll ((a, b) :: rest) = (b, a) :: flipAll rest := rfl

theorem flipAll_zip (as bs : List Ty) (rest : List Equation) :
    flipAll (as.zip bs ++ rest) = bs.zip as ++ flipAll rest := by
  rw [flipAll, List.map_append, List.zip_swap]
  rfl

theorem flipAll_substAll (s : Subst) (equations : List Equation) :
    flipAll (substAll s equations) = substAll s (flipAll equations) := by
  simp [flipAll, substAll]

/-- The second outcome is the first one as it is met from the other side, with other names for the
variables. -/
inductive Mirrors (π : Equiv.Perm String) : Except Impasse Subst → Except Impasse Subst → Prop where
  | solved {s other : Subst} : (∀ v, other.image v = (s.image v).rename π) → Mirrors π (.ok s) (.ok other)
  | failed (reason : Mismatch) : Mirrors π (.error (.mismatch reason)) (.error (.mismatch (reason.flip.rename π)))

theorem mirrors_refused (reason : Mismatch) : Mirrors 1 (.error (.mismatch reason)) (.error (.mismatch reason.flip)) := by
  have mirrors := Mirrors.failed (π := 1) reason
  rwa [Mismatch.rename_one] at mirrors

/-- Binding the same variable to the same type keeps two outcomes in step. -/
theorem Mirrors.bind_same (mirrors : Mirrors π outcome other) :
    Mirrors π (do let s ← outcome; return Subst.compose (NameMap.single name t) s)
      (do let s ← other; return Subst.compose (NameMap.single name t) s) := by
  cases mirrors with
  | failed reason => exact .failed reason
  | solved images =>
    refine .solved fun v => ?_
    rw [Subst.image_compose, Subst.image_compose]
    exact Subst.apply_eq_rename_of_images images _

/-- Binding two variables to each other, but each way once, keeps two outcomes in step up to the exchange
of the two names. -/
theorem Mirrors.bind_swap {x y : String} (mirrors : Mirrors π outcome other) :
    Mirrors (Equiv.swap x y * π) (do let s ← outcome; return Subst.compose (NameMap.single x (.var y)) s)
      (do let s ← renameOutcome (Equiv.swap x y) other; return Subst.compose (NameMap.single y (.var x)) s) := by
  cases mirrors with
  | failed reason =>
    have failed := Mirrors.failed (π := Equiv.swap x y * π) reason
    rw [Mismatch.rename_mul] at failed
    exact failed
  | @solved s flipped images =>
    refine .solved fun v => ?_
    have exchanged := Subst.apply_single_swap x y (.var v)
    rw [Subst.apply_var, Subst.apply_var] at exchanged
    rw [Subst.image_compose, Subst.image_compose, exchanged, Subst.apply_rename,
      Subst.apply_eq_rename_of_images images, Ty.rename_mul]

theorem substAll_swap (x y : String) (equations : List Equation) :
    substAll (NameMap.single y (.var x)) equations =
      renameAll (Equiv.swap x y) (substAll (NameMap.single x (.var y)) equations) := by
  simp only [substAll, renameAll, List.map_map]
  exact List.map_congr_left fun e _ => Prod.ext (Subst.apply_single_swap x y e.1) (Subst.apply_single_swap x y e.2)

/-- A permutation of the names in the equations keeps the outcome in step with the one for the equations
with their sides exchanged. -/
def InStep (π : Equiv.Perm String) (equations : List Equation) : Prop :=
  (∀ v, π v ≠ v → Mentions equations v) ∧ Mirrors π (solve equations) (solve (flipAll equations))

theorem inStep_refused (reason : Mismatch) (failed : solve equations = .error (.mismatch reason))
    (failedFlipped : solve (flipAll equations) = .error (.mismatch reason.flip)) : InStep 1 equations := by
  refine ⟨fun v moved => absurd rfl moved, ?_⟩
  rw [failed, failedFlipped]
  exact mirrors_refused reason

theorem InStep.bind_type {con : String} {as : List Ty} (fresh : ¬ (Ty.app con as).occurs name = true)
    (inStep : InStep π (substAll (NameMap.single name (.app con as)) rest)) :
    InStep π ((.var name, .app con as) :: rest) ∧ InStep π ((.app con as, .var name) :: rest) := by
  obtain ⟨moved, mirrors⟩ := inStep
  rw [flipAll_substAll] at mirrors
  constructor
  · refine ⟨fun v other => mentions_of_bound (Bool.eq_false_iff.2 fresh) (.inl rfl) (moved v other), ?_⟩
    rw [flipAll_cons, solve, if_neg Ty.noConfusion, if_neg fresh, solve, if_neg fresh]
    exact mirrors.bind_same
  · refine ⟨fun v other => mentions_of_bound (Bool.eq_false_iff.2 fresh) (.inr rfl) (moved v other), ?_⟩
    rw [flipAll_cons, solve, if_neg Ty.noConfusion, if_neg fresh, solve, if_neg fresh]
    exact mirrors.bind_same

theorem InStep.bind_var {x y : String} (other : Ty.var y ≠ .var x)
    (inStep : InStep π (substAll (NameMap.single x (.var y)) rest)) :
    InStep (Equiv.swap x y * π) ((.var x, .var y) :: rest) := by
  obtain ⟨moved, mirrors⟩ := inStep
  have fresh : ¬ (Ty.var y).occurs x = true := fun inside => other (congrArg Ty.var (Ty.occurs_var.1 inside).symm)
  have freshFlipped : ¬ (Ty.var x).occurs y = true := fun inside => other (congrArg Ty.var (Ty.occurs_var.1 inside))
  refine ⟨fun v movedV => ?_, ?_⟩
  · by_cases fixed : π v = v
    · rw [Equiv.Perm.mul_apply, fixed] at movedV
      refine ⟨_, List.mem_cons_self, ?_⟩
      rw [Ty.occurs_var, Ty.occurs_var]
      exact (Equiv.swap_apply_ne_self_iff.1 movedV).2
    · exact mentions_of_bound (Bool.eq_false_iff.2 fresh) (.inl rfl) (moved v fixed)
  · -- From the other side `y` is bound to `x`, and what is left is the same with the two names exchanged.
    have exchanged : solve (substAll (NameMap.single y (.var x)) (flipAll rest)) =
        renameOutcome (Equiv.swap x y) (solve (flipAll (substAll (NameMap.single x (.var y)) rest))) := by
      rw [substAll_swap, ← flipAll_substAll, solve_rename]
    rw [flipAll_cons, solve, if_neg other, if_neg fresh, solve, if_neg other.symm, if_neg freshFlipped, exchanged]
    exact mirrors.bind_swap

/-- Equations with their sides exchanged are solved in step, up to a permutation of the names in them. -/
theorem exists_inStep (whole : IsComplete equations) : ∃ π, InStep π equations := by
  -- The permutation is found on the way: each pair of two variables adds the exchange of their names to it.
  induction equations using solve.induct with
  | case1 =>
    refine ⟨1, fun v moved => absurd rfl moved, ?_⟩
    rw [flipAll, List.map_nil, solve]
    exact .solved fun v => (Ty.rename_one _).symm
  | case2 name rest ih =>
    obtain ⟨π, moved, mirrors⟩ := ih (List.forall_mem_cons.1 whole).2
    refine ⟨π, fun v other => (moved v other).cons _, ?_⟩
    rwa [flipAll_cons, solve, if_pos rfl, solve, if_pos rfl]
  | case3 name t rest other inside =>
    cases t with
    | absent => exact absurd (List.forall_mem_cons.1 whole).1.2 Ty.not_isComplete_absent
    | var w => exact absurd (congrArg Ty.var (Ty.occurs_var.1 inside).symm) other
    | app con args =>
      refine ⟨1, inStep_refused (.infinite name (.app con args)) ?_ ?_⟩
      · rw [solve, if_neg other, if_pos inside]
      · rw [flipAll_cons, solve, if_pos inside]
        rfl
  | case4 name t rest other fresh ih =>
    obtain ⟨wholeFirst, wholeRest⟩ := List.forall_mem_cons.1 whole
    obtain ⟨π, inStep⟩ := ih (IsComplete.substAll wholeRest (isComplete_single wholeFirst.2))
    cases t with
    | absent => exact absurd wholeFirst.2 Ty.not_isComplete_absent
    | var w => exact ⟨_, inStep.bind_var other⟩
    | app con args => exact ⟨π, (inStep.bind_type fresh).1⟩
  | case5 c as name rest inside =>
    refine ⟨1, inStep_refused (.infinite name (.app c as)) ?_ ?_⟩
    · rw [solve, if_pos inside]
    · rw [flipAll_cons, solve, if_neg Ty.noConfusion, if_pos inside]
      rfl
  | case6 c as name rest fresh ih =>
    obtain ⟨wholeFirst, wholeRest⟩ := List.forall_mem_cons.1 whole
    obtain ⟨π, inStep⟩ := ih (IsComplete.substAll wholeRest (isComplete_single wholeFirst.1))
    exact ⟨π, (inStep.bind_type fresh).2⟩
  | case7 c as d bs rest different =>
    refine ⟨1, inStep_refused (.constructors c d) ?_ ?_⟩
    · rw [solve, if_pos different]
    · rw [flipAll_cons, solve, if_pos (Ne.symm different)]
      rfl
  | case8 c as d bs rest same lengths =>
    refine ⟨1, inStep_refused (.arity (.app c as) (.app d bs)) ?_ ?_⟩
    · rw [solve, if_neg same, if_pos lengths]
    · rw [flipAll_cons, solve, if_neg (mt Ne.symm same), if_pos (Ne.symm lengths)]
      rfl
  | case9 c as d bs rest same lengths ih =>
    obtain ⟨π, moved, mirrors⟩ := ih whole.args
    refine ⟨π, fun v other => mentions_zip (moved v other), ?_⟩
    rw [flipAll_zip] at mirrors
    rwa [flipAll_cons, solve, if_neg same, if_neg lengths, solve, if_neg (mt Ne.symm same),
      if_neg (mt Ne.symm lengths)]
  | case10 t rest => exact absurd (List.forall_mem_cons.1 whole).1.1 Ty.not_isComplete_absent
  | case11 c as rest => exact absurd (List.forall_mem_cons.1 whole).1.2 Ty.not_isComplete_absent

end Unify

/-- What either substitution makes of a type, the other one makes of it too, but for the names of variables. -/
structure Subst.Variants (s other : Subst) : Prop where
  forth : ∃ r : Subst, r.IsRenaming ∧ ∀ t, (s.compose r).apply t = other.apply t
  back : ∃ r : Subst, r.IsRenaming ∧ ∀ t, (other.compose r).apply t = s.apply t
  alphaEquals : ∀ t : Ty, t.isComplete = true → (s.apply t).alphaEquals (other.apply t) = true

section
variable {a b : Ty} {s : Subst} {impasse : Impasse}

theorem exists_mirrors_unify (wholeA : a.isComplete = true) (wholeB : b.isComplete = true) :
    ∃ π : Equiv.Perm String, (∀ v, π v ≠ v → v ∈ a.vars ++ b.vars) ∧ Unify.Mirrors π (unify a b) (unify b a) := by
  obtain ⟨π, moved, mirrors⟩ := Unify.exists_inStep (isComplete_pair wholeA wholeB)
  refine ⟨π, fun v other => ?_, mirrors⟩
  obtain ⟨e, mem, inside⟩ := moved v other
  rw [List.mem_singleton] at mem
  subst mem
  rwa [List.mem_append, Ty.mem_vars, Ty.mem_vars]

theorem exists_unify_flip (wholeA : a.isComplete = true) (wholeB : b.isComplete = true) (found : unify a b = .ok s) :
    ∃ other, unify b a = .ok other ∧ ∃ r : Subst, r.IsRenaming ∧ ∀ t, (s.compose r).apply t = other.apply t := by
  obtain ⟨π, listed, mirrors⟩ := exists_mirrors_unify wholeA wholeB
  rw [found] at mirrors
  cases flipped : unify b a with
  | error reason =>
    rw [flipped] at mirrors
    cases mirrors
  | ok other =>
    rw [flipped] at mirrors
    cases mirrors with
    | solved images =>
      have image := Subst.image_ofPerm listed
      refine ⟨other, rfl, Subst.ofPerm π (a.vars ++ b.vars), ⟨π, image⟩, fun t => ?_⟩
      rw [Subst.apply_compose, Subst.apply_eq_rename_of_images images, Ty.apply_eq_rename fun v _ => image v]

theorem exists_unify_flip_of_error (wholeA : a.isComplete = true) (wholeB : b.isComplete = true)
    (failed : unify a b = .error impasse) : ∃ (reason : Mismatch) (π : Equiv.Perm String),
      impasse = .mismatch reason ∧ unify b a = .error (.mismatch (reason.flip.rename π)) := by
  obtain ⟨π, _, mirrors⟩ := exists_mirrors_unify wholeA wholeB
  rw [failed] at mirrors
  cases flipped : unify b a with
  | ok other =>
    rw [flipped] at mirrors
    cases mirrors
  | error other =>
    rw [flipped] at mirrors
    cases mirrors
    exact ⟨_, π, rfl, rfl⟩

theorem Subst.IsRenaming.alphaEquals {r : Subst} {t : Ty} (renames : r.IsRenaming) (whole : t.isComplete = true) :
    t.alphaEquals (r.apply t) = true := by
  obtain ⟨π, image⟩ := renames
  rw [Ty.apply_eq_rename fun v _ => image v]
  exact Ty.alphaEquals_rename whole fun v w _ _ same => π.injective same

end

/-- Types unify from one side exactly if they unify from the other. The two unifiers differ in the names of
variables only, and if there is none, the mismatch is of the same kind; where constructors differ it has the
same two, the other way round. -/
theorem unify_flip (a b : Ty) (wholeA : a.isComplete = true) (wholeB : b.isComplete = true) :
    (∀ s, unify a b = .ok s → ∃ other, unify b a = .ok other ∧ s.Variants other) ∧
    ∀ impasse, unify a b = .error impasse → ∃ reason other, impasse = .mismatch reason ∧
      unify b a = .error (.mismatch other) ∧ (Error.mismatch other).code = (Error.mismatch reason).code ∧
      ∀ first second, reason = .constructors first second → other = .constructors second first := by
  constructor
  · intro s found
    obtain ⟨other, flipped, r, renames, forth⟩ := exists_unify_flip wholeA wholeB found
    obtain ⟨again, found', q, renamesBack, back⟩ := exists_unify_flip wholeB wholeA flipped
    obtain rfl : s = again := Except.ok.inj (found.symm.trans found')
    refine ⟨other, flipped, ⟨r, renames, forth⟩, ⟨q, renamesBack, back⟩, fun t whole => ?_⟩
    rw [← forth, Subst.apply_compose]
    exact renames.alphaEquals ((isComplete_of_unify found wholeA wholeB).apply whole)
  · intro impasse failed
    obtain ⟨reason, π, rfl, flipped⟩ := exists_unify_flip_of_error wholeA wholeB failed
    refine ⟨reason, _, rfl, flipped, by cases reason <;> rfl, ?_⟩
    rintro first second rfl
    rfl

/-- The first arguments are bound either way, and with them what is put in for `c`. A third argument on which the
types differ is met with the same names for constructors, the other way round. -/
theorem unify_flip_exchanged :
    let first (last : Ty) : Ty := .app "F" [.var "a", .app "List" [.var "a"], last]
    let second (last : Ty) : Ty := .app "F" [.var "b", .var "c", last]
    (∃ s other, unify (first .int) (second .int) = .ok s ∧ unify (second .int) (first .int) = .ok other ∧
      s.image "c" = .app "List" [.var "b"] ∧ other.image "c" = .app "List" [.var "a"] ∧ s.Variants other) ∧
    unify (first .int) (second .bool) = .error (.mismatch (.constructors "Int" "Bool")) ∧
    unify (second .bool) (first .int) = .error (.mismatch (.constructors "Bool" "Int")) := by
  intro first second
  have solved : ∃ s, unify (first .int) (second .int) = .ok s ∧ s.image "c" = .app "List" [.var "b"] :=
    ⟨_, by cbv, by decide⟩
  have solvedBack : ∃ other, unify (second .int) (first .int) = .ok other ∧ other.image "c" = .app "List" [.var "a"] :=
    ⟨_, by cbv, by decide⟩
  have refused : unify (first .int) (second .bool) = .error (.mismatch (.constructors "Int" "Bool")) := by cbv
  obtain ⟨s, found, image⟩ := solved
  obtain ⟨other, flipped, imageBack⟩ := solvedBack
  obtain ⟨again, flipped', variants⟩ := (unify_flip (first .int) (second .int) (by decide) (by decide)).1 s found
  obtain rfl : other = again := Except.ok.inj (flipped.symm.trans flipped')
  obtain ⟨_, reason, ⟨⟩, refusedBack, _, constructors⟩ :=
    (unify_flip (first .int) (second .bool) (by decide) (by decide)).2 _ refused
  rw [constructors _ _ rfl] at refusedBack
  exact ⟨⟨s, other, found, flipped, image, imageBack, variants⟩, refused, refusedBack⟩

end HindleyMilner
