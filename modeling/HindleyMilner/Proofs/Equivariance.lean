import HindleyMilner.Proofs.FreeVariables
import HindleyMilner.Proofs.Renaming
import HindleyMilner.Proofs.Run

/-! Inference does not look at the names of type variables.

A permutation of the names acts on types, substitutions, schemes and environments, and every
operation on them commutes with it. The only names that inference makes itself are those of the
supply. So if two supplies give out names that correspond, the runs from them correspond, whether
they succeed or not. -/

set_option autoImplicit false

namespace HindleyMilner

namespace Ty

variable {π : Equiv.Perm String} {t : Ty} {v : String}

theorem rename_eq_var : t.rename π = .var (π v) ↔ t = .var v := by
  cases t <;> simp

theorem occurs_rename (t : Ty) (v : String) : (t.rename π).occurs (π v) = t.occurs v := by
  induction t using argsInduction with
  | absent => simp [occurs]
  | var name => simp [occurs]
  | app con args ih =>
    rw [rename_app, occurs_app, occurs_app, List.any_map, Bool.eq_iff_iff]
    simp only [List.any_eq_true, Function.comp_apply]
    exact exists_congr fun arg => and_congr_right fun mem => by rw [ih arg mem]

theorem collect_rename (bound : List String) (t : Ty) (found : List String) :
    (t.rename π).collect (bound.map π) (found.map π) = (t.collect bound found).map π := by
  induction t using argsInduction generalizing found with
  | absent => simp [collect]
  | var name =>
    simp only [rename_var, collect, List.mem_map_of_injective π.injective]
    split <;> simp
  | app con args ih =>
    rw [rename_app, collect, collect, collectAll_eq_foldl, collectAll_eq_foldl]
    induction args generalizing found with
    | nil => rfl
    | cons arg rest ihRest =>
      rw [List.map_cons, List.foldl_cons, List.foldl_cons, ih arg List.mem_cons_self]
      exact ihRest (fun u mem => ih u (List.mem_cons_of_mem _ mem)) _

theorem vars_rename (t : Ty) : (t.rename π).vars = t.vars.map π := collect_rename [] t []

end Ty

namespace Subst

variable {π : Equiv.Perm String} {s r next : Subst} {t : Ty} {v : String}

def rename (π : Equiv.Perm String) (s : Subst) : Subst :=
  NameMap.ofList (s.entries.map fun entry => (π entry.1, entry.2.rename π))

theorem find?_rename (s : Subst) (v : String) :
    (s.rename π).find? (π v) = (s.find? v).map (Ty.rename π) := by
  have listed {u : Ty} : (π v, u) ∈ s.entries.map (fun entry => (π entry.1, entry.2.rename π)) ↔
      ∃ t, s.find? v = some t ∧ t.rename π = u := by
    simp [NameMap.mem_entries]
  unfold rename
  cases found : s.find? v with
  | none =>
    refine NameMap.find?_ofList_eq_none fun u mem => ?_
    obtain ⟨t, lookup, _⟩ := listed.1 mem
    rw [found] at lookup
    cases lookup
  | some t =>
    refine NameMap.find?_ofList_of_mem (listed.2 ⟨t, found, rfl⟩) fun u mem => ?_
    obtain ⟨other, lookup, same⟩ := listed.1 mem
    rw [found] at lookup
    cases lookup
    exact same.symm

theorem ext_perm (π : Equiv.Perm String) (same : ∀ v, s.find? (π v) = r.find? (π v)) : s = r := by
  refine NameMap.ext_find? fun name => ?_
  obtain ⟨v, rfl⟩ := π.surjective name
  exact same v

@[simp] theorem rename_empty : rename π ∅ = ∅ := rfl

theorem image_rename (s : Subst) (v : String) : (s.rename π).image (π v) = (s.image v).rename π := by
  unfold image
  rw [find?_rename]
  cases s.find? v <;> simp

theorem apply_rename (s : Subst) (t : Ty) : (s.rename π).apply (t.rename π) = (s.apply t).rename π := by
  induction t using Ty.argsInduction with
  | absent => simp
  | var name => simp [image_rename]
  | app con args ih => simpa using ih

theorem compose_rename (s next : Subst) :
    (s.rename π).compose (next.rename π) = (s.compose next).rename π := by
  refine ext_perm π fun v => ?_
  rw [find?_rename, find?_compose, find?_compose, find?_rename, find?_rename]
  cases s.find? v <;> simp [apply_rename]

theorem insert_rename (s : Subst) (v : String) (t : Ty) :
    rename π (s.insert v t) = (s.rename π).insert (π v) (t.rename π) := by
  refine ext_perm π fun w => ?_
  simp only [find?_rename, NameMap.find?_insert, π.apply_eq_iff_eq]
  split <;> rfl

theorem single_rename (v : String) (t : Ty) :
    rename π (NameMap.single v t) = NameMap.single (π v) (t.rename π) := insert_rename ∅ v t

theorem without_rename (s : Subst) (names : List String) :
    (s.rename π).without (names.map π) = (s.without names).rename π := by
  refine ext_perm π fun v => ?_
  simp only [find?_rename, find?_without, List.mem_map_of_injective π.injective]
  split <;> rfl

end Subst

def Mismatch.rename (π : Equiv.Perm String) : Mismatch → Mismatch
  | .constructors first second => .constructors first second
  | .arity first second => .arity (first.rename π) (second.rename π)
  | .infinite name type => .infinite (π name) (type.rename π)

def Impasse.rename (π : Equiv.Perm String) : Impasse → Impasse
  | .mismatch reason => .mismatch (reason.rename π)
  | .fault reason => .fault reason

namespace Unify

variable {π : Equiv.Perm String}

def renameOutcome (π : Equiv.Perm String) : Except Impasse Subst → Except Impasse Subst
  | .ok s => .ok (s.rename π)
  | .error reason => .error (reason.rename π)

def renameAll (π : Equiv.Perm String) (equations : List Equation) : List Equation :=
  equations.map fun (a, b) => (a.rename π, b.rename π)

theorem renameAll_cons (a b : Ty) (rest : List Equation) :
    renameAll π ((a, b) :: rest) = (a.rename π, b.rename π) :: renameAll π rest := rfl

theorem renameAll_zip (as bs : List Ty) (rest : List Equation) :
    renameAll π (as.zip bs ++ rest) = (as.map (Ty.rename π)).zip (bs.map (Ty.rename π)) ++ renameAll π rest := by
  simp [renameAll, List.zip_map, Prod.map_def]

theorem substAll_rename (s : Subst) (equations : List Equation) :
    substAll (s.rename π) (renameAll π equations) = renameAll π (substAll s equations) := by
  simp [substAll, renameAll, Subst.apply_rename]

theorem renameOutcome_bind {v : String} {t : Ty} {outcome : Except Impasse Subst} :
    (do let s ← renameOutcome π outcome; return Subst.compose (NameMap.single (π v) (t.rename π)) s) =
      renameOutcome π (do let s ← outcome; return Subst.compose (NameMap.single v t) s) := by
  cases outcome with
  | error reason => rfl
  | ok s =>
    rw [← Subst.single_rename]
    exact congrArg Except.ok (Subst.compose_rename _ s)

theorem solve_rename (equations : List Equation) :
    solve (renameAll π equations) = renameOutcome π (solve equations) := by
  -- A permutation keeps different names apart, so each test of the solver goes the same way.
  induction equations using solve.induct with
  | case1 => simp [renameAll, solve, renameOutcome]
  | case2 name rest ih =>
    rw [solve, if_pos rfl, ← ih, renameAll_cons, Ty.rename_var, solve, if_pos rfl]
  | case3 name t rest other inside =>
    have otherAfter : ¬ t.rename π = .var (π name) := mt Ty.rename_eq_var.1 other
    rw [solve, if_neg other, if_pos inside, renameAll_cons, Ty.rename_var, solve, if_neg otherAfter,
      Ty.occurs_rename, if_pos inside]
    rfl
  | case4 name t rest other fresh ih =>
    have otherAfter : ¬ t.rename π = .var (π name) := mt Ty.rename_eq_var.1 other
    rw [← substAll_rename, Subst.single_rename] at ih
    rw [solve, if_neg other, if_neg fresh, renameAll_cons, Ty.rename_var, solve, if_neg otherAfter,
      Ty.occurs_rename, if_neg fresh, ← renameOutcome_bind, ← ih]
  | case5 c as name rest inside =>
    rw [solve, if_pos inside, renameAll_cons, Ty.rename_var, Ty.rename_app, solve, ← Ty.rename_app,
      Ty.occurs_rename, if_pos inside]
    rfl
  | case6 c as name rest fresh ih =>
    rw [← substAll_rename, Subst.single_rename] at ih
    rw [solve, if_neg fresh, renameAll_cons, Ty.rename_var, Ty.rename_app, solve, ← Ty.rename_app,
      Ty.occurs_rename, if_neg fresh, ← renameOutcome_bind, ← ih]
  | case7 c as d bs rest different =>
    rw [solve, if_pos different, renameAll_cons, Ty.rename_app, Ty.rename_app, solve, if_pos different]
    rfl
  | case8 c as d bs rest same lengths =>
    rw [solve, if_neg same, if_pos lengths, renameAll_cons, Ty.rename_app, Ty.rename_app, solve,
      if_neg same, List.length_map, List.length_map, if_pos lengths, ← Ty.rename_app, ← Ty.rename_app]
    rfl
  | case9 c as d bs rest same lengths ih =>
    rw [solve, if_neg same, if_neg lengths, ← ih, renameAll_zip, renameAll_cons, Ty.rename_app,
      Ty.rename_app, solve, if_neg same, List.length_map, List.length_map, if_neg lengths]
  | case10 t rest =>
    rw [solve, renameAll_cons, Ty.rename_absent, solve]
    rfl
  | case11 c as rest =>
    rw [solve, renameAll_cons, Ty.rename_absent, Ty.rename_app, solve]
    rfl

end Unify

theorem unify_rename {π : Equiv.Perm String} (a b : Ty) :
    unify (a.rename π) (b.rename π) = Unify.renameOutcome π (unify a b) := Unify.solve_rename [(a, b)]

namespace Scheme

variable {π : Equiv.Perm String}

/-- Quantified names are renamed along with the free ones. -/
def rename (π : Equiv.Perm String) (scheme : Scheme) : Scheme :=
  ⟨scheme.bound.map π, scheme.type.rename π⟩

theorem subst_rename (s : Subst) (scheme : Scheme) :
    (scheme.rename π).subst (s.rename π) = (scheme.subst s).rename π := by
  unfold subst rename
  rw [Subst.without_rename, Subst.apply_rename]

theorem free_rename {scheme : Scheme} {v : String} : (scheme.rename π).Free (π v) ↔ scheme.Free v := by
  unfold Free rename
  rw [Ty.occurs_rename, List.mem_map_of_injective π.injective]

end Scheme

namespace Env

variable {π : Equiv.Perm String} {env : Env} {v : String}

def rename (π : Equiv.Perm String) (env : Env) : Env := env.map (Scheme.rename π)

theorem find?_rename (env : Env) (name : String) :
    NameMap.find? (env.rename π) name = (env.find? name).map (Scheme.rename π) := NameMap.find?_map _ _ _

theorem extend_rename (env : Env) (name : String) (scheme : Scheme) :
    (env.extend name scheme).rename π = (env.rename π).extend name (scheme.rename π) := by
  refine NameMap.ext_find? fun query => ?_
  rw [find?_rename, find?_extend, find?_extend, find?_rename]
  split <;> rfl

theorem declare_rename (env : Env) (name : String) (t : Ty) :
    (env.declare name t).rename π = (env.rename π).declare name (t.rename π) := extend_rename env name (.mono t)

theorem subst_rename (s : Subst) (env : Env) : (env.rename π).subst (s.rename π) = (env.subst s).rename π := by
  refine NameMap.ext_find? fun name => ?_
  rw [find?_subst, find?_rename, find?_rename, find?_subst]
  cases env.find? name <;> simp [Scheme.subst_rename]

theorem free_rename : Free (env.rename π) (π v) ↔ env.Free v := by
  refine exists_congr fun name => ?_
  rw [find?_rename]
  cases env.find? name <;> simp [Scheme.free_rename]

theorem generalize_rename (env : Env) (t : Ty) :
    (env.rename π).generalize (t.rename π) = (env.generalize t).rename π := by
  unfold generalize Scheme.generalize Scheme.rename
  rw [Ty.vars_rename, List.filter_map]
  congr 2
  refine List.filter_congr fun v _ => congrArg not ?_
  rw [Bool.eq_iff_iff, contains_freeVars, contains_freeVars, free_rename]

end Env

namespace Supply

variable {π : Equiv.Perm String} {count : Nat} {first second : Supply}

def Follows (π : Equiv.Perm String) : Nat → Int64 → Int64 → Prop
  | 0, _, _ => True
  | count + 1, first, second => nameOf second = π (nameOf first) ∧ Follows π count (first + 1) (second + 1)

/-- The next so many variables correspond, and neither supply is in the middle of an instantiation. -/
structure InStep (π : Equiv.Perm String) (count : Nat) (first second : Supply) : Prop where
  follows : Follows π count first.next second.next
  idle : first.chosen = ∅
  idleSecond : second.chosen = ∅

theorem Follows.of_add {more : Nat} {a b : Int64} (follows : Follows π (more + count) a b) : Follows π count a b := by
  induction count generalizing a b with
  | zero => trivial
  | succ count ih => exact ⟨follows.1, ih follows.2⟩

theorem InStep.mono {more : Nat} (inStep : InStep π more first second) (le : count ≤ more) :
    InStep π count first second := by
  obtain ⟨extra, rfl⟩ := Nat.exists_eq_add_of_le' le
  exact ⟨inStep.follows.of_add, inStep.idle, inStep.idleSecond⟩

theorem InStep.fresh (inStep : InStep π (1 + count) first second) :
    second.fresh.1 = π first.fresh.1 ∧ InStep π count first.fresh.2 second.fresh.2 := by
  rw [Nat.add_comm] at inStep
  exact ⟨inStep.follows.1, inStep.follows.2, inStep.idle, inStep.idleSecond⟩

theorem choose_rename (bound : List String) (follows : Follows π (bound.length + count) first.next second.next)
    (chosen : second.chosen = first.chosen.rename π) :
    (choose (bound.map π) second).chosen = (choose bound first).chosen.rename π ∧
      Follows π count (choose bound first).next (choose (bound.map π) second).next := by
  induction bound generalizing first second with
  | nil =>
    rw [List.length_nil, Nat.zero_add] at follows
    exact ⟨chosen, follows⟩
  | cons name rest ih =>
    rw [List.length_cons, Nat.succ_add] at follows
    refine ih follows.2 ?_
    dsimp only [Supply.fresh]
    rw [Subst.insert_rename, Ty.rename_var, follows.1, chosen]

theorem instantiate_rename (scheme : Scheme) (inStep : InStep π (scheme.bound.length + count) first second) :
    (instantiate (scheme.rename π) second).1 = (instantiate scheme first).1.rename π ∧
      InStep π count (instantiate scheme first).2 (instantiate (scheme.rename π) second).2 := by
  have monoRename : (scheme.rename π).isMono = scheme.isMono := List.isEmpty_map
  unfold instantiate
  rw [monoRename]
  split
  · exact ⟨rfl, inStep.mono (Nat.le_add_left _ _)⟩
  · have chosen : second.chosen = first.chosen.rename π := by rw [inStep.idle, inStep.idleSecond, Subst.rename_empty]
    obtain ⟨sameChosen, follows⟩ := choose_rename scheme.bound inStep.follows chosen
    refine ⟨?_, follows, rfl, rfl⟩
    dsimp only [Scheme.rename]
    rw [sameChosen, Subst.apply_rename]

end Supply

def Error.rename (π : Equiv.Perm String) : Error → Error
  | .mismatch reason => .mismatch (reason.rename π)
  | .within context cause => .within context (cause.rename π)
  | error => error

/-- The types that were assigned before are kept. -/
def Spot.rename (π : Equiv.Perm String) : Spot → Spot
  | .var name mark => .var name mark
  | .call fn arg mark fnTyped argTyped =>
    .call fn arg mark (fnTyped.mapTypes (Ty.rename π)) (argTyped.mapTypes (Ty.rename π))

def Stop.rename (π : Equiv.Perm String) : Stop → Stop
  | .failed error spot => .failed (error.rename π) (spot.rename π)
  | .fault reason => .fault reason

def Typing.rename (π : Equiv.Perm String) (found : Typing) : Typing :=
  ⟨found.subst.rename π, found.type.rename π, found.tree.mapTypes (Ty.rename π)⟩

namespace Infer

open Supply (InStep)

variable {π : Equiv.Perm String} {count more : Nat}

def renameOutcome (π : Equiv.Perm String) : Except Stop Typing → Except Stop Typing
  | .ok found => .ok (found.rename π)
  | .error stop => .error (stop.rename π)

/-- The second run did what the first one did, with other names, and can go on to do so. -/
structure Corresponds (π : Equiv.Perm String) (count : Nat) (first second : Except Stop Typing × Progress) :
    Prop where
  outcome : second.1 = renameOutcome π first.1
  inStep : InStep π count first.2.supply second.2.supply

theorem Corresponds.andThen {first second : Except Stop Typing × Progress}
    {next nextSecond : Typing → Progress → Except Stop Typing × Progress}
    (parts : Corresponds π more first second) (le : count ≤ more)
    (step : ∀ found after afterSecond, first = (.ok found, after) →
      InStep π more after.supply afterSecond.supply →
      Corresponds π count (next found after) (nextSecond (found.rename π) afterSecond)) :
    Corresponds π count (Infer.andThen first next) (Infer.andThen second nextSecond) := by
  obtain ⟨outcome, after⟩ := first
  obtain ⟨outcomeSecond, afterSecond⟩ := second
  obtain ⟨same, inStep⟩ := parts
  dsimp only at same inStep
  subst same
  cases outcome with
  -- After a failure nothing more is taken from the supply.
  | error stop => exact ⟨rfl, inStep.mono le⟩
  | ok found => exact step found after afterSecond rfl inStep

theorem apply_rename (fn arg : Expr) (mark : Mark) (function argument : Typing) {first second : Progress}
    (inStep : InStep π (1 + count) first.supply second.supply) :
    Corresponds π count (apply fn arg mark function argument first)
      (apply fn arg mark (function.rename π) (argument.rename π) second) := by
  obtain ⟨name, inStepAfter⟩ := inStep.fresh
  have actual : (argument.rename π).subst.apply (function.rename π).type =
      (argument.subst.apply function.type).rename π := Subst.apply_rename _ _
  have needed : Ty.arrow (argument.rename π).type (.var second.supply.fresh.1) =
      (Ty.arrow argument.type (.var first.supply.fresh.1)).rename π := by
    rw [name, Ty.rename_arrow, Ty.rename_var]
    rfl
  unfold apply
  dsimp only
  rw [actual, needed, unify_rename]
  cases unify (argument.subst.apply function.type) (.arrow argument.type (.var first.supply.fresh.1)) with
  | error impasse => cases impasse <;> exact ⟨rfl, inStepAfter⟩
  | ok s =>
    refine ⟨?_, inStepAfter⟩
    have type : (s.rename π).apply (.var second.supply.fresh.1) =
        (s.apply (.var first.supply.fresh.1)).rename π := by
      rw [name, ← Ty.rename_var, Subst.apply_rename]
    dsimp only [Unify.renameOutcome, renameOutcome, Typing.rename, Expr.mapTypes]
    rw [type, Subst.compose_rename, Subst.compose_rename]

theorem bodyEnv_rename (env : Env) (name : String) (definition : Typing) :
    bodyEnv (env.rename π) name (definition.rename π) = (bodyEnv env name definition).rename π := by
  unfold bodyEnv Typing.rename
  dsimp only
  rw [Env.subst_rename, Env.generalize_rename, Env.extend_rename]

/-- Runs whose fresh variables correspond give corresponding outcomes. -/
theorem run_rename (expr : Expr) (env : Env) {first second : Progress}
    (inStep : InStep π (demand env first expr + count) first.supply second.supply) :
    Corresponds π count ((typing env expr).run.run first) ((typing (env.rename π) expr).run.run second) := by
  -- What a part leaves of the names in step is what the parts after it need, and `count` at the end.
  induction expr generalizing env first second count with
  | absent => exact ⟨rfl, inStep.mono (Nat.le_add_left _ _)⟩
  | lit kind text mark =>
    refine ⟨?_, ?_⟩
    · cases kind <;> rfl
    · cases kind <;> exact inStep.mono (Nat.le_add_left _ _)
  | var name mark =>
    rw [run_var, run_var, Env.find?_rename]
    unfold demand at inStep
    cases lookup : env.find? name with
    | none =>
      rw [lookup] at inStep
      exact ⟨rfl, inStep.mono (Nat.le_add_left _ _)⟩
    | some scheme =>
      rw [lookup] at inStep
      obtain ⟨type, after⟩ := Supply.instantiate_rename scheme inStep
      refine ⟨?_, after⟩
      dsimp only [Option.map_some]
      rw [type]
      rfl
  | func param body mark ih =>
    rw [run_func, run_func]
    unfold demand at inStep
    rw [Nat.add_assoc] at inStep
    obtain ⟨name, inStepBody⟩ := inStep.fresh
    dsimp only
    rw [name, ← Ty.rename_var, ← Env.declare_rename]
    refine (ih (env.declare param (.var first.supply.fresh.1)) inStepBody).andThen (Nat.le_refl _)
      fun found after afterSecond _ inStepAfter => ⟨?_, inStepAfter⟩
    have type : (found.rename π).subst.apply
          (.arrow (Ty.rename π (.var first.supply.fresh.1)) (found.rename π).type) =
        (found.subst.apply (.arrow (.var first.supply.fresh.1) found.type)).rename π := by
      rw [← Subst.apply_rename, Ty.rename_arrow]
      rfl
    rw [type]
    rfl
  | call fn arg mark ihFn ihArg =>
    rw [run_call, run_call]
    unfold demand at inStep
    rw [Nat.add_assoc] at inStep
    refine (ihFn env inStep).andThen (Nat.le_add_left _ _) fun function after afterSecond wentFn inStepArg => ?_
    simp only [wentFn] at inStepArg
    rw [Nat.add_assoc] at inStepArg
    dsimp only [Typing.rename]
    rw [Env.subst_rename]
    refine (ihArg _ inStepArg).andThen (Nat.le_add_left _ _) fun argument last lastSecond wentArg inStepLast => ?_
    simp only [wentArg] at inStepLast
    exact apply_rename fn arg mark function argument inStepLast
  | letIn name value body pos ihValue ihBody =>
    rw [run_letIn, run_letIn]
    unfold demand at inStep
    rw [Nat.add_assoc] at inStep
    refine (ihValue env inStep).andThen (Nat.le_add_left _ _)
      fun definition after afterSecond wentValue inStepBody => ?_
    simp only [wentValue] at inStepBody
    dsimp only
    rw [bodyEnv_rename]
    refine Corresponds.andThen (ihBody _ ?_) (Nat.le_refl count) fun found last lastSecond _ inStepLast => ?_
    · exact inStepBody
    · refine ⟨?_, inStepLast⟩
      dsimp only [Typing.rename, renameOutcome, Expr.mapTypes]
      rw [Subst.compose_rename]

/-- What is done after a part that succeeds takes the same number of variables in both runs. -/
theorem Corresponds.demand_eq {first second : Except Stop Typing × Progress} {next nextSecond : Typing → Progress → Nat}
    (parts : Corresponds π more first second)
    (step : ∀ found after afterSecond, first = (.ok found, after) →
      InStep π more after.supply afterSecond.supply → nextSecond (found.rename π) afterSecond = next found after) :
    (match second with | (.error _, _) => 0 | (.ok found, after) => nextSecond found after) =
      match first with | (.error _, _) => 0 | (.ok found, after) => next found after := by
  obtain ⟨outcome, after⟩ := first
  obtain ⟨outcomeSecond, afterSecond⟩ := second
  obtain ⟨same, inStep⟩ := parts
  dsimp only at same inStep
  subst same
  cases outcome with
  | error stop => rfl
  | ok found => exact step found after afterSecond rfl inStep

/-- Runs whose fresh variables correspond take the same number of them. -/
theorem demand_rename (expr : Expr) (env : Env) {first second : Progress}
    (inStep : InStep π (demand env first expr + count) first.supply second.supply) :
    demand (env.rename π) second expr = demand env first expr := by
  induction expr generalizing env first second count with
  | absent => rfl
  | lit kind text mark => rfl
  | var name mark =>
    unfold demand
    rw [Env.find?_rename]
    cases env.find? name with
    | none => rfl
    | some scheme => exact List.length_map _
  | func param body mark ih =>
    unfold demand at inStep ⊢
    rw [Nat.add_assoc] at inStep
    obtain ⟨name, inStepBody⟩ := inStep.fresh
    dsimp only
    rw [name, ← Ty.rename_var, ← Env.declare_rename, ih _ inStepBody]
  | call fn arg mark ihFn ihArg =>
    unfold demand at inStep ⊢
    rw [Nat.add_assoc] at inStep
    rw [ihFn env inStep]
    refine congrArg _ ((run_rename fn env inStep).demand_eq fun function after afterSecond wentFn inStepArg => ?_)
    simp only [wentFn] at inStepArg
    rw [Nat.add_assoc] at inStepArg
    dsimp only [Typing.rename]
    rw [Env.subst_rename, ihArg _ inStepArg]
    exact congrArg _ ((run_rename arg _ inStepArg).demand_eq fun _ _ _ _ _ => rfl)
  | letIn name value body pos ihValue ihBody =>
    unfold demand at inStep ⊢
    rw [Nat.add_assoc] at inStep
    rw [ihValue env inStep]
    refine congrArg _ ((run_rename value env inStep).demand_eq
      fun definition after afterSecond wentValue inStepBody => ?_)
    simp only [wentValue] at inStepBody
    dsimp only
    rw [bodyEnv_rename]
    exact ihBody _ inStepBody

end Infer

end HindleyMilner
