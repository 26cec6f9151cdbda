import HindleyMilner.Proofs.Allocation
import HindleyMilner.Proofs.Annotation
import HindleyMilner.Proofs.Weakening

/-! The names that an expression binds.

Expressions that differ in bound names only are inferred alike, wherever their free names are bound
alike. The environments on the way are not the same: a binding that is hidden under one name is still
there under another, and its type variables are not generalized. They would not be generalized anyway,
because what is found for a definition mentions only variables that the definition can reach by its own
free names, and new ones. -/

set_option autoImplicit false

namespace HindleyMilner

open Supply (Old New numbered)

/-- Pairs of names that are bound at the same places of two expressions, the innermost first. -/
abbrev Binders := List (String × String)

namespace Binders

/-- Two names stand for the same place: for the innermost pair with one of them, or for themselves where
no pair has one of them. -/
def Links : Binders → String → String → Prop
  | [], first, second => first = second
  | (a, b) :: outer, first, second => first = a ∧ second = b ∨ first ≠ a ∧ second ≠ b ∧ Links outer first second

instance decidableLinks : (binders : Binders) → (first second : String) → Decidable (binders.Links first second)
  | [], first, second => inferInstanceAs (Decidable (first = second))
  | (_, _) :: outer, first, second =>
    have := decidableLinks outer first second
    inferInstanceAs (Decidable (_ ∧ _ ∨ _ ∧ _ ∧ _))

theorem links_refl {binders : Binders} (same : ∀ pair ∈ binders, pair.1 = pair.2) (name : String) :
    binders.Links name name := by
  induction binders with
  | nil => rfl
  | cons pair outer ih =>
    obtain ⟨here, later⟩ := List.forall_mem_cons.1 same
    by_cases bound : name = pair.1
    · exact .inl ⟨bound, bound.trans here⟩
    · exact .inr ⟨bound, here ▸ bound, ih later⟩

end Binders

namespace Expr

/-- The expressions differ in nothing but the names that they bind, and in their marks. -/
inductive AlphaEq : Binders → Expr → Expr → Prop where
  | lit {binders : Binders} {kind : LiteralKind} {text : String} {mark mark' : Mark} :
      AlphaEq binders (.lit kind text mark) (.lit kind text mark')
  | var {binders : Binders} {x y : String} {mark mark' : Mark} : binders.Links x y →
      AlphaEq binders (.var x mark) (.var y mark')
  | call {binders : Binders} {fn fn' arg arg' : Expr} {mark mark' : Mark} : AlphaEq binders fn fn' →
      AlphaEq binders arg arg' → AlphaEq binders (.call fn arg mark) (.call fn' arg' mark')
  | func {binders : Binders} {x y : String} {body body' : Expr} {mark mark' : Mark} :
      AlphaEq ((x, y) :: binders) body body' → AlphaEq binders (.func x body mark) (.func y body' mark')
  | letIn {binders : Binders} {x y : String} {value value' body body' : Expr} {pos pos' : Position} :
      AlphaEq binders value value' → AlphaEq ((x, y) :: binders) body body' →
      AlphaEq binders (.letIn x value body pos) (.letIn y value' body' pos')

variable {binders : Binders} {expr copy : Expr} {x : String}

theorem AlphaEq.refl (alpha : AlphaEq binders expr copy) {same : Binders} (diagonal : ∀ pair ∈ same, pair.1 = pair.2) :
    AlphaEq same expr expr := by
  induction alpha generalizing same with
  | lit => exact .lit
  | var _ => exact .var (Binders.links_refl diagonal _)
  | call _ _ ihFn ihArg => exact .call (ihFn diagonal) (ihArg diagonal)
  | func _ ih => exact .func (ih (List.forall_mem_cons.2 ⟨rfl, diagonal⟩))
  | letIn _ _ ihValue ihBody =>
    exact .letIn (ihValue diagonal) (ihBody (List.forall_mem_cons.2 ⟨rfl, diagonal⟩))

theorem exists_links_of_cons {a b : String} (other : x ≠ a) (linked : ∃ y, Binders.Links ((a, b) :: binders) x y) :
    ∃ y, binders.Links x y := by
  obtain ⟨y, ⟨same, _⟩ | ⟨_, _, outer⟩⟩ := linked
  · exact absurd same other
  · exact ⟨y, outer⟩

/-- A free name of the first expression stands for the place of some name of the second. -/
theorem AlphaEq.exists_links (alpha : AlphaEq binders expr copy) (mem : x ∈ expr.free) : ∃ y, binders.Links x y := by
  induction alpha with
  | lit => cases mem
  | @var _ _ y _ _ links =>
    obtain rfl := List.mem_singleton.1 mem
    exact ⟨y, links⟩
  | call _ _ ihFn ihArg => exact (List.mem_append.1 mem).elim ihFn ihArg
  | func _ ih =>
    obtain ⟨inBody, other⟩ := List.mem_filter.1 mem
    exact exists_links_of_cons (by simpa using other) (ih inBody)
  | letIn _ _ ihValue ihBody =>
    rcases List.mem_append.1 mem with inValue | inBody
    · exact ihValue inValue
    · obtain ⟨inBody, other⟩ := List.mem_filter.1 inBody
      exact exists_links_of_cons (by simpa using other) (ihBody inBody)

end Expr

namespace Env

variable {binders : Binders} {names fewer : List String} {env other : Env} {s : Subst} {scheme : Scheme} {x y v : String}

/-- Names that stand for the same place, the first of them among the names, are bound alike. -/
def Agree (binders : Binders) (names : List String) (env other : Env) : Prop :=
  ∀ x ∈ names, ∀ y, binders.Links x y → env.find? x = other.find? y

theorem Agree.subset (agree : Agree binders names env other) (within : fewer ⊆ names) : Agree binders fewer env other :=
  fun x mem => agree x (within mem)

theorem Agree.subst (agree : Agree binders names env other) (s : Subst) :
    Agree binders names (env.subst s) (other.subst s) := by
  intro x mem y links
  rw [find?_subst, find?_subst, agree x mem y links]

theorem Agree.extend (agree : Agree binders (names.filter (· ≠ x)) env other) (scheme : Scheme) :
    Agree ((x, y) :: binders) names (env.extend x scheme) (other.extend y scheme) := by
  intro first mem second links
  rw [find?_extend, find?_extend]
  rcases links with ⟨rfl, rfl⟩ | ⟨notFirst, notSecond, outer⟩
  · rw [if_pos rfl, if_pos rfl]
  · rw [if_neg notFirst, if_neg notSecond]
    exact agree first (by simp [mem, notFirst]) second outer

def only (names : List String) (env : Env) : Env :=
  NameMap.ofList (names.filterMap fun name => (env.find? name).map fun scheme => (name, scheme))

theorem find?_only (names : List String) (env : Env) (name : String) :
    NameMap.find? (only names env) name = if name ∈ names then env.find? name else none := by
  have listed (scheme : Scheme) : (name, scheme) ∈ (names.filterMap fun name => (env.find? name).map fun scheme =>
      (name, scheme)) ↔ name ∈ names ∧ env.find? name = some scheme := by simp [List.mem_filterMap]
  unfold only
  split
  · rename_i mem
    cases lookup : env.find? name with
    | none => exact NameMap.find?_ofList_eq_none fun scheme inList => by simpa [lookup] using (listed scheme).1 inList
    | some scheme =>
      refine NameMap.find?_ofList_of_mem ((listed scheme).2 ⟨mem, lookup⟩) fun other inList => ?_
      exact Option.some.inj (((listed other).1 inList).2.symm.trans lookup)
  · rename_i absent
    exact NameMap.find?_ofList_eq_none fun scheme inList => absent ((listed scheme).1 inList).1

theorem find?_of_only {name : String} (lookup : NameMap.find? (only names env) name = some scheme) :
    name ∈ names ∧ env.find? name = some scheme := by
  rw [find?_only] at lookup
  split at lookup
  · rename_i mem
    exact ⟨mem, lookup⟩
  · cases lookup

theorem agree_only (names : List String) (env : Env) : Agree [] names env (only names env) := by
  rintro x mem y rfl
  rw [find?_only, if_pos mem]

def SchemesIn (small env : Env) : Prop := ∀ x scheme, small.find? x = some scheme → ∃ y, env.find? y = some scheme

theorem SchemesIn.free_of_free {small : Env} (inside : small.SchemesIn env) (free : small.Free v) : env.Free v := by
  obtain ⟨x, scheme, lookup, freeV⟩ := free
  obtain ⟨y, found⟩ := inside x scheme lookup
  exact ⟨y, scheme, found, freeV⟩

theorem SchemesIn.subst {small : Env} (inside : small.SchemesIn env) (s : Subst) :
    SchemesIn (small.subst s) (env.subst s) := by
  intro x scheme lookup
  obtain ⟨old, lookupOld, rfl⟩ := find?_subst_some lookup
  obtain ⟨y, found⟩ := inside x old lookupOld
  exact ⟨y, by rw [find?_subst, found]; rfl⟩

theorem SchemesIn.safe {small : Env} {n : Nat} (inside : small.SchemesIn env) (safe : env.Safe n) : small.Safe n where
  complete x scheme lookup := by
    obtain ⟨y, found⟩ := inside x scheme lookup
    exact safe.complete y scheme found
  free v free := safe.free v (inside.free_of_free free)
  bound x scheme lookup freeIn b mem := by
    obtain ⟨y, found⟩ := inside x scheme lookup
    obtain ⟨notFree, old⟩ := safe.bound y scheme found freeIn b mem
    exact ⟨fun free => notFree (inside.free_of_free free), old⟩

theorem schemesIn_only (names : List String) (env : Env) : SchemesIn (only names env) env :=
  fun x _ lookup => ⟨x, (find?_of_only lookup).2⟩

theorem Agree.schemesIn_only (agree : Agree binders names env other) (linked : ∀ x ∈ names, ∃ y, binders.Links x y) :
    SchemesIn (only names env) other := by
  intro x scheme lookup
  obtain ⟨mem, found⟩ := find?_of_only lookup
  obtain ⟨y, links⟩ := linked x mem
  exact ⟨y, (agree x mem y links).symm.trans found⟩

end Env

namespace Infer

section Generalization

variable {small env : Env} {n m : Nat} {found : Typing} {v : String}

/-- A variable of the type that is found in a small environment is free in a larger one exactly if it is
free in the small one: what the answer does not touch was there before, and its own variables are new. -/
theorem Settled.free_subst_iff (settled : Settled small n found m) (safe : env.Safe n) (inside : small.SchemesIn env)
    (occurs : found.type.occurs v = true) :
    Env.Free (env.subst found.subst) v ↔ Env.Free (small.subst found.subst) v := by
  have safeSmall := inside.safe safe
  refine ⟨fun free => ?_, (inside.subst found.subst).free_of_free⟩
  rcases settled.known_after safeSmall occurs with freeSmall | new
  · exact freeSmall
  obtain ⟨w, freeW, inImage⟩ := Env.free_of_free_subst free
  have old := safe.free w freeW
  -- The new variable was put in for `w`, which the run can have met in the small environment only.
  have bound : found.subst.Binds w := by
    by_contra unbound
    rw [Subst.image_of_not_binds unbound, Ty.occurs_var] at inImage
    exact new.not_old (inImage ▸ old)
  have known := settled.touches w (.inl bound)
  have freeSmall : small.Free w := known.resolve_right fun newW => newW.not_old old
  exact (Env.free_subst (settled.noCapture safeSmall)).2 ⟨w, freeSmall, inImage⟩

theorem Settled.generalize_eq (settled : Settled small n found m) (safe : env.Safe n) (inside : small.SchemesIn env) :
    (env.subst found.subst).generalize found.type = (small.subst found.subst).generalize found.type :=
  Env.generalize_congr fun _ occurs => settled.free_subst_iff safe inside occurs

end Generalization

/-- Both runs find the same substitution and the same type, or both stop for a reason of one kind. -/
inductive SameAnswer : Except Stop Typing → Except Stop Typing → Prop where
  | found {s : Subst} {t : Ty} {tree tree' : Expr} : SameAnswer (.ok ⟨s, t, tree⟩) (.ok ⟨s, t, tree'⟩)
  | failed {error error' : Error} {spot spot' : Spot} : error.code = error'.code →
      SameAnswer (.error (.failed error spot)) (.error (.failed error' spot'))
  | fault {reason : Fault} : SameAnswer (.error (.fault reason)) (.error (.fault reason))

/-- From one number on, the two expressions have the same answer and take the same variables. -/
structure Coincide (n : Nat) (events logged : List Event) (env other : Env) (expr copy : Expr) : Prop where
  demands : demand env ⟨.starting n, events⟩ expr = demand other ⟨.starting n, logged⟩ copy
  answer : SameAnswer ((typing env expr).run.run ⟨.starting n, events⟩).1
    ((typing other copy).run.run ⟨.starting n, logged⟩).1

section Steps

variable {n m : Nat} {events logged : List Event} {env other : Env} {expr copy fn fn' arg arg' : Expr} {mark mark' : Mark}

theorem SameAnswer.map {result result' : Except Stop Typing × Progress} {f g : Typing → Typing}
    (same : SameAnswer result.1 result'.1)
    (maps : ∀ s t tree tree', SameAnswer (.ok (f ⟨s, t, tree⟩)) (.ok (g ⟨s, t, tree'⟩))) :
    SameAnswer (andThen result fun found after => (.ok (f found), after)).1
      (andThen result' fun found after => (.ok (g found), after)).1 := by
  obtain ⟨outcome, after⟩ := result
  obtain ⟨outcome', after'⟩ := result'
  cases same with
  | found => exact maps _ _ _ _
  | failed codes => exact .failed codes
  | fault => exact .fault

theorem sameAnswer_apply {function argument : Subst × Ty} {tree tree' treeArg treeArg' : Expr} {supply : Supply} :
    SameAnswer
      (apply fn arg mark ⟨function.1, function.2, tree⟩ ⟨argument.1, argument.2, treeArg⟩ ⟨supply, events⟩).1
      (apply fn' arg' mark' ⟨function.1, function.2, tree'⟩ ⟨argument.1, argument.2, treeArg'⟩ ⟨supply, logged⟩).1 := by
  unfold apply
  dsimp only
  rcases unify (argument.1.apply function.2) (argument.2.arrow (.var supply.fresh.1)) with (reason | reason) | s
  · exact .failed rfl
  · exact .fault
  · exact .found

theorem Fits.function (fits : Fits env n events (.call fn arg mark)) : Fits env n events fn :=
  Nat.lt_of_le_of_lt (Nat.add_le_add_left (demand_fn_le ..) n) fits

theorem Fits.definition {x : String} {value body : Expr} {pos : Position} (fits : Fits env n events (.letIn x value body pos)) :
    Fits env n events value := Nat.lt_of_le_of_lt (Nat.add_le_add_left (demand_value_le ..) n) fits

/-- Two runs that coincide both stop, or both succeed and leave the same number. -/
theorem Coincide.cases (coincide : Coincide n events logged env other expr copy) (fits : Fits env n events expr) :
    (∃ stop stop' after after', (typing env expr).run.run ⟨.starting n, events⟩ = (.error stop, after) ∧
      (typing other copy).run.run ⟨.starting n, logged⟩ = (.error stop', after') ∧
      SameAnswer (.error stop) (.error stop')) ∨
    ∃ s t tree tree' m events' logged',
      (typing env expr).run.run ⟨.starting n, events⟩ = (.ok ⟨s, t, tree⟩, ⟨.starting m, events'⟩) ∧
      (typing other copy).run.run ⟨.starting n, logged⟩ = (.ok ⟨s, t, tree'⟩, ⟨.starting m, logged'⟩) ∧
      m = n + demand env ⟨.starting n, events⟩ expr ∧
      Run env n expr ⟨s, t, tree⟩ m ∧ Run other n copy ⟨s, t, tree'⟩ m := by
  obtain ⟨demands, answer⟩ := coincide
  rcases went : (typing env expr).run.run ⟨.starting n, events⟩ with ⟨outcome, ⟨supply, events'⟩⟩
  rcases wentCopy : (typing other copy).run.run ⟨.starting n, logged⟩ with ⟨outcome', ⟨supply', logged'⟩⟩
  rw [went, wentCopy] at answer
  cases answer with
  | @found s t tree tree' =>
    have fitsCopy : Fits other n logged copy := by
      unfold Fits at fits ⊢
      rwa [← demands]
    obtain ⟨m, run, rfl, total⟩ := run_of_typing fits went
    obtain ⟨m', runCopy, rfl, totalCopy⟩ := run_of_typing fitsCopy wentCopy
    obtain rfl : m = m' := by rw [total, totalCopy, demands]
    exact .inr ⟨s, t, tree, tree', m, events', logged', rfl, rfl, total, run, runCopy⟩
  | failed codes => exact .inl ⟨_, _, _, _, rfl, rfl, .failed codes⟩
  | fault => exact .inl ⟨_, _, _, _, rfl, rfl, .fault⟩

theorem Coincide.call (inFn : Coincide n events logged env other fn fn') (safe : env.Safe n) (safeOther : other.Safe n)
    (fits : Fits env n events (.call fn arg mark))
    (inArg : ∀ s m events' logged', Fits (env.subst s) m events' arg → Env.Safe m (env.subst s) →
      Env.Safe m (other.subst s) → Coincide m events' logged' (env.subst s) (other.subst s) arg arg') :
    Coincide n events logged env other (.call fn arg mark) (.call fn' arg' mark') := by
  rcases inFn.cases fits.function with ⟨_, _, _, _, went, wentCopy, stops⟩ |
    ⟨s, t, tree, tree', m, events', logged', went, wentCopy, total, run, runCopy⟩
  · refine ⟨by simp only [demand, went, wentCopy, inFn.demands], ?_⟩
    rwa [run_call, run_call, went, wentCopy]
  have fitsArg : Fits (env.subst s) m events' arg := by
    have countArg : demand env _ fn + demand (env.subst s) ⟨.starting m, events'⟩ arg ≤ _ := demand_arg_le arg mark went
    unfold Fits at fits ⊢
    omega
  have safeArg := (run.settled safe).safe safe
  have safeCopy := (runCopy.settled safeOther).safe safeOther
  have coincide := inArg s m events' logged' fitsArg safeArg safeCopy
  rcases coincide.cases fitsArg with ⟨_, _, _, _, wentArg, wentArgCopy, stops⟩ |
    ⟨s', t', treeArg, treeArg', k, _, _, wentArg, wentArgCopy, _⟩
  · refine ⟨by simp only [demand, went, wentCopy, inFn.demands, wentArg, wentArgCopy, coincide.demands], ?_⟩
    rwa [run_call, run_call, went, wentCopy, andThen_ok, andThen_ok, wentArg, wentArgCopy]
  · refine ⟨by simp only [demand, went, wentCopy, inFn.demands, wentArg, wentArgCopy, coincide.demands], ?_⟩
    rw [run_call, run_call, went, wentCopy, andThen_ok, andThen_ok, wentArg, wentArgCopy]
    exact @sameAnswer_apply _ _ fn fn' arg arg' mark mark' (s, t) (s', t') tree tree' treeArg treeArg' _

theorem Coincide.letIn {x y : String} {value value' body body' : Expr} {pos pos' : Position}
    (inValue : Coincide n events logged env other value value') (safe : env.Safe n) (safeOther : other.Safe n)
    (fits : Fits env n events (.letIn x value body pos))
    (general : ∀ s t tree m, Run env n value ⟨s, t, tree⟩ m →
      (env.subst s).generalize t = (other.subst s).generalize t)
    (inBody : ∀ s scheme m events' logged', Fits (Env.extend (env.subst s) x scheme) m events' body →
      Env.Safe m (Env.extend (env.subst s) x scheme) → Env.Safe m (Env.extend (other.subst s) y scheme) →
      Coincide m events' logged' (Env.extend (env.subst s) x scheme) (Env.extend (other.subst s) y scheme) body body') :
    Coincide n events logged env other (.letIn x value body pos) (.letIn y value' body' pos') := by
  rcases inValue.cases fits.definition with ⟨_, _, _, _, went, wentCopy, stops⟩ |
    ⟨s, t, tree, tree', m, events', logged', went, wentCopy, total, run, runCopy⟩
  · refine ⟨by simp only [demand, went, wentCopy, inValue.demands], ?_⟩
    rwa [run_letIn, run_letIn, went, wentCopy]
  have same := general s t tree m run
  have count := demand_letIn x body pos went
  have safeBody := (run.settled safe).safe_bodyEnv safe x
  have safeCopy := (runCopy.settled safeOther).safe_bodyEnv safeOther y
  unfold bodyEnv at count safeBody safeCopy
  dsimp only at count safeBody safeCopy
  rw [← same] at safeCopy
  have coincide := inBody s _ m (.generalized x ((env.subst s).generalize t) :: events')
    (.generalized y ((env.subst s).generalize t) :: logged') (by unfold Fits at fits ⊢; omega) safeBody safeCopy
  constructor
  · rw [count, demand_letIn y body' pos' wentCopy, inValue.demands, coincide.demands]
    unfold bodyEnv
    rw [same]
  · rw [run_letIn, run_letIn, went, wentCopy, andThen_ok, andThen_ok]
    unfold bodyEnv
    dsimp only
    rw [← same]
    exact coincide.answer.map fun _ _ _ _ => .found

/-- If a definition has the same answer where only its own free names are bound, then what is found for it
is generalized alike wherever these bindings are among others. -/
theorem Coincide.generalize_eq {value : Expr} {small : Env}
    (alone : Coincide n events events env small value value) (fits : Fits env n events value)
    (safe : env.Safe n) (safeOther : other.Safe n) (inside : small.SchemesIn env) (insideOther : small.SchemesIn other)
    {s : Subst} {t : Ty} {tree : Expr} (run : Run env n value ⟨s, t, tree⟩ m) :
    (env.subst s).generalize t = (other.subst s).generalize t := by
  obtain ⟨_, went, total⟩ := typing_of_run run fits
  rcases alone.cases fits with ⟨_, _, _, _, wentAgain, _⟩ | ⟨_, _, _, _, _, _, _, wentAgain, _, again, _, runAlone⟩
  · cases went.symm.trans wentAgain
  · obtain rfl := total.trans again.symm
    cases congrArg Prod.fst (went.symm.trans wentAgain)
    have settled := runAlone.settled (inside.safe safe)
    exact (settled.generalize_eq safe inside).trans (settled.generalize_eq safeOther insideOther).symm

end Steps

/-- Expressions that differ in bound names only coincide where their free names are bound alike. -/
theorem coincide_of_alphaEq {expr copy : Expr} {binders : Binders} {env other : Env} {n : Nat} {events logged : List Event}
    (alpha : expr.AlphaEq binders copy) (agree : Env.Agree binders expr.free env other) (safe : env.Safe n)
    (safeOther : other.Safe n) (fits : Fits env n events expr) : Coincide n events logged env other expr copy := by
  induction expr generalizing copy binders env other n events logged with
  | absent => cases alpha
  | lit kind text mark =>
    cases alpha with
    | lit =>
      refine ⟨rfl, ?_⟩
      rw [typing, typing]
      cases kind.type with
      | error fault => exact .fault
      | ok t => exact .found
  | var x mark =>
    cases alpha with
    | @var _ _ y _ _ links =>
      have same := agree x (List.mem_singleton_self x) y links
      constructor
      · rw [demand, demand, same]
      · rw [run_var, run_var, same]
        cases other.find? y with
        | none => exact .failed rfl
        | some scheme => exact .found
  | func x body mark ih =>
    cases alpha with
    | @func _ _ y _ copyBody _ _ alphaBody =>
      unfold Fits at fits
      have below : n < Supply.limit := by omega
      have count := demand_func below env events x body mark
      have agreeBody : Env.Agree ((x, y) :: binders) body.free (env.declare x (.var (numbered n)))
          (other.declare y (.var (numbered n))) := agree.extend _
      have inBody : Coincide (n + 1) events logged _ _ body copyBody :=
        ih alphaBody agreeBody (safe.declare x) (safeOther.declare y) (by unfold Fits; omega)
      constructor
      · rw [count, demand_func below, inBody.demands]
      · rw [run_func, run_func, Supply.fresh_starting n below]
        exact inBody.answer.map fun _ _ _ _ => .found
  | call fn arg mark ihFn ihArg =>
    cases alpha with
    | call alphaFn alphaArg =>
      have agreeFn := agree.subset (List.subset_append_left fn.free arg.free)
      have agreeArg := agree.subset (List.subset_append_right fn.free arg.free)
      exact (ihFn alphaFn agreeFn safe safeOther fits.function).call safe safeOther fits
        fun s m events' logged' fitsArg safeArg safeCopy => ihArg alphaArg (agreeArg.subst s) safeArg safeCopy fitsArg
  | letIn x value body pos ihValue ihBody =>
    cases alpha with
    | letIn alphaValue alphaBody =>
      have agreeValue := agree.subset (List.subset_append_left value.free _)
      have agreeBody := agree.subset (List.subset_append_right value.free (body.free.filter (· ≠ x)))
      -- The definition is compared with itself where nothing is bound but its own free names.
      have inside := Env.schemesIn_only value.free env
      have insideOther : Env.SchemesIn (env.only value.free) other :=
        agreeValue.schemesIn_only fun _ mem => alphaValue.exists_links mem
      have alone : Coincide n events events env (env.only value.free) value value :=
        ihValue (alphaValue.refl (List.forall_mem_nil _)) (Env.agree_only _ _) safe (inside.safe safe) fits.definition
      exact (ihValue alphaValue agreeValue safe safeOther fits.definition).letIn safe safeOther fits
        (fun _ _ _ _ run => alone.generalize_eq fits.definition safe safeOther inside insideOther run)
        fun s scheme m events' logged' fitsBody safeBody safeCopy =>
          ihBody alphaBody ((agreeBody.subst s).extend scheme) safeBody safeCopy fitsBody

end Infer

namespace Session

/-- Inference depends on the names that an expression binds only through what they bind. If a copy has other
bound names, and the free names are bound alike in two closed environments, then from the same number on
both expressions have the same type and the same substitution, or errors of the same kind, and the same
variables are taken. -/
theorem infer_alphaEq (session another : Session) (env other : Env) (expr copy : Expr) (n : Nat)
    (start : session.supply = .starting n) (startAnother : another.supply = .starting n)
    (whole : env.IsComplete) (closed : env.IsClosed) (wholeOther : other.IsComplete) (closedOther : other.IsClosed)
    (proper : expr.isProper = true) (fits : Infer.Fits env n [] expr) (alpha : expr.AlphaEq [] copy)
    (same : ∀ x ∈ expr.free, env.find? x = other.find? x) :
    ((∃ error error', (session.infer env expr).outcome = .error (.failed error) ∧
        (another.infer other copy).outcome = .error (.failed error') ∧ error.code = error'.code) ∨
      ∃ found found', (session.infer env expr).outcome = .ok found ∧ (another.infer other copy).outcome = .ok found' ∧
        found.subst = found'.subst ∧ found.type = found'.type) ∧
    (session.infer env expr).session.supply = (another.infer other copy).session.supply := by
  have given : expr ≠ .absent := by
    rintro rfl
    cases alpha
  have givenCopy : copy ≠ .absent := by
    rintro rfl
    cases alpha
  have agree : Env.Agree [] expr.free env other := by
    rintro x mem y rfl
    exact same x mem
  have coincide : Infer.Coincide n [] [] env other expr copy := Infer.coincide_of_alphaEq alpha agree
    (Env.safe_of_isClosed whole closed n) (Env.safe_of_isClosed wholeOther closedOther n) fits
  constructor
  · rw [outcome_infer given, outcome_infer givenCopy, start, startAnother]
    rcases went : (Infer.typing env expr).run.run ⟨.starting n, []⟩ with ⟨outcome, after⟩
    have answer := coincide.answer
    rw [went] at answer
    generalize ((Infer.typing other copy).run.run ⟨.starting n, []⟩).1 = outcome' at answer
    cases answer with
    | found => exact .inr ⟨_, _, rfl, rfl, rfl, rfl⟩
    | failed codes => exact .inl ⟨_, _, rfl, rfl, codes⟩
    | fault =>
      obtain ⟨_, _, impossible⟩ := Infer.failed_of_isProper whole.within_any rfl proper went
      cases impossible
  · rw [supply_infer given, supply_infer givenCopy, start, startAnother, Infer.supply_run expr env rfl,
      Infer.supply_run copy other rfl, coincide.demands]

/-- The inner parameter hides the outer one in the first expression and not in the second, so the
definition is generalized beside one more type variable there. The second environment binds one more name. -/
theorem infer_alphaEq_hidden :
    let env : Env := Env.declare ∅ "y" .int
    let other : Env := env.extend "a" ⟨["b"], .var "b"⟩
    let expr : Expr := .func "x" (.func "x" (.letIn "f" (.var "x" {}) (.call (.var "f" {}) (.var "y" {}) {}) {}) {}) {}
    let copy : Expr := .func "a" (.func "b" (.letIn "a" (.var "b" {}) (.call (.var "a" {}) (.var "y" {}) {}) {}) {}) {}
    (∃ found found', (infer {} env expr).outcome = .ok found ∧ (infer {} other copy).outcome = .ok found' ∧
      found.subst = found'.subst ∧ found.type = found'.type) ∧
    (infer {} env expr).session.supply = (infer {} other copy).session.supply := by
  intro env other expr copy
  have alpha : expr.AlphaEq [] copy := by
    refine .func (.func (.letIn (.var ?_) (.call (.var ?_) (.var ?_)))) <;> decide
  have whole : env.IsComplete := Env.IsComplete.extend (fun name scheme lookup => nomatch lookup) rfl
  have closed : env.IsClosed := by
    intro v free
    rcases Env.free_declare free with inInt | ⟨name, scheme, lookup, _⟩
    · exact Bool.false_ne_true inInt
    · cases lookup
  have closedOther : other.IsClosed := by
    intro v free
    rcases Env.free_of_free_extend free with ⟨inside, outside⟩ | inEnv
    · exact outside (List.mem_singleton.2 (Ty.occurs_var.1 inside))
    · exact closed v inEnv
  have fits : Infer.Fits env 0 [] expr := by
    unfold Infer.Fits
    cbv
  have succeeds : (infer {} env expr).outcome.toOption.isSome = true := by cbv
  obtain ⟨⟨_, _, failed, _⟩ | found, supplies⟩ := infer_alphaEq {} {} env other expr copy 0 rfl rfl whole closed
    (whole.extend rfl) closedOther rfl fits alpha (by decide)
  · rw [failed] at succeeds
    cases succeeds
  · exact ⟨found, supplies⟩

end Session

end HindleyMilner
