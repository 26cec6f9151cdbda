import HindleyMilner.Proofs.Allocation
import HindleyMilner.Proofs.Unification

/-! Types within a signature.

A signature says which names may stand for variables and which constructors may have how many
arguments. Substitution and unification put types together from types, so they keep to a signature,
and inference keeps to the signature of its environment as long as the variables that it takes belong
to the signature. -/

set_option autoImplicit false

namespace HindleyMilner

structure Signature where
  /-- The name may stand for a variable. -/
  var : String → Prop
  /-- The constructor may have so many arguments. -/
  app : String → Nat → Prop

namespace Signature

def any : Signature := ⟨fun _ => True, fun _ _ => True⟩

/-- The types that inference makes itself are within the signature. -/
structure Basic (sig : Signature) : Prop where
  arrow : sig.app Ty.arrowName 2
  int : sig.app "Int" 0
  bool : sig.app "Bool" 0

theorem basic_any : any.Basic := ⟨trivial, trivial, trivial⟩

end Signature

variable {sig : Signature}

namespace Ty

mutual
/-- All names and constructors of the type belong to the signature, and no part is absent. -/
def Within (sig : Signature) : Ty → Prop
  | .absent => False
  | .var name => sig.var name
  | .app con args => sig.app con args.length ∧ WithinAll sig args

def WithinAll (sig : Signature) : List Ty → Prop
  | [] => True
  | t :: rest => Within sig t ∧ WithinAll sig rest
end

mutual
def decideWithin (sig : Signature) [DecidablePred sig.var] [∀ con count, Decidable (sig.app con count)] :
    (t : Ty) → Decidable (t.Within sig)
  | .absent => inferInstanceAs (Decidable False)
  | .var name => inferInstanceAs (Decidable (sig.var name))
  | .app con args =>
    have := decideWithinAll sig args
    inferInstanceAs (Decidable (sig.app con args.length ∧ WithinAll sig args))

def decideWithinAll (sig : Signature) [DecidablePred sig.var] [∀ con count, Decidable (sig.app con count)] :
    (ts : List Ty) → Decidable (WithinAll sig ts)
  | [] => inferInstanceAs (Decidable True)
  | t :: rest =>
    have := decideWithin sig t
    have := decideWithinAll sig rest
    inferInstanceAs (Decidable (t.Within sig ∧ WithinAll sig rest))
end

instance (sig : Signature) [DecidablePred sig.var] [∀ con count, Decidable (sig.app con count)] :
    DecidablePred (Within sig) := decideWithin sig

variable {name con : String} {args : List Ty} {t : Ty}

theorem withinAll_iff : WithinAll sig args ↔ ∀ t ∈ args, t.Within sig := by
  induction args with
  | nil => simp [WithinAll]
  | cons t rest ih => rw [WithinAll, ih, List.forall_mem_cons]

@[simp] theorem not_within_absent : ¬ Ty.absent.Within sig := by
  rw [Within]
  exact id

@[simp] theorem within_var : (Ty.var name).Within sig ↔ sig.var name := by rw [Within]

@[simp] theorem within_app : (Ty.app con args).Within sig ↔ sig.app con args.length ∧ ∀ t ∈ args, t.Within sig := by
  rw [Within, withinAll_iff]

theorem Within.arrow (basic : sig.Basic) {domain codomain : Ty} (withinDomain : domain.Within sig)
    (withinCodomain : codomain.Within sig) : (Ty.arrow domain codomain).Within sig := by
  rw [Ty.arrow, within_app]
  exact ⟨basic.arrow, by simp [withinDomain, withinCodomain]⟩

theorem Within.isComplete (within : t.Within sig) : t.isComplete = true := by
  induction t using argsInduction with
  | absent => exact absurd within not_within_absent
  | var name => exact isComplete_var name
  | app con args ih => exact isComplete_app.2 fun arg mem => ih arg mem ((within_app.1 within).2 arg mem)

theorem Within.var_of_occurs {v : String} (within : t.Within sig) (inside : t.occurs v = true) : sig.var v := by
  induction t using argsInduction with
  | absent => exact absurd within not_within_absent
  | var name =>
    obtain rfl : v = name := by simpa using inside
    exact within_var.1 within
  | app con args ih =>
    obtain ⟨arg, mem, inArg⟩ := occurs_app_iff.1 inside
    exact ih arg mem ((within_app.1 within).2 arg mem) inArg

theorem within_any (whole : t.isComplete = true) : t.Within .any := by
  induction t using argsInduction with
  | absent => exact absurd whole not_isComplete_absent
  | var name => exact within_var.2 trivial
  | app con args ih => exact within_app.2 ⟨trivial, fun arg mem => ih arg mem (isComplete_app.1 whole arg mem)⟩

end Ty

theorem LiteralKind.within_type (basic : sig.Basic) {kind : LiteralKind} {t : Ty} (base : kind.type = .ok t) : t.Within sig := by
  cases kind with
  | int =>
    cases base
    exact Ty.within_app.2 ⟨basic.int, by simp⟩
  | bool =>
    cases base
    exact Ty.within_app.2 ⟨basic.bool, by simp⟩
  | unknown code => cases base

namespace Subst

variable {s next : Subst} {t : Ty} {v : String}

def Within (sig : Signature) (s : Subst) : Prop := ∀ v t, s.find? v = some t → t.Within sig

theorem within_iff_values : s.Within sig ↔ ∀ t ∈ s.entries.map Prod.snd, t.Within sig := by
  simp only [Within, List.forall_mem_map, Prod.forall, NameMap.mem_entries]

theorem within_empty : Within sig ∅ := nofun

theorem Within.insert (within : s.Within sig) (withinType : t.Within sig) : Within sig (s.insert v t) := by
  intro w u found
  rw [NameMap.find?_insert] at found
  split at found
  · cases found
    exact withinType
  · exact within w u found

theorem Within.apply (within : s.Within sig) (withinType : t.Within sig) : (s.apply t).Within sig := by
  induction t using Ty.argsInduction with
  | absent => exact absurd withinType Ty.not_within_absent
  | var name =>
    rw [apply_var]
    by_cases bound : s.Binds name
    · obtain ⟨u, found⟩ := bound
      rw [image_of_find found]
      exact within name u found
    · rwa [image_of_not_binds bound]
  | app con args ih =>
    obtain ⟨applied, withinArgs⟩ := Ty.within_app.1 withinType
    rw [apply_app, Ty.within_app, List.length_map, List.forall_mem_map]
    exact ⟨applied, fun arg mem => ih arg mem (withinArgs arg mem)⟩

theorem Within.compose (within : s.Within sig) (withinNext : next.Within sig) : (s.compose next).Within sig := by
  intro v t found
  rw [find?_compose] at found
  cases first : s.find? v with
  | none =>
    rw [first] at found
    exact withinNext v t (by simpa using found)
  | some value =>
    rw [first] at found
    have same : next.apply value = t := by simpa using found
    exact same ▸ withinNext.apply (within v value first)

theorem Within.without (within : s.Within sig) (names : List String) : (s.without names).Within sig := by
  intro v t found
  rw [find?_without] at found
  split at found
  · cases found
  · exact within v t found

end Subst

namespace Unify

def Within (sig : Signature) (equations : List Equation) : Prop := ∀ e ∈ equations, e.1.Within sig ∧ e.2.Within sig

theorem within_cons {a b : Ty} {rest : List Equation} :
    Within sig ((a, b) :: rest) ↔ (a.Within sig ∧ b.Within sig) ∧ Within sig rest := List.forall_mem_cons

theorem within_single (name : String) {t : Ty} (within : t.Within sig) : Subst.Within sig (NameMap.single name t) :=
  Subst.within_empty.insert within

theorem Within.substAll {equations : List Equation} {s : Subst} (within : Within sig equations) (withinSubst : s.Within sig) :
    Within sig (substAll s equations) := by
  unfold Within Unify.substAll
  rw [List.forall_mem_map]
  exact fun e mem => ⟨withinSubst.apply (within e mem).1, withinSubst.apply (within e mem).2⟩

theorem Within.args {c d : String} {as bs : List Ty} {rest : List Equation}
    (within : Within sig ((.app c as, .app d bs) :: rest)) : Within sig (as.zip bs ++ rest) := by
  obtain ⟨⟨withinAs, withinBs⟩, withinRest⟩ := within_cons.1 within
  refine List.forall_mem_append.2 ⟨fun e mem => ?_, withinRest⟩
  obtain ⟨inLeft, inRight⟩ := List.of_mem_zip mem
  exact ⟨(Ty.within_app.1 withinAs).2 e.1 inLeft, (Ty.within_app.1 withinBs).2 e.2 inRight⟩

theorem Within.value {name : String} {t : Ty} {first : Equation} {rest : List Equation}
    (within : Within sig (first :: rest)) (sides : first = (.var name, t) ∨ first = (t, .var name)) : t.Within sig := by
  obtain ⟨withinFirst, withinSecond⟩ := (List.forall_mem_cons.1 within).1
  rcases sides with rfl | rfl
  · exact withinSecond
  · exact withinFirst

theorem Within.bind {name : String} {t : Ty} {first : Equation} {rest : List Equation}
    (within : Within sig (first :: rest)) (sides : first = (.var name, t) ∨ first = (t, .var name)) :
    Within sig (Unify.substAll (NameMap.single name t) rest) :=
  Within.substAll (List.forall_mem_cons.1 within).2 (within_single name (within.value sides))

theorem Solution.within {equations : List Equation} {s : Subst} (solution : Solution equations s)
    (within : Within sig equations) : s.Within sig := by
  induction solution with
  | nil => exact Subst.within_empty
  | trivial _ ih => exact ih (within_cons.1 within).2
  | @bind name t first rest s sides fresh _ ih =>
    exact (within_single name (within.value sides)).compose (ih (within.bind sides))
  | args _ _ ih => exact ih within.args

end Unify

theorem within_of_unify {a b : Ty} {s : Subst} (found : unify a b = .ok s) (withinA : a.Within sig) (withinB : b.Within sig) :
    s.Within sig :=
  (Unify.solution_of_solve found).within fun e mem => by
    obtain rfl := List.mem_singleton.1 mem
    exact ⟨withinA, withinB⟩

namespace Env

variable {env : Env} {name : String} {scheme : Scheme} {s : Subst}

def Within (sig : Signature) (env : Env) : Prop :=
  ∀ name scheme, env.find? name = some scheme → scheme.type.Within sig

theorem Within.extend (within : env.Within sig) (withinScheme : scheme.type.Within sig) : Within sig (env.extend name scheme) := by
  intro query found lookup
  rw [find?_extend] at lookup
  split at lookup
  · cases lookup
    exact withinScheme
  · exact within query found lookup

theorem Within.subst (within : env.Within sig) (withinSubst : s.Within sig) : Within sig (env.subst s) := by
  intro name scheme' found
  obtain ⟨scheme, old, rfl⟩ := find?_subst_some found
  exact (withinSubst.without scheme.bound).apply (within name scheme old)

theorem Within.to_any (within : env.Within sig) : env.Within .any :=
  fun name scheme found => Ty.within_any (within name scheme found).isComplete

theorem IsComplete.within_any (whole : env.IsComplete) : env.Within .any :=
  fun name scheme found => Ty.within_any (whole name scheme found)

end Env

namespace Supply

variable {supply : Supply} {scheme : Scheme} {count more : Nat}

/-- So many variables taken from the supply belong to the signature. -/
def Allows (sig : Signature) (count : Nat) (supply : Supply) : Prop := ∀ name ∈ (freshList count supply).1, sig.var name

theorem allows_add : Allows sig (count + more) supply ↔ Allows sig count supply ∧ Allows sig more (freshList count supply).2 := by
  unfold Allows
  rw [names_freshList_add, List.forall_mem_append]

theorem Allows.of_next {other : Supply} (allows : Allows sig count supply) (same : supply.next = other.next) :
    Allows sig count other := by
  unfold Allows
  rwa [← names_freshList_of_next same]

theorem allows_of_names (names : ∀ v, sig.var v) : Allows sig count supply := fun name _ => names name

theorem within_choose {bound : List String} (within : supply.chosen.Within sig) (allows : Allows sig bound.length supply) :
    (choose bound supply).chosen.Within sig := by
  induction bound generalizing supply with
  | nil => exact within
  | cons name rest ih =>
    obtain ⟨first, later⟩ := List.forall_mem_cons.1 allows
    exact ih (within.insert (Ty.within_var.2 first)) (Allows.of_next later rfl)

theorem within_instantiate (idle : supply.chosen = ∅) (within : scheme.type.Within sig)
    (allows : Allows sig scheme.bound.length supply) : (instantiate scheme supply).1.Within sig := by
  unfold instantiate
  split
  · exact within
  · have withinStart : supply.chosen.Within sig := by
      rw [idle]
      exact Subst.within_empty
    exact (within_choose withinStart allows).apply within

end Supply

namespace Infer

def Keeps (sig : Signature) (result : Except Stop Typing × Progress) : Prop :=
  ∀ found, result.1 = .ok found → found.subst.Within sig ∧ found.type.Within sig

theorem keeps_error (stop : Stop) (progress : Progress) : Keeps sig (.error stop, progress) := nofun

theorem keeps_ok {found : Typing} {progress : Progress} (withinSubst : found.subst.Within sig)
    (withinType : found.type.Within sig) : Keeps sig (.ok found, progress) := by
  rintro _ ⟨⟩
  exact ⟨withinSubst, withinType⟩

theorem Keeps.andThen {result : Except Stop Typing × Progress}
    {next : Typing → Progress → Except Stop Typing × Progress} (keeps : Keeps sig result)
    (step : ∀ found after, result = (.ok found, after) → found.subst.Within sig → found.type.Within sig →
      Keeps sig (next found after)) : Keeps sig (Infer.andThen result next) := by
  obtain ⟨outcome, after⟩ := result
  cases outcome with
  | error stop => exact keeps_error stop after
  | ok found =>
    obtain ⟨withinSubst, withinType⟩ := keeps found rfl
    exact step found after rfl withinSubst withinType

theorem keeps_apply (basic : sig.Basic) (fn arg : Expr) (mark : Mark) {function argument : Typing} {progress : Progress}
    (withinFn : function.subst.Within sig ∧ function.type.Within sig)
    (withinArg : argument.subst.Within sig ∧ argument.type.Within sig) (allows : Supply.Allows sig 1 progress.supply) :
    Keeps sig (apply fn arg mark function argument progress) := by
  have withinResult : (Ty.var progress.supply.fresh.1).Within sig := Ty.within_var.2 (allows _ List.mem_cons_self)
  unfold apply
  dsimp only
  split
  · exact keeps_error _ _
  · exact keeps_error _ _
  · rename_i s unified
    have withinUnifier := within_of_unify unified (withinArg.1.apply withinFn.2) (withinArg.2.arrow basic withinResult)
    exact keeps_ok (withinFn.1.compose (withinArg.1.compose withinUnifier)) (withinUnifier.apply withinResult)

/-- A run keeps to the signature of its environment if the variables that it takes do. -/
theorem keeps_run (basic : sig.Basic) (expr : Expr) {env : Env} {progress : Progress} (within : env.Within sig)
    (idle : progress.supply.chosen = ∅) (allows : Supply.Allows sig (demand env progress expr) progress.supply) :
    Keeps sig ((typing env expr).run.run progress) := by
  induction expr generalizing env progress with
  | absent => exact keeps_error _ _
  | lit kind text mark =>
    rw [typing]
    cases base : kind.type with
    | error fault => exact keeps_error _ _
    | ok t => exact keeps_ok Subst.within_empty (LiteralKind.within_type basic base)
  | var name mark =>
    rw [run_var]
    rw [demand] at allows
    cases lookup : env.find? name with
    | none => exact keeps_error _ _
    | some scheme =>
      rw [lookup] at allows
      exact keeps_ok Subst.within_empty (Supply.within_instantiate idle (within name scheme lookup) allows)
  | func param body mark ih =>
    rw [run_func]
    rw [demand, Supply.allows_add] at allows
    have withinParam : (Ty.var progress.supply.fresh.1).Within sig := Ty.within_var.2 (allows.1 _ List.mem_cons_self)
    refine Keeps.andThen (ih (within.extend withinParam) idle allows.2) fun found after _ withinSubst withinType => ?_
    exact keeps_ok withinSubst (withinSubst.apply (withinParam.arrow basic withinType))
  | call fn arg mark ihFn ihArg =>
    rw [run_call]
    rw [demand, Supply.allows_add, ← supply_run fn env idle] at allows
    refine (ihFn within idle allows.1).andThen fun function after wentFn withinSubst withinType => ?_
    have idleFn := idle_of_freshList idle (supply_run fn env idle) wentFn
    have allowsLater := allows.2
    simp only [wentFn] at allowsLater
    rw [Supply.allows_add, ← supply_run arg _ idleFn] at allowsLater
    refine (ihArg (within.subst withinSubst) idleFn allowsLater.1).andThen fun argument last wentArg withinLast withinArg => ?_
    have allowsResult := allowsLater.2
    simp only [wentArg] at allowsResult
    exact keeps_apply basic fn arg mark ⟨withinSubst, withinType⟩ ⟨withinLast, withinArg⟩ allowsResult
  | letIn name value body pos ihValue ihBody =>
    rw [run_letIn]
    rw [demand, Supply.allows_add, ← supply_run value env idle] at allows
    refine (ihValue within idle allows.1).andThen fun definition after wentValue withinSubst withinType => ?_
    have withinBody : Env.Within sig (bodyEnv env name definition) := (within.subst withinSubst).extend withinType
    have idleValue : after.supply.chosen = ∅ := idle_of_freshList idle (supply_run value env idle) wentValue
    have allowsBody := allows.2
    simp only [wentValue] at allowsBody
    refine Keeps.andThen (ihBody withinBody idleValue allowsBody) fun found last _ withinLast withinFound => ?_
    exact keeps_ok (withinSubst.compose withinLast) withinFound

theorem failed_of_apply {fn arg : Expr} {mark : Mark} {function argument : Typing} {progress after : Progress} {stop : Stop}
    (withinFn : function.type.Within .any) (withinArg : argument.subst.Within .any ∧ argument.type.Within .any)
    (stopped : apply fn arg mark function argument progress = (.error stop, after)) :
    ∃ error spot, stop = .failed error spot := by
  have withinResult : (Ty.var progress.supply.fresh.1).Within .any := Ty.within_var.2 trivial
  have withinNeeded := withinArg.2.arrow Signature.basic_any withinResult
  unfold apply at stopped
  dsimp only at stopped
  split at stopped
  · rename_i reason failed
    obtain ⟨_, impossible⟩ := exists_mismatch_of_unify failed (withinArg.1.apply withinFn).isComplete
      withinNeeded.isComplete
    cases impossible
  · cases stopped
    exact ⟨_, _, rfl⟩
  · cases stopped

/-- An expression without absent nodes and unknown literals meets no fault in an environment without absent
types. -/
theorem failed_of_isProper {env : Env} {expr : Expr} {progress after : Progress} {stop : Stop} (within : env.Within .any)
    (idle : progress.supply.chosen = ∅) (proper : expr.isProper = true)
    (stopped : (typing env expr).run.run progress = (.error stop, after)) : ∃ error spot, stop = .failed error spot := by
  -- No type that is found on the way is absent either, as `keeps_run` says.
  have keeps {env : Env} {progress : Progress} (part : Expr) (within : env.Within .any) (idle : progress.supply.chosen = ∅) :
      Keeps .any ((typing env part).run.run progress) :=
    keeps_run Signature.basic_any part within idle (Supply.allows_of_names fun _ => trivial)
  induction expr generalizing env progress after stop with
  | absent => cases proper
  | lit kind text mark =>
    cases kind with
    | int => cases stopped
    | bool => cases stopped
    | unknown code => cases proper
  | var name mark =>
    rw [run_var] at stopped
    split at stopped <;> cases stopped
    exact ⟨_, _, rfl⟩
  | func param body mark ih =>
    rw [run_func] at stopped
    have withinParam : (Ty.var progress.supply.fresh.1).Within .any := Ty.within_var.2 trivial
    have withinBody : Env.Within .any (env.declare param (.var progress.supply.fresh.1)) := within.extend withinParam
    rcases andThen_eq_error stopped with inBody | ⟨_, _, _, impossible⟩
    · refine ih withinBody ?_ proper inBody
      exact idle
    · cases impossible
  | call fn arg mark ihFn ihArg =>
    obtain ⟨properFn, properArg⟩ := Bool.and_eq_true_iff.1 proper
    rw [run_call] at stopped
    rcases andThen_eq_error stopped with inFn | ⟨function, next, wentFn, stopped⟩
    · exact ihFn within idle properFn inFn
    obtain ⟨withinSubst, withinFn⟩ := keeps fn within idle function (congrArg Prod.fst wentFn)
    have idleFn := idle_of_freshList idle (supply_run fn env idle) wentFn
    rcases andThen_eq_error stopped with inArg | ⟨argument, last, wentArg, stopped⟩
    · exact ihArg (within.subst withinSubst) idleFn properArg inArg
    · exact failed_of_apply withinFn (keeps arg (within.subst withinSubst) idleFn argument (congrArg Prod.fst wentArg)) stopped
  | letIn name value body pos ihValue ihBody =>
    obtain ⟨properValue, properBody⟩ := Bool.and_eq_true_iff.1 proper
    rw [run_letIn] at stopped
    rcases andThen_eq_error stopped with inValue | ⟨definition, next, wentValue, stopped⟩
    · exact ihValue within idle properValue inValue
    obtain ⟨withinSubst, withinType⟩ := keeps value within idle definition (congrArg Prod.fst wentValue)
    have withinBody : Env.Within .any (bodyEnv env name definition) := (within.subst withinSubst).extend withinType
    have idleValue := idle_of_freshList idle (supply_run value env idle) wentValue
    rcases andThen_eq_error stopped with inBody | ⟨_, _, _, impossible⟩
    · refine ihBody withinBody ?_ properBody inBody
      exact idleValue
    · cases impossible

end Infer

/-- The type found for an expression keeps to the signature of the environment. -/
theorem Session.within_infer (basic : sig.Basic) {session : Session} {env : Env} {expr : Expr} {found : Typing}
    (within : env.Within sig) (idle : session.supply.chosen = ∅)
    (allows : Supply.Allows sig (Infer.demand env ⟨session.supply, []⟩ expr) session.supply)
    (answered : (session.infer env expr).outcome = .ok found) : found.type.Within sig := by
  have given : expr ≠ .absent := by
    rintro rfl
    cases answered
  have keeps := @Infer.keeps_run _ basic expr env ⟨session.supply, []⟩ within idle allows
  rw [outcome_infer given] at answered
  cases outcome : ((Infer.typing env expr).run.run ⟨session.supply, []⟩).1 with
  | error stop =>
    rw [outcome] at answered
    cases answered
  | ok value =>
    rw [outcome] at answered
    obtain rfl : value = found := Except.ok.inj answered
    exact (keeps value outcome).2

end HindleyMilner
