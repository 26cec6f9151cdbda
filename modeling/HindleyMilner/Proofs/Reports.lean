import HindleyMilner.Proofs.Marks
import HindleyMilner.Proofs.Signature

/-! What inference reports beside its answer: the errors, the events that a log shows, and the types
assigned to the nodes.

In an environment whose types keep to a signature, all of it keeps to the signature too. In
particular a type that is printed on the way can be printed if the signature gives function types two
arguments. -/

set_option autoImplicit false

namespace HindleyMilner

variable {sig : Signature}

namespace Mismatch

/-- A mismatch of types within the signature, as unification finds it. -/
inductive Arises (sig : Signature) : Mismatch → Prop where
  | constructors {first second : String} : first ≠ second → Arises sig (.constructors first second)
  | arity {con : String} {as bs : List Ty} : as.length ≠ bs.length → (Ty.app con as).Within sig →
      (Ty.app con bs).Within sig → Arises sig (.arity (.app con as) (.app con bs))
  | infinite {name : String} {t : Ty} : t.occurs name = true → t.Within sig → Arises sig (.infinite name t)

def types : Mismatch → List Ty
  | .arity first second => [first, second]
  | .infinite _ t => [t]
  | _ => []

/-- The types whose own texts are part of the message. Types with different numbers of arguments are
described in it even if they cannot be printed. -/
def shown : Mismatch → List Ty
  | .infinite _ t => [t]
  | _ => []

theorem Arises.within {reason : Mismatch} (arises : reason.Arises sig) : ∀ t ∈ reason.types, t.Within sig := by
  cases arises with
  | constructors => nofun
  | arity _ within withinSecond => simp [types, within, withinSecond]
  | infinite _ within => simp [types, within]

theorem shown_subset (reason : Mismatch) : reason.shown ⊆ reason.types := by
  cases reason <;> simp [shown, types]

end Mismatch

namespace Unify

theorem Obstacle.arises {equations : List Equation} {impasse : Impasse} (obstacle : Obstacle equations impasse)
    (within : Within sig equations) : ∃ reason, impasse = .mismatch reason ∧ reason.Arises sig := by
  induction obstacle with
  | infinite sides _ inside => exact ⟨_, rfl, .infinite inside (within.value sides)⟩
  | constructors different => exact ⟨_, rfl, .constructors different⟩
  | arity lengths => exact ⟨_, rfl, .arity lengths (within_cons.1 within).1.1 (within_cons.1 within).1.2⟩
  | missing gone =>
    obtain ⟨withinFirst, withinSecond⟩ := (List.forall_mem_cons.1 within).1
    rcases gone with gone | gone
    · exact absurd (gone ▸ withinFirst) Ty.not_within_absent
    · exact absurd (gone ▸ withinSecond) Ty.not_within_absent
  | trivial _ ih => exact ih (within_cons.1 within).2
  | bind sides _ ih => exact ih (within.bind sides)
  | args _ _ ih => exact ih within.args

end Unify

/-- Unification of types within the signature has a result or comes to a mismatch of such types. -/
theorem arises_of_unify {a b : Ty} {impasse : Impasse} (failed : unify a b = .error impasse) (withinA : a.Within sig)
    (withinB : b.Within sig) : ∃ reason, impasse = .mismatch reason ∧ reason.Arises sig :=
  (Unify.obstacle_of_solve failed).arises (Unify.within_cons.2 ⟨⟨withinA, withinB⟩, List.forall_mem_nil _⟩)

namespace Error

/-- A mismatch that the error is about is one of types within the signature. -/
def Arises (sig : Signature) (error : Error) : Prop := ∀ reason, error.root = .mismatch reason → reason.Arises sig

def types : Error → List Ty
  | .mismatch reason => reason.types
  | .within _ cause => cause.types
  | _ => []

def shown : Error → List Ty
  | .mismatch reason => reason.shown
  | .within _ cause => cause.shown
  | _ => []

variable {error : Error}

theorem Arises.within (arises : error.Arises sig) : ∀ t ∈ error.types, t.Within sig := by
  induction error with
  | mismatch reason => exact (arises reason rfl).within
  | within context cause ih => exact ih arises
  | malformed error => nofun
  | undefined name pos => nofun
  | plain text => nofun

theorem arises_undefined (name : String) (pos : Position) : (Error.undefined name pos).Arises sig := by
  rintro _ ⟨⟩

theorem shown_subset (error : Error) : error.shown ⊆ error.types := by
  induction error with
  | mismatch reason => exact reason.shown_subset
  | within context cause ih => exact ih
  | malformed error => nofun
  | undefined name pos => nofun
  | plain text => nofun

end Error

namespace Event

def shown : Event → List Ty
  | .generalized _ scheme => [scheme.type]
  | .unified first second outcome =>
    first :: second ::
      match outcome with
      | .ok s => s.entries.map Prod.snd
      | .error reason => reason.shown
  | .failed _ error => error.shown

def Within (sig : Signature) (event : Event) : Prop := ∀ t ∈ event.shown, t.Within sig

theorem within_generalized {name : String} {scheme : Scheme} (within : scheme.type.Within sig) :
    (Event.generalized name scheme).Within sig := List.forall_mem_singleton.2 within

theorem within_failed {expr : Expr} {error : Error} (arises : error.Arises sig) : (Event.failed expr error).Within sig :=
  fun t mem => arises.within t (error.shown_subset mem)

theorem within_unified {a b : Ty} {outcome : Except Mismatch Subst} (withinA : a.Within sig) (withinB : b.Within sig)
    (solved : ∀ s, outcome = .ok s → s.Within sig) (refused : ∀ reason, outcome = .error reason → reason.Arises sig) :
    (Event.unified a b outcome).Within sig := by
  refine List.forall_mem_cons.2 ⟨withinA, List.forall_mem_cons.2 ⟨withinB, ?_⟩⟩
  cases outcome with
  | ok s => exact Subst.within_iff_values.1 (solved s rfl)
  | error reason => exact fun t mem => (refused reason rfl).within t (reason.shown_subset mem)

end Event

namespace Infer

/-- What a run reports is within the signature, whether it succeeds or not. -/
structure Reports (sig : Signature) (result : Except Stop Typing × Progress) : Prop where
  events : ∀ event ∈ result.2.events, event.Within sig
  tree : ∀ found, result.1 = .ok found → ∀ t ∈ found.tree.types, t.Within sig
  error : ∀ error spot, result.1 = .error (.failed error spot) → error.Arises sig

section Steps

variable {progress : Progress}

theorem reports_ok {found : Typing} (events : ∀ event ∈ progress.events, event.Within sig)
    (tree : ∀ t ∈ found.tree.types, t.Within sig) : Reports sig (.ok found, progress) where
  events := events
  tree := by
    rintro _ ⟨⟩
    exact tree
  error := nofun

theorem reports_fault {reason : Fault} (events : ∀ event ∈ progress.events, event.Within sig) :
    Reports sig (.error (.fault reason), progress) where
  events := events
  tree := nofun
  error := nofun

theorem reports_failed {error : Error} {spot : Spot} (events : ∀ event ∈ progress.events, event.Within sig)
    (arises : error.Arises sig) : Reports sig (.error (.failed error spot), progress) where
  events := events
  tree := nofun
  error := by
    rintro _ _ ⟨⟩
    exact arises

theorem Reports.andThen {result : Except Stop Typing × Progress}
    {next : Typing → Progress → Except Stop Typing × Progress} (reports : Reports sig result)
    (step : ∀ found after, result = (.ok found, after) → (∀ event ∈ after.events, event.Within sig) →
      (∀ t ∈ found.tree.types, t.Within sig) → Reports sig (next found after)) : Reports sig (Infer.andThen result next) := by
  obtain ⟨outcome, after⟩ := result
  cases outcome with
  | error stop => exact ⟨reports.events, nofun, reports.error⟩
  | ok found => exact step found after rfl reports.events (reports.tree found rfl)

theorem reports_apply (basic : sig.Basic) (names : ∀ v, sig.var v) (fn arg : Expr) (mark : Mark)
    {function argument : Typing} (withinFn : function.type.Within sig)
    (withinArg : argument.subst.Within sig ∧ argument.type.Within sig)
    (treeFn : ∀ t ∈ function.tree.types, t.Within sig) (treeArg : ∀ t ∈ argument.tree.types, t.Within sig)
    (events : ∀ event ∈ progress.events, event.Within sig) :
    Reports sig (apply fn arg mark function argument progress) := by
  have withinResult : (Ty.var progress.supply.fresh.1).Within sig := Ty.within_var.2 (names _)
  have withinActual := withinArg.1.apply withinFn
  have withinNeeded := withinArg.2.arrow basic withinResult
  unfold apply
  dsimp only
  split
  · exact reports_fault events
  · rename_i reason failed
    obtain ⟨_, ⟨⟩, arises⟩ := arises_of_unify failed withinActual withinNeeded
    refine reports_failed (List.forall_mem_cons.2 ⟨Event.within_unified withinActual withinNeeded nofun ?_, events⟩) ?_
    · rintro _ ⟨⟩
      exact arises
    · rintro _ ⟨⟩
      exact arises
  · rename_i s unified
    have withinUnifier := within_of_unify unified withinActual withinNeeded
    refine reports_ok (List.forall_mem_cons.2 ⟨Event.within_unified withinActual withinNeeded ?_ nofun, events⟩) ?_
    · rintro _ ⟨⟩
      exact withinUnifier
    · exact List.forall_mem_cons.2 ⟨withinUnifier.apply withinResult, List.forall_mem_append.2 ⟨treeFn, treeArg⟩⟩

end Steps

/-- A run in an environment within a signature that leaves variables free reports nothing outside the
signature. -/
theorem reports_run (basic : sig.Basic) (names : ∀ v, sig.var v) (expr : Expr) {env : Env} {progress : Progress}
    (within : env.Within sig) (idle : progress.supply.chosen = ∅) (events : ∀ event ∈ progress.events, event.Within sig) :
    Reports sig ((typing env expr).run.run progress) := by
  -- That the answers of the parts are within the signature is known from `keeps_run`.
  have keeps {env : Env} {progress : Progress} (part : Expr) (within : env.Within sig) (idle : progress.supply.chosen = ∅) :
      Keeps sig ((typing env part).run.run progress) := keeps_run basic part within idle (Supply.allows_of_names names)
  induction expr generalizing env progress with
  | absent => exact reports_fault events
  | lit kind text mark =>
    rw [typing]
    cases base : kind.type with
    | error fault => exact reports_fault events
    | ok t => exact reports_ok events (List.forall_mem_singleton.2 (LiteralKind.within_type basic base))
  | var name mark =>
    rw [run_var]
    cases lookup : env.find? name with
    | none => exact reports_failed events (Error.arises_undefined name mark.pos)
    | some scheme =>
      refine reports_ok events (List.forall_mem_singleton.2 ?_)
      exact Supply.within_instantiate idle (within name scheme lookup) (Supply.allows_of_names names)
  | func param body mark ih =>
    rw [run_func]
    have withinParam : (Ty.var progress.supply.fresh.1).Within sig := Ty.within_var.2 (names _)
    have withinBody : Env.Within sig (env.declare param (.var progress.supply.fresh.1)) := within.extend withinParam
    refine Reports.andThen (ih withinBody idle events) fun found after went events tree => ?_
    let started : Progress := { progress with supply := progress.supply.fresh.2 }
    obtain ⟨withinSubst, withinType⟩ := @keeps _ started body withinBody idle found (congrArg Prod.fst went)
    exact reports_ok events (List.forall_mem_cons.2 ⟨withinSubst.apply (withinParam.arrow basic withinType), tree⟩)
  | call fn arg mark ihFn ihArg =>
    rw [run_call]
    refine (ihFn within idle events).andThen fun function after wentFn events treeFn => ?_
    obtain ⟨withinSubst, withinFn⟩ := keeps fn within idle function (congrArg Prod.fst wentFn)
    have idleFn := idle_of_freshList idle (supply_run fn env idle) wentFn
    have withinEnv := within.subst withinSubst
    refine (ihArg withinEnv idleFn events).andThen fun argument last wentArg events treeArg => ?_
    have withinArg := keeps arg withinEnv idleFn argument (congrArg Prod.fst wentArg)
    exact reports_apply basic names fn arg mark withinFn withinArg treeFn treeArg events
  | letIn name value body pos ihValue ihBody =>
    rw [run_letIn]
    refine (ihValue within idle events).andThen fun definition after wentValue events treeValue => ?_
    obtain ⟨withinSubst, withinType⟩ := keeps value within idle definition (congrArg Prod.fst wentValue)
    have idleValue : after.supply.chosen = ∅ := idle_of_freshList idle (supply_run value env idle) wentValue
    have withinBody : Env.Within sig (bodyEnv env name definition) := (within.subst withinSubst).extend withinType
    have generalized : Event.Within sig (.generalized name ((env.subst definition.subst).generalize definition.type)) :=
      Event.within_generalized withinType
    have logged := List.forall_mem_cons.2 ⟨generalized, events⟩
    refine Reports.andThen (ihBody withinBody idleValue logged) fun found last _ events treeBody => ?_
    exact reports_ok events (List.forall_mem_append.2 ⟨treeValue, treeBody⟩)

end Infer

def Typing.types (found : Typing) : List Ty := found.type :: (found.subst.entries.map Prod.snd ++ found.tree.types)

theorem Typing.within_types {found : Typing} : (∀ t ∈ found.types, t.Within sig) ↔
    found.type.Within sig ∧ found.subst.Within sig ∧ ∀ t ∈ found.tree.types, t.Within sig := by
  rw [types, List.forall_mem_cons, List.forall_mem_append, Subst.within_iff_values]

namespace Answer

variable {α β : Type} {answer : Answer α} {f : α → β} {types : α → List Ty} {typesOf : β → List Ty}

theorem map_eq_ok {value : β} : (answer.map f).outcome = .ok value ↔ ∃ first, answer.outcome = .ok first ∧ f first = value := by
  unfold Answer.map
  cases answer.outcome with
  | error halt => exact ⟨nofun, nofun⟩
  | ok first => exact ⟨fun same => ⟨first, rfl, Except.ok.inj same⟩, fun ⟨_, same, value⟩ => Except.ok.inj same ▸ congrArg _ value⟩

theorem map_eq_error {halt : Halt} : (answer.map f).outcome = .error halt ↔ answer.outcome = .error halt := by
  unfold Answer.map
  cases answer.outcome with
  | error other => exact ⟨fun same => congrArg _ (Except.error.inj same), fun same => congrArg _ (Except.error.inj same)⟩
  | ok first => exact ⟨nofun, nofun⟩

/-- The types of the value, those in the error and those that a log shows are within the signature. -/
structure Within (sig : Signature) (types : α → List Ty) (answer : Answer α) : Prop where
  events : ∀ event ∈ answer.events, event.Within sig
  value : ∀ value, answer.outcome = .ok value → ∀ t ∈ types value, t.Within sig
  error : ∀ error, answer.outcome = .error (.failed error) → error.Arises sig

theorem Within.map (within : answer.Within sig types)
    (covers : ∀ value, (∀ t ∈ types value, t.Within sig) → ∀ t ∈ typesOf (f value), t.Within sig) :
    (answer.map f).Within sig typesOf where
  events := within.events
  value value mapped := by
    obtain ⟨first, outcome, rfl⟩ := map_eq_ok.1 mapped
    exact covers first (within.value first outcome)
  error error mapped := within.error error (map_eq_error.1 mapped)

end Answer

namespace Session

/-- A request for an expression without absent nodes and unknown literals meets no fault in an environment
without absent types. -/
theorem outcome_infer_ne_fault {session : Session} {env : Env} {expr : Expr} (within : env.Within sig)
    (idle : session.supply.chosen = ∅) (proper : expr.isProper = true) (reason : Fault) :
    (session.infer env expr).outcome ≠ .error (.fault reason) := by
  have given : expr ≠ .absent := by
    rintro rfl
    cases proper
  rw [outcome_infer given]
  rcases went : (Infer.typing env expr).run.run ⟨session.supply, []⟩ with ⟨outcome, after⟩
  cases outcome with
  | ok found => nofun
  | error stop =>
    obtain ⟨error, spot, rfl⟩ := Infer.failed_of_isProper within.to_any idle proper went
    nofun

theorem annotate_eq_error {session : Session} {env : Env} {expr : Expr} {halt : Halt} :
    (session.annotate env expr).outcome = .error halt ↔ (session.infer env expr).outcome = .error halt := by
  unfold annotate infer
  rw [Answer.map_eq_error, (session.request_node Spot.annotated Spot.given env expr).1]

section Requests

variable {session : Session} {env : Env} (basic : sig.Basic) (names : ∀ v, sig.var v) (within : env.Within sig)
  (idle : session.supply.chosen = ∅) (expr : Expr)

include basic names within idle

theorem within_answer_request (node : Spot → Expr) : (session.request node env expr).Within sig Typing.types := by
  have keeps := @Infer.keeps_run _ basic expr env ⟨session.supply, []⟩ within idle (Supply.allows_of_names names)
  have reports := @Infer.reports_run _ basic names expr env ⟨session.supply, []⟩ within idle (List.forall_mem_nil _)
  unfold request
  split
  · refine ⟨List.forall_mem_nil _, nofun, ?_⟩
    rintro _ ⟨⟩
    nofun
  · generalize (Infer.typing env expr).run.run ⟨session.supply, []⟩ = result at keeps reports
    obtain ⟨((⟨error, spot⟩ | reason) | found), progress⟩ := result
    · have arises := reports.error error spot rfl
      refine ⟨?_, nofun, ?_⟩
      · simpa [or_imp, forall_and, Event.within_failed arises] using reports.events
      · rintro _ ⟨⟩
        exact arises
    · exact ⟨by simpa using reports.events, nofun, nofun⟩
    · refine ⟨by simpa using reports.events, ?_, nofun⟩
      rintro _ ⟨⟩
      obtain ⟨withinSubst, withinType⟩ := keeps found rfl
      exact Typing.within_types.2 ⟨withinType, withinSubst, reports.tree found rfl⟩

theorem within_answer_infer : (session.infer env expr).Within sig Typing.types :=
  within_answer_request basic names within idle expr Spot.given

theorem within_answer_inferScheme : (session.inferScheme env expr).Within sig fun scheme => [scheme.type] :=
  (within_answer_infer basic names within idle expr).map fun found withinFound => by
    rw [List.forall_mem_singleton, Env.type_generalize]
    exact (Typing.within_types.1 withinFound).1

theorem within_answer_annotate : (session.annotate env expr).Within sig Expr.types :=
  (within_answer_request basic names within idle expr Spot.annotated).map fun found withinFound => by
    obtain ⟨_, withinSubst, withinTree⟩ := Typing.within_types.1 withinFound
    rw [Expr.types_mapTypes, List.forall_mem_map]
    exact fun t mem => withinSubst.apply (withinTree t mem)

end Requests

end Session

end HindleyMilner
