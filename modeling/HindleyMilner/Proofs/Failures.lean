import HindleyMilner.Proofs.Logging

/-! Where inference stops, and what a session remembers of it.

Inference comes to the nodes of an expression one after the other and stops at the first one that cannot
be given a type: a variable that is bound nowhere, or a call whose two parts do not fit. A session that is
asked for the type of an expression remembers this node and this error, or nothing if there is none,
whatever it has been asked before. If it was to annotate the expression, the node is one of the copy that
it had begun to annotate, and the parts of a call have their types there. -/

set_option autoImplicit false

namespace HindleyMilner

theorem Spot.given_ne_absent (spot : Spot) : spot.given ≠ .absent := by cases spot <;> nofun

theorem Spot.annotated_ne_absent (spot : Spot) : spot.annotated ≠ .absent := by cases spot <;> nofun

theorem Expr.mem_nodes_self {expr : Expr} (given : expr ≠ .absent) : expr ∈ expr.nodes := by
  cases expr with
  | absent => exact absurd rfl given
  | _ => exact List.mem_cons_self

namespace Infer

/-- Inference of an expression comes to a node of it. The names are those that the binders around the node
bind there, the outermost first; the environment and the progress are those at the node. -/
inductive Visits : Env → Progress → Expr → List String → Env → Progress → Expr → Prop where
  | here {env : Env} {progress : Progress} {expr : Expr} : Visits env progress expr [] env progress expr
  | fn {env inner : Env} {progress before : Progress} {scope : List String} {fn arg node : Expr} {mark : Mark} :
      Visits env progress fn scope inner before node →
      Visits env progress (.call fn arg mark) scope inner before node
  | arg {env inner : Env} {progress after before : Progress} {scope : List String} {fn arg node : Expr} {mark : Mark}
        {function : Typing} :
      (typing env fn).run.run progress = (.ok function, after) →
      Visits (env.subst function.subst) after arg scope inner before node →
      Visits env progress (.call fn arg mark) scope inner before node
  | body {env inner : Env} {progress before : Progress} {scope : List String} {param : String} {body node : Expr}
        {mark : Mark} :
      Visits (env.declare param (.var progress.supply.fresh.1)) { progress with supply := progress.supply.fresh.2 } body
        scope inner before node →
      Visits env progress (.func param body mark) (param :: scope) inner before node
  | value {env inner : Env} {progress before : Progress} {scope : List String} {name : String} {value body node : Expr}
        {pos : Position} :
      Visits env progress value scope inner before node →
      Visits env progress (.letIn name value body pos) scope inner before node
  | rest {env inner : Env} {progress after before : Progress} {scope : List String} {name : String}
        {value body node : Expr} {pos : Position} {definition : Typing} :
      (typing env value).run.run progress = (.ok definition, after) →
      Visits (bodyEnv env name definition)
        { after with events := .generalized name ((env.subst definition.subst).generalize definition.type) :: after.events }
        body scope inner before node →
      Visits env progress (.letIn name value body pos) (name :: scope) inner before node

/-- Both parts of a call have their types, and the one is not a function that takes the other. -/
def Clash (env : Env) (progress : Progress) (fn arg : Expr) (function argument : Typing) (reason : Mismatch) : Prop :=
  ∃ after last,
    (typing env fn).run.run progress = (.ok function, after) ∧
    (typing (env.subst function.subst) arg).run.run after = (.ok argument, last) ∧
    unify (argument.subst.apply function.type) (.arrow argument.type (.var last.supply.fresh.1)) = .error (.mismatch reason)

inductive Stuck (env : Env) (progress : Progress) : Spot → Error → Prop where
  | undefined {name : String} {mark : Mark} : env.find? name = none →
      Stuck env progress (.var name mark) (.undefined name mark.pos)
  | mismatch {fn arg : Expr} {mark : Mark} {function argument : Typing} {reason : Mismatch} :
      Clash env progress fn arg function argument reason →
      Stuck env progress (.call fn arg mark function.tree argument.tree)
        (.within ("cannot apply " ++ fn.render ++ " to " ++ arg.render) (.mismatch reason))

/-- The copy of an expression that a run annotates, as the run leaves it: what the run has finished has the
types that it has found there, and the rest is as it was given. -/
def marked (env : Env) (progress : Progress) (expr : Expr) : Expr :=
  match (typing env expr).run.run progress with
  | (.ok found, _) => found.tree
  | (.error _, _) =>
    match expr with
    | .call fn arg mark =>
      let argMarked :=
        match (typing env fn).run.run progress with
        | (.ok function, after) => marked (env.subst function.subst) after arg
        | (.error _, _) => arg
      .call (marked env progress fn) argMarked mark
    | .func param body mark =>
      let (name, supply) := progress.supply.fresh
      .func param (marked (env.declare param (.var name)) { progress with supply } body) mark
    | .letIn name value body pos =>
      let bodyMarked :=
        match (typing env value).run.run progress with
        | (.ok definition, after) =>
          let scheme := (env.subst definition.subst).generalize definition.type
          marked (bodyEnv env name definition) { after with events := .generalized name scheme :: after.events } body
        | (.error _, _) => body
      .letIn name (marked env progress value) bodyMarked pos
    | expr => expr

variable {env inner : Env} {progress before after : Progress} {expr node : Expr} {scope : List String} {error : Error}
  {spot : Spot} {stop : Stop} {found : Typing}

/-- A name is bound at a node by a binder around the node, or by the environment of the expression. -/
theorem Visits.find?_eq_none_iff (visits : Visits env progress expr scope inner before node) (name : String) :
    inner.find? name = none ↔ name ∉ scope ∧ env.find? name = none := by
  induction visits with
  | here => simp
  | fn _ ih => exact ih
  | arg _ _ ih => simpa using ih
  | @body _ _ _ _ _ param _ _ _ _ ih =>
    rw [ih, Env.declare, Env.find?_extend, List.mem_cons, not_or]
    by_cases same : name = param <;> simp [same]
  | value _ ih => exact ih
  | @rest _ _ _ _ _ _ defined _ _ _ _ _ _ _ ih =>
    rw [ih, bodyEnv, Env.find?_extend, List.mem_cons, not_or]
    by_cases same : name = defined <;> simp [same]

theorem Visits.mem_nodes (visits : Visits env progress expr scope inner before node) (given : node ≠ .absent) :
    node ∈ expr.nodes := by
  induction visits with
  | here => exact Expr.mem_nodes_self given
  | fn _ ih => exact List.mem_cons_of_mem _ (List.mem_append_left _ (ih given))
  | arg _ _ ih => exact List.mem_cons_of_mem _ (List.mem_append_right _ (ih given))
  | body _ ih => exact List.mem_cons_of_mem _ (ih given)
  | value _ ih => exact List.mem_cons_of_mem _ (List.mem_append_left _ (ih given))
  | rest _ _ ih => exact List.mem_cons_of_mem _ (List.mem_append_right _ (ih given))

/-- A run stops wherever it comes to a node at which it stops. -/
theorem Visits.stops (visits : Visits env progress expr scope inner before node)
    (stopped : (typing inner node).run.run before = (.error stop, after)) :
    (typing env expr).run.run progress = (.error stop, after) := by
  induction visits with
  | here => exact stopped
  | fn _ ih => rw [run_call, ih stopped, andThen_error]
  | arg wentFn _ ih => rw [run_call, wentFn, andThen_ok, ih stopped, andThen_error]
  | body _ ih =>
    rw [run_func]
    dsimp only
    rw [ih stopped, andThen_error]
  | value _ ih => rw [run_letIn, ih stopped, andThen_error]
  | rest wentValue _ ih =>
    rw [run_letIn, wentValue, andThen_ok]
    dsimp only
    rw [ih stopped, andThen_error]

theorem Stuck.stops (stuck : Stuck env progress spot error) :
    ∃ after, (typing env spot.given).run.run progress = (.error (.failed error spot), after) := by
  cases stuck with
  | undefined unbound => exact ⟨_, by rw [Spot.given, run_var, unbound]⟩
  | mismatch clash =>
    obtain ⟨_, _, wentFn, wentArg, failed⟩ := clash
    rw [Spot.given, run_call, wentFn, andThen_ok, wentArg, andThen_ok]
    unfold apply
    dsimp only
    rw [failed]
    exact ⟨_, rfl⟩

theorem exists_visits_of_failed (went : (typing env expr).run.run progress = (.error (.failed error spot), after)) :
    ∃ scope inner before, Visits env progress expr scope inner before spot.given ∧ Stuck inner before spot error := by
  induction expr generalizing env progress with
  | absent => cases went
  | lit kind text mark => cases kind <;> cases went
  | var name mark =>
    rw [run_var] at went
    cases lookup : env.find? name with
    | none =>
      rw [lookup] at went
      cases went
      exact ⟨_, _, _, .here, .undefined lookup⟩
    | some scheme =>
      rw [lookup] at went
      cases went
  | func param body mark ih =>
    rw [run_func] at went
    rcases andThen_eq_error went with inBody | ⟨_, _, _, impossible⟩
    · obtain ⟨_, _, _, visits, stuck⟩ := ih inBody
      exact ⟨_, _, _, .body visits, stuck⟩
    · cases impossible
  | call fn arg mark ihFn ihArg =>
    rw [run_call] at went
    rcases andThen_eq_error went with inFn | ⟨function, middle, wentFn, went⟩
    · obtain ⟨_, _, _, visits, stuck⟩ := ihFn inFn
      exact ⟨_, _, _, .fn visits, stuck⟩
    rcases andThen_eq_error went with inArg | ⟨argument, last, wentArg, went⟩
    · obtain ⟨_, _, _, visits, stuck⟩ := ihArg inArg
      exact ⟨_, _, _, .arg wentFn visits, stuck⟩
    -- Both parts have their types, so the call itself is where the run stops.
    · unfold apply at went
      dsimp only at went
      split at went
      · cases went
      · rename_i reason failed
        cases went
        exact ⟨_, _, _, .here, .mismatch ⟨_, _, wentFn, wentArg, failed⟩⟩
      · cases went
  | letIn name value body pos ihValue ihBody =>
    rw [run_letIn] at went
    rcases andThen_eq_error went with inValue | ⟨definition, middle, wentValue, went⟩
    · obtain ⟨_, _, _, visits, stuck⟩ := ihValue inValue
      exact ⟨_, _, _, .value visits, stuck⟩
    rcases andThen_eq_error went with inBody | ⟨_, _, _, impossible⟩
    · obtain ⟨_, _, _, visits, stuck⟩ := ihBody inBody
      exact ⟨_, _, _, .rest wentValue visits, stuck⟩
    · cases impossible

/-- A run stops with an error exactly at a node that it comes to and where it cannot go on. -/
theorem failed_iff_stuck :
    (∃ after, (typing env expr).run.run progress = (.error (.failed error spot), after)) ↔
      ∃ scope inner before, Visits env progress expr scope inner before spot.given ∧ Stuck inner before spot error :=
  ⟨fun ⟨_, went⟩ => exists_visits_of_failed went, fun ⟨_, _, _, visits, stuck⟩ => stuck.stops.imp fun _ => visits.stops⟩

theorem marked_of_ok (went : (typing env expr).run.run progress = (.ok found, after)) :
    marked env progress expr = found.tree := by
  rw [marked.eq_def, went]

theorem shape_tree (went : (typing env expr).run.run progress = (.ok found, after)) : found.tree.shape = expr.shape := by
  unfold Expr.shape
  induction expr generalizing env progress found after with
  | absent => cases went
  | lit kind text mark =>
    rw [typing] at went
    cases base : kind.type <;> rw [base] at went <;> cases went
    rfl
  | var name mark =>
    rw [run_var] at went
    split at went <;> cases went
    rfl
  | func param body mark ih =>
    rw [run_func] at went
    obtain ⟨inner, _, wentBody, went⟩ := andThen_eq_ok went
    cases went
    simp only [Expr.mapTypes, ih wentBody]
  | call fn arg mark ihFn ihArg =>
    rw [run_call] at went
    obtain ⟨function, _, wentFn, went⟩ := andThen_eq_ok went
    obtain ⟨argument, _, wentArg, went⟩ := andThen_eq_ok went
    unfold apply at went
    dsimp only at went
    split at went <;> cases went
    simp only [Expr.mapTypes, ihFn wentFn, ihArg wentArg]
  | letIn name value body pos ihValue ihBody =>
    rw [run_letIn] at went
    obtain ⟨definition, _, wentValue, went⟩ := andThen_eq_ok went
    obtain ⟨inner, _, wentBody, went⟩ := andThen_eq_ok went
    cases went
    simp only [Expr.mapTypes, ihValue wentValue, ihBody wentBody]

theorem shape_marked (env : Env) (progress : Progress) (expr : Expr) : (marked env progress expr).shape = expr.shape := by
  induction expr generalizing env progress with
  | absent | lit | var =>
    rw [marked.eq_def]
    split
    · exact shape_tree ‹_›
    · rfl
  | func param body mark ih =>
    rw [marked.eq_def]
    split
    · exact shape_tree ‹_›
    · simp only [Expr.shape, Expr.mapTypes] at ih ⊢
      rw [ih]
  | call fn arg mark ihFn ihArg =>
    rw [marked.eq_def]
    split
    · exact shape_tree ‹_›
    · simp only [Expr.shape, Expr.mapTypes] at ihFn ihArg ⊢
      rw [ihFn]
      split
      · rw [ihArg]
      · rfl
  | letIn name value body pos ihValue ihBody =>
    rw [marked.eq_def]
    split
    · exact shape_tree ‹_›
    · simp only [Expr.shape, Expr.mapTypes] at ihValue ihBody ⊢
      rw [ihValue]
      split
      · rw [ihBody]
      · rfl

theorem Stuck.marked_eq (stuck : Stuck env progress spot error) : marked env progress spot.given = spot.annotated := by
  obtain ⟨after, stopped⟩ := stuck.stops
  rw [marked.eq_def, stopped]
  cases stuck with
  | undefined unbound => rfl
  | mismatch clash =>
    obtain ⟨_, _, wentFn, wentArg, failed⟩ := clash
    dsimp only [Spot.given, Spot.annotated]
    rw [marked_of_ok wentFn, wentFn]
    dsimp only
    rw [marked_of_ok wentArg]

/-- What a run leaves of a node at which it stops is a node of what it leaves of the whole. -/
theorem Visits.mem_nodes_marked (visits : Visits env progress expr scope inner before node)
    (stopped : (typing inner node).run.run before = (.error stop, after)) (given : marked inner before node ≠ .absent) :
    marked inner before node ∈ (marked env progress expr).nodes := by
  induction visits with
  | here => exact Expr.mem_nodes_self given
  | @fn env _ progress _ _ fn arg _ mark visits ih =>
    have outer : (typing env (.call fn arg mark)).run.run progress = _ := (Visits.fn visits).stops stopped
    rw [marked.eq_def env progress, outer]
    exact List.mem_cons_of_mem _ (List.mem_append_left _ (ih stopped given))
  | @arg env _ progress _ _ _ fn arg _ mark _ wentFn visits ih =>
    have outer : (typing env (.call fn arg mark)).run.run progress = _ := (Visits.arg wentFn visits).stops stopped
    rw [marked.eq_def env progress, outer]
    dsimp only
    rw [wentFn]
    exact List.mem_cons_of_mem _ (List.mem_append_right _ (ih stopped given))
  | @body env _ progress _ _ param body _ mark visits ih =>
    have outer : (typing env (.func param body mark)).run.run progress = _ := (Visits.body visits).stops stopped
    rw [marked.eq_def env progress, outer]
    exact List.mem_cons_of_mem _ (ih stopped given)
  | @value env _ progress _ _ name value body _ pos visits ih =>
    have outer : (typing env (.letIn name value body pos)).run.run progress = _ := (Visits.value visits).stops stopped
    rw [marked.eq_def env progress, outer]
    exact List.mem_cons_of_mem _ (List.mem_append_left _ (ih stopped given))
  | @rest env _ progress _ _ _ name value body _ pos _ wentValue visits ih =>
    have outer : (typing env (.letIn name value body pos)).run.run progress = _ := (Visits.rest wentValue visits).stops stopped
    rw [marked.eq_def env progress, outer]
    dsimp only
    rw [wentValue]
    exact List.mem_cons_of_mem _ (List.mem_append_right _ (ih stopped given))

end Infer

theorem Mismatch.Arises.code_mem {sig : Signature} {reason : Mismatch} (arises : reason.Arises sig) :
    (Error.mismatch reason).code ∈ [3, 4, 5] := by
  cases arises <;> simp [Error.code]

/-- The failure is one of inference in an environment: it is about a variable that neither a binder around
it nor the environment binds, or about a call of parts that have their types and do not fit. Of the place
where inference stops, `node` is remembered, and the context is made of the texts of its parts. -/
inductive Failure.Concerns (env : Env) (start : Infer.Progress) (expr : Expr) (node : Spot → Expr) : Failure → Prop where
  | undefined {inner : Env} {before : Infer.Progress} {scope : List String} {name : String} {mark : Mark} :
      Infer.Visits env start expr scope inner before (.var name mark) → name ∉ scope → env.find? name = none →
      node (.var name mark) = .var name mark → Concerns env start expr node ⟨.undefined name mark.pos, .var name mark⟩
  | mismatch {inner : Env} {before : Infer.Progress} {scope : List String} {fn arg shownFn shownArg : Expr} {mark : Mark}
        {function argument : Typing} {reason : Mismatch} :
      Infer.Visits env start expr scope inner before (.call fn arg mark) →
      Infer.Clash inner before fn arg function argument reason → (Error.mismatch reason).code ∈ [3, 4, 5] →
      node (.call fn arg mark function.tree argument.tree) = .call shownFn shownArg mark →
      Concerns env start expr node
        ⟨.within ("cannot apply " ++ shownFn.render ++ " to " ++ shownArg.render) (.mismatch reason),
          .call shownFn shownArg mark⟩

theorem Expr.render_eq_of_shape {expr copy : Expr} (alike : copy.shape = expr.shape) : copy.render = expr.render := by
  have texts := congrArg Expr.render alike
  rwa [shape, shape, render_mapTypes, render_mapTypes] at texts

namespace Infer

variable {env inner : Env} {start before : Progress} {scope : List String} {expr : Expr} {spot : Spot} {error : Error}

theorem Visits.concerns (visits : Visits env start expr scope inner before spot.given) (stuck : Stuck inner before spot error)
    (arises : error.Arises .any) :
    Failure.Concerns env start expr Spot.given ⟨error, spot.given⟩ ∧
    Failure.Concerns env start expr Spot.annotated ⟨error, spot.annotated⟩ := by
  cases stuck with
  | undefined unbound =>
    obtain ⟨outside, absent⟩ := (visits.find?_eq_none_iff _).1 unbound
    exact ⟨.undefined visits outside absent rfl, .undefined visits outside absent rfl⟩
  | mismatch clash =>
    have code := (arises _ rfl).code_mem
    refine ⟨.mismatch visits clash code rfl, ?_⟩
    have ⟨_, _, wentFn, wentArg, _⟩ := clash
    rw [← Expr.render_eq_of_shape (shape_tree wentFn), ← Expr.render_eq_of_shape (shape_tree wentArg)]
    exact .mismatch visits clash code rfl

end Infer

/-- The session remembers the error of the answer and a node that it is about, one of the nodes of `tree`, or
nothing if there is no error. -/
def Answer.Remembers {α : Type} (env : Env) (start : Supply) (expr : Expr) (node : Spot → Expr) (tree : Expr)
    (answer : Answer α) : Prop :=
  match answer.outcome with
  | .ok _ => answer.session.failure = none
  | .error (.failed error) =>
    ∃ found ∈ tree.nodes, answer.session.failure = some ⟨error, found⟩ ∧
      Failure.Concerns env ⟨start, []⟩ expr node ⟨error, found⟩
  | .error (.fault _) => False

theorem Answer.Remembers.map {α β : Type} {env : Env} {start : Supply} {expr tree : Expr} {node : Spot → Expr}
    {answer : Answer α} (remembers : answer.Remembers env start expr node tree) (f : α → β) :
    (answer.map f).Remembers env start expr node tree := by
  unfold Answer.Remembers Answer.map at *
  rcases outcome : answer.outcome with (error | reason) | value <;> rw [outcome] at remembers <;> exact remembers

namespace Session

inductive Task where
  | infer (env : Env) (expr : Expr)
  | inferScheme (env : Env) (expr : Expr)
  | annotate (env : Env) (expr : Expr)
  | instantiate (scheme : Scheme)
  | reset

def perform (session : Session) : Task → Session
  | .infer env expr => (session.infer env expr).session
  | .inferScheme env expr => (session.inferScheme env expr).session
  | .annotate env expr => (session.annotate env expr).session
  | .instantiate scheme => (session.instantiate scheme).2
  | .reset => session.reset

def performAll (session : Session) (tasks : List Task) : Session := tasks.foldl perform session

variable {session : Session} {env : Env} {expr : Expr}

theorem idle_request (idle : session.supply.chosen = ∅) (node : Spot → Expr) (env : Env) (expr : Expr) :
    (session.request node env expr).session.supply.chosen = ∅ := by
  by_cases given : expr = .absent
  · rw [request, if_pos given]
    exact idle
  · rw [supply_request given, Infer.supply_run expr env idle, Supply.freshList_snd]
    exact idle

/-- No task leaves an instantiation under way. -/
theorem idle_perform (idle : session.supply.chosen = ∅) (task : Task) : (session.perform task).supply.chosen = ∅ := by
  cases task with
  | infer env expr => exact idle_request idle Spot.given env expr
  | inferScheme env expr => exact idle_request idle Spot.given env expr
  | annotate env expr => exact idle_request idle Spot.annotated env expr
  | instantiate scheme =>
    have after : (session.perform (.instantiate scheme)).supply = (session.supply.instantiate scheme).2 := rfl
    rw [after, Supply.instantiate_snd idle, Supply.freshList_snd]
    exact idle
  | reset => rfl

theorem idle_performAll (idle : session.supply.chosen = ∅) (tasks : List Task) :
    (session.performAll tasks).supply.chosen = ∅ := by
  induction tasks generalizing session with
  | nil => exact idle
  | cons task rest ih => exact ih (idle_perform idle task)

theorem remembers_request (whole : env.IsComplete) (proper : expr.isProper = true) (idle : session.supply.chosen = ∅)
    {node : Spot → Expr} {tree : Expr}
    (concerns : ∀ scope inner before spot error, Infer.Visits env ⟨session.supply, []⟩ expr scope inner before spot.given →
      Infer.Stuck inner before spot error → error.Arises .any →
      node spot ∈ tree.nodes ∧ Failure.Concerns env ⟨session.supply, []⟩ expr node ⟨error, node spot⟩) :
    (session.request node env expr).Remembers env session.supply expr node tree := by
  have given : expr ≠ .absent := by
    rintro rfl
    cases proper
  have reports := @Infer.reports_run _ Signature.basic_any (fun _ => trivial) expr env ⟨session.supply, []⟩
    whole.within_any idle (List.forall_mem_nil _)
  unfold request Answer.Remembers
  rw [if_neg given]
  rcases went : (Infer.typing env expr).run.run ⟨session.supply, []⟩ with ⟨stop | found, progress⟩
  · obtain ⟨error, spot, rfl⟩ := Infer.failed_of_isProper whole.within_any idle proper went
    obtain ⟨scope, inner, before, visits, stuck⟩ := Infer.failed_iff_stuck.1 ⟨_, went⟩
    obtain ⟨inTree, about⟩ := concerns scope inner before spot error visits stuck
      (reports.error error spot (congrArg Prod.fst went))
    exact ⟨_, inTree, rfl, about⟩
  · rfl

theorem remembers_given (whole : env.IsComplete) (proper : expr.isProper = true) (idle : session.supply.chosen = ∅) :
    (session.request Spot.given env expr).Remembers env session.supply expr Spot.given expr :=
  remembers_request whole proper idle fun _ _ _ spot _ visits stuck arises =>
    ⟨visits.mem_nodes spot.given_ne_absent, (visits.concerns stuck arises).1⟩

theorem remembers_annotated (whole : env.IsComplete) (proper : expr.isProper = true) (idle : session.supply.chosen = ∅) :
    (session.request Spot.annotated env expr).Remembers env session.supply expr Spot.annotated
      (Infer.marked env ⟨session.supply, []⟩ expr) := by
  refine remembers_request whole proper idle fun _ _ _ spot _ visits stuck arises => ⟨?_, (visits.concerns stuck arises).2⟩
  obtain ⟨after, stopped⟩ := stuck.stops
  rw [← stuck.marked_eq]
  exact visits.mem_nodes_marked stopped (stuck.marked_eq ▸ spot.annotated_ne_absent)

/-- Whatever a session has been asked before, it remembers the failure of the last request for an expression
in an environment without absent types, and nothing if that request succeeded. The failure is about a node
of the expression, or of the copy that was to be annotated, and its context names the parts of this node
only. An absent expression is refused and changes nothing. -/
theorem remembers_after (history : List Task) :
    let session := performAll {} history
    (∀ (env : Env) (expr : Expr), env.IsComplete → expr.isProper = true →
      let copy := Infer.marked env ⟨session.supply, []⟩ expr
      (session.infer env expr).Remembers env session.supply expr Spot.given expr ∧
      (session.inferScheme env expr).Remembers env session.supply expr Spot.given expr ∧
      (session.annotate env expr).Remembers env session.supply expr Spot.annotated copy ∧
      copy.shape = expr.shape) ∧
    ∀ env : Env, session.Each env .absent fun answer =>
      answer.outcome = .error (.failed (.plain "empty expression")) ∧ answer.session = session := by
  intro session
  have idle : session.supply.chosen = ∅ := idle_performAll rfl history
  refine ⟨fun env expr whole proper => ?_, fun env => ⟨⟨rfl, rfl⟩, ⟨rfl, rfl⟩, ⟨rfl, rfl⟩⟩⟩
  have remembers := remembers_given whole proper idle
  exact ⟨remembers, remembers.map _, (remembers_annotated whole proper idle).map _, Infer.shape_marked _ _ _⟩

/-- An earlier failure is forgotten. The argument of a call does not fit its own function, and the text of
the outer call is not added to the error. In the copy that was to be annotated the function and the
argument have their types, but neither call has one. -/
theorem remembers_after_nested :
    let history : List Task := [.infer ∅ (.var "lost" {}), .instantiate ⟨["a", "a"], .var "a"⟩, .annotate ∅ .absent]
    let session := performAll {} history
    let env : Env := Env.declare ∅ "inc" (.arrow .int .int)
    let inc : Expr := .var "inc" { type := .arrow .int .int }
    let inner : Expr := .call (.var "inc" {}) (.lit .bool "true" {}) { pos := ⟨1, 6⟩ }
    let innerMarked : Expr := .call inc (.lit .bool "true" { type := .bool }) { pos := ⟨1, 6⟩ }
    let expr : Expr := .call (.var "inc" {}) inner { pos := ⟨1, 1⟩ }
    let copy : Expr := .call inc innerMarked { pos := ⟨1, 1⟩ }
    let error : Error := .within "cannot apply inc to true" (.mismatch (.constructors "Int" "Bool"))
    session.failure = some ⟨.undefined "lost" {}, .var "lost" {}⟩ ∧ session.supply.next = 2 ∧
    (session.infer env expr).session.failure = some ⟨error, inner⟩ ∧
    (session.annotate env expr).session.failure = some ⟨error, innerMarked⟩ ∧
    Infer.marked env ⟨session.supply, []⟩ expr = copy ∧
    (session.infer env expr).Remembers env session.supply expr Spot.given expr ∧
    (session.annotate env expr).Remembers env session.supply expr Spot.annotated copy := by
  intro history session env inc inner innerMarked expr copy error
  have whole : env.IsComplete := Env.IsComplete.extend (fun name scheme lookup => nomatch lookup) (by decide)
  have left : Infer.marked env ⟨session.supply, []⟩ expr = copy := by cbv
  obtain ⟨inferred, _, annotated, _⟩ := (remembers_after history).1 env expr whole rfl
  rw [left] at annotated
  exact ⟨by cbv, by cbv, by cbv, by cbv, left, inferred, annotated⟩

end Session

end HindleyMilner
