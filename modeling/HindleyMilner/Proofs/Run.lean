import HindleyMilner.Proofs.Numbering
import HindleyMilner.Session

/-! Successful runs of inference, described by rules.

The rules number fresh variables by natural numbers and leave out the log. They describe inference
exactly as long as the counter does not run over, which is measured by the number of variables that
the run takes. -/

set_option autoImplicit false

namespace HindleyMilner

namespace Expr

/-- No node is absent, and every literal is of a known kind. -/
def isProper : Expr → Bool
  | .absent => false
  | .lit (.unknown _) _ _ => false
  | .lit _ _ _ => true
  | .var _ _ => true
  | .call fn arg _ => fn.isProper && arg.isProper
  | .func _ body _ => body.isProper
  | .letIn _ value body _ => value.isProper && body.isProper

end Expr

namespace Infer

variable {α β : Type}

def andThen (result : Except Stop α × Progress) (next : α → Progress → Except Stop β × Progress) :
    Except Stop β × Progress :=
  match result with
  | (.ok value, after) => next value after
  | (.error stop, after) => (.error stop, after)

@[simp] theorem andThen_ok (value : α) (after : Progress) (next : α → Progress → Except Stop β × Progress) :
    andThen (.ok value, after) next = next value after := rfl

@[simp] theorem andThen_error (stop : Stop) (after : Progress)
    (next : α → Progress → Except Stop β × Progress) :
    andThen (.error stop, after) next = (.error stop, after) := rfl

theorem andThen_eq_ok {result : Except Stop α × Progress} {next : α → Progress → Except Stop β × Progress}
    {value : β} {final : Progress} (went : andThen result next = (.ok value, final)) :
    ∃ first after, result = (.ok first, after) ∧ next first after = (.ok value, final) := by
  obtain ⟨outcome, after⟩ := result
  cases outcome with
  | error stop => cases went
  | ok first => exact ⟨first, after, rfl, went⟩

theorem andThen_eq_error {result : Except Stop α × Progress}
    {next : α → Progress → Except Stop β × Progress} {stop : Stop} {final : Progress}
    (went : andThen result next = (.error stop, final)) :
    result = (.error stop, final) ∨
      ∃ first after, result = (.ok first, after) ∧ next first after = (.error stop, final) := by
  obtain ⟨outcome, after⟩ := result
  cases outcome with
  | error _ =>
    cases went
    exact .inl rfl
  | ok first => exact .inr ⟨first, after, rfl, went⟩

theorem run_bind (step : Infer α) (next : α → Infer β) (progress : Progress) :
    (step >>= next).run.run progress =
      andThen (step.run.run progress) fun value after => (next value).run.run after := by
  rw [ExceptT.run_bind, StateT.run_bind]
  generalize step.run.run progress = result
  obtain ⟨outcome, after⟩ := result
  cases outcome <;> rfl

theorem run_fresh (progress : Progress) :
    fresh.run.run progress =
      (.ok (.var progress.supply.fresh.1), { progress with supply := progress.supply.fresh.2 }) := rfl

theorem run_emit (event : Event) (progress : Progress) :
    (emit event).run.run progress = (.ok (), { progress with events := event :: progress.events }) := rfl

section Equations

variable (env : Env) (progress : Progress)

theorem run_var (name : String) (mark : Mark) :
    (typing env (.var name mark)).run.run progress =
      match env.find? name with
      | none => (.error (.failed (.undefined name mark.pos) (.var name mark)), progress)
      | some scheme =>
        let (t, supply) := progress.supply.instantiate scheme
        (.ok ⟨∅, t, .var name { mark with type := t }⟩, { progress with supply }) := by
  rw [typing]
  cases env.find? name <;> rfl

theorem run_func (param : String) (body : Expr) (mark : Mark) :
    (typing env (.func param body mark)).run.run progress =
      let (name, supply) := progress.supply.fresh
      andThen ((typing (env.declare param (.var name)) body).run.run { progress with supply })
        fun found after =>
          let t := found.subst.apply (.arrow (.var name) found.type)
          (.ok ⟨found.subst, t, .func param found.tree { mark with type := t }⟩, after) := by
  rw [typing, run_bind, run_fresh, andThen_ok, run_bind]
  rfl

/-- The end of a call: both parts have their types, and the function is applied. -/
def apply (fn arg : Expr) (mark : Mark) (function argument : Typing) (progress : Progress) :
    Except Stop Typing × Progress :=
  let (name, supply) := progress.supply.fresh
  let actual := argument.subst.apply function.type
  let needed := Ty.arrow argument.type (.var name)
  match unify actual needed with
  | .error (.fault reason) => (.error (.fault reason), { progress with supply })
  | .error (.mismatch reason) =>
    (.error (.failed (.within (applying fn arg) (.mismatch reason)) (.call fn arg mark function.tree argument.tree)),
      ⟨supply, .unified actual needed (.error reason) :: progress.events⟩)
  | .ok s =>
    let t := s.apply (.var name)
    (.ok ⟨function.subst.compose (argument.subst.compose s), t,
      .call function.tree argument.tree { mark with type := t }⟩, ⟨supply, .unified actual needed (.ok s) :: progress.events⟩)

theorem run_call (fn arg : Expr) (mark : Mark) :
    (typing env (.call fn arg mark)).run.run progress =
      andThen ((typing env fn).run.run progress) fun function after =>
        andThen ((typing (env.subst function.subst) arg).run.run after) fun argument after =>
          apply fn arg mark function argument after := by
  rw [typing, run_bind]
  congr 1
  funext function after
  rw [run_bind]
  congr 1
  funext argument after
  rw [run_bind, run_fresh, andThen_ok]
  unfold apply
  dsimp only
  rcases unify (argument.subst.apply function.type) (Ty.arrow argument.type (.var after.supply.fresh.1)) with
    (reason | reason) | s <;> rfl

def bodyEnv (env : Env) (name : String) (definition : Typing) : Env :=
  let env := env.subst definition.subst
  env.extend name (env.generalize definition.type)

theorem run_letIn (name : String) (value body : Expr) (pos : Position) :
    (typing env (.letIn name value body pos)).run.run progress =
      andThen ((typing env value).run.run progress) fun definition after =>
        let scheme := (env.subst definition.subst).generalize definition.type
        andThen ((typing (bodyEnv env name definition) body).run.run
            { after with events := .generalized name scheme :: after.events }) fun found after =>
          (.ok ⟨definition.subst.compose found.subst, found.type,
            .letIn name definition.tree found.tree pos⟩, after) := by
  rw [typing, run_bind]
  congr 1
  funext definition after
  rw [run_bind, run_emit, andThen_ok, run_bind]
  rfl

end Equations

/-- How many fresh variables the run takes, whether it succeeds or not. -/
def demand (env : Env) (progress : Progress) : Expr → Nat
  | .absent => 0
  | .lit _ _ _ => 0
  | .var name _ =>
    match env.find? name with
    | none => 0
    | some scheme => scheme.bound.length
  | .func param body _ =>
    let (name, supply) := progress.supply.fresh
    1 + demand (env.declare param (.var name)) { progress with supply } body
  | .call fn arg _ =>
    demand env progress fn +
      match (typing env fn).run.run progress with
      | (.error _, _) => 0
      | (.ok function, after) =>
        let env := env.subst function.subst
        demand env after arg +
          match (typing env arg).run.run after with
          | (.error _, _) => 0
          | (.ok _, _) => 1
  | .letIn name value body _ =>
    demand env progress value +
      match (typing env value).run.run progress with
      | (.error _, _) => 0
      | (.ok definition, after) =>
        let scheme := (env.subst definition.subst).generalize definition.type
        demand (bodyEnv env name definition)
          { after with events := .generalized name scheme :: after.events } body

/-- A run from the number `n` keeps the counter within its 64 bits. -/
def Fits (env : Env) (n : Nat) (events : List Event) (expr : Expr) : Prop :=
  n + demand env ⟨.starting n, events⟩ expr < Supply.limit

/-- A run from the number `n` succeeds and leaves the next number at `m`. -/
inductive Run : Env → Nat → Expr → Typing → Nat → Prop where
  | lit {env : Env} {n : Nat} {kind : LiteralKind} {text : String} {mark : Mark} {t : Ty} :
      kind.type = .ok t →
      Run env n (.lit kind text mark) ⟨∅, t, .lit kind text { mark with type := t }⟩ n
  | var {env : Env} {n : Nat} {name : String} {mark : Mark} {scheme : Scheme} :
      env.find? name = some scheme →
      Run env n (.var name mark)
        ⟨∅, Supply.renewed n scheme, .var name { mark with type := Supply.renewed n scheme }⟩
        (n + scheme.bound.length)
  | func {env : Env} {n m : Nat} {param : String} {body : Expr} {mark : Mark} {found : Typing} {t : Ty} :
      Run (env.declare param (.var (Supply.numbered n))) (n + 1) body found m →
      t = found.subst.apply (.arrow (.var (Supply.numbered n)) found.type) →
      Run env n (.func param body mark) ⟨found.subst, t, .func param found.tree { mark with type := t }⟩ m
  | call {env : Env} {n m k : Nat} {fn arg : Expr} {mark : Mark} {function argument : Typing}
        {s : Subst} {t : Ty} :
      Run env n fn function m → Run (env.subst function.subst) m arg argument k →
      unify (argument.subst.apply function.type)
        (.arrow argument.type (.var (Supply.numbered k))) = .ok s →
      t = s.apply (.var (Supply.numbered k)) →
      Run env n (.call fn arg mark)
        ⟨function.subst.compose (argument.subst.compose s), t,
          .call function.tree argument.tree { mark with type := t }⟩
        (k + 1)
  | letIn {env : Env} {n m k : Nat} {name : String} {value body : Expr} {pos : Position}
        {definition found : Typing} :
      Run env n value definition m → Run (bodyEnv env name definition) m body found k →
      Run env n (.letIn name value body pos)
        ⟨definition.subst.compose found.subst, found.type,
          .letIn name definition.tree found.tree pos⟩ k

section Demand

variable {env : Env} {progress after : Progress}

theorem demand_call {fn arg : Expr} {function argument : Typing} {last : Progress} (mark : Mark)
    (wentFn : (typing env fn).run.run progress = (.ok function, after))
    (wentArg : (typing (env.subst function.subst) arg).run.run after = (.ok argument, last)) :
    demand env progress (.call fn arg mark) =
      demand env progress fn + (demand (env.subst function.subst) after arg + 1) := by
  simp only [demand, wentFn, wentArg]

theorem demand_fn_le (env : Env) (progress : Progress) (fn arg : Expr) (mark : Mark) :
    demand env progress fn ≤ demand env progress (.call fn arg mark) := by
  rw [demand]
  exact Nat.le_add_right _ _

theorem demand_arg_le {fn : Expr} {function : Typing} (arg : Expr) (mark : Mark)
    (wentFn : (typing env fn).run.run progress = (.ok function, after)) :
    demand env progress fn + demand (env.subst function.subst) after arg ≤
      demand env progress (.call fn arg mark) := by
  simp only [demand, wentFn]
  exact Nat.add_le_add_left (Nat.le_add_right _ _) _

theorem demand_value_le (env : Env) (progress : Progress) (name : String) (value body : Expr)
    (pos : Position) : demand env progress value ≤ demand env progress (.letIn name value body pos) := by
  rw [demand]
  exact Nat.le_add_right _ _

theorem demand_letIn {value : Expr} {definition : Typing} (name : String) (body : Expr) (pos : Position)
    (wentValue : (typing env value).run.run progress = (.ok definition, after)) :
    demand env progress (.letIn name value body pos) =
      demand env progress value +
        let scheme := (env.subst definition.subst).generalize definition.type
        demand (bodyEnv env name definition)
          { after with events := .generalized name scheme :: after.events } body := by
  simp only [demand, wentValue]

theorem demand_func {n : Nat} (below : n < Supply.limit) (env : Env) (events : List Event)
    (param : String) (body : Expr) (mark : Mark) :
    demand env ⟨.starting n, events⟩ (.func param body mark) =
      1 + demand (env.declare param (.var (Supply.numbered n))) ⟨.starting (n + 1), events⟩ body := by
  simp only [demand, Supply.fresh_starting n below]

end Demand

/-- A run within the limits that succeeds follows the rules. -/
theorem run_of_typing {env : Env} {expr : Expr} {n : Nat} {events : List Event} {found : Typing}
    {after : Progress} (fits : Fits env n events expr)
    (went : (typing env expr).run.run ⟨.starting n, events⟩ = (.ok found, after)) :
    ∃ m, Run env n expr found m ∧ after.supply = .starting m ∧
      m = n + demand env ⟨.starting n, events⟩ expr := by
  unfold Fits at fits
  induction expr generalizing env n events found after with
  | absent => cases went
  | lit kind text mark =>
    rw [typing] at went
    cases base : kind.type with
    | error fault =>
      rw [base] at went
      cases went
    | ok t =>
      rw [base] at went
      cases went
      exact ⟨n, .lit base, rfl, rfl⟩
  | var name mark =>
    unfold demand at fits
    rw [run_var] at went
    cases lookup : env.find? name with
    | none =>
      rw [lookup] at went
      cases went
    | some scheme =>
      simp only [lookup] at fits went
      rw [Supply.instantiate_starting n scheme (Nat.le_of_lt fits)] at went
      cases went
      exact ⟨_, .var lookup, rfl, by simp only [demand, lookup]⟩
  | func param body mark ih =>
    have below : n < Supply.limit := by omega
    have count := demand_func below env events param body mark
    rw [run_func, Supply.fresh_starting n below] at went
    dsimp only at went
    obtain ⟨inner, next, wentBody, rest⟩ := andThen_eq_ok went
    cases rest
    obtain ⟨m, run, supply, total⟩ := ih (by omega) wentBody
    exact ⟨m, .func run rfl, supply, by omega⟩
  | call fn arg mark ihFn ihArg =>
    rw [run_call] at went
    obtain ⟨function, ⟨supply, logged⟩, wentFn, went⟩ := andThen_eq_ok went
    obtain ⟨argument, ⟨last, loggedArg⟩, wentArg, went⟩ := andThen_eq_ok went
    -- The counter after a part is the one before it plus the demand of the part.
    have count := demand_call mark wentFn wentArg
    obtain ⟨m, runFn, rfl, totalFn⟩ := ihFn (by omega) wentFn
    obtain ⟨k, runArg, rfl, totalArg⟩ := ihArg (by omega) wentArg
    unfold apply at went
    rw [Supply.fresh_starting k (by omega)] at went
    dsimp only at went
    split at went
    · cases went
    · cases went
    · rename_i s unified
      cases went
      exact ⟨k + 1, .call runFn runArg unified rfl, rfl, by omega⟩
  | letIn name value body pos ihValue ihBody =>
    rw [run_letIn] at went
    obtain ⟨definition, ⟨supply, logged⟩, wentValue, went⟩ := andThen_eq_ok went
    obtain ⟨inner, last, wentBody, went⟩ := andThen_eq_ok went
    cases went
    have count := demand_letIn name body pos wentValue
    dsimp only at count wentBody
    obtain ⟨m, runValue, rfl, totalValue⟩ := ihValue (by omega) wentValue
    obtain ⟨k, runBody, supply, totalBody⟩ := ihBody (by omega) wentBody
    exact ⟨k, .letIn runValue runBody, supply, by omega⟩

/-- What follows the rules within the limits is what the run gives. -/
theorem typing_of_run {env : Env} {expr : Expr} {n m : Nat} {found : Typing} (run : Run env n expr found m)
    {events : List Event} (fits : Fits env n events expr) :
    ∃ logged, (typing env expr).run.run ⟨.starting n, events⟩ = (.ok found, ⟨.starting m, logged⟩) ∧
      m = n + demand env ⟨.starting n, events⟩ expr := by
  unfold Fits at fits
  induction run generalizing events with
  | lit base =>
    rw [typing, base]
    exact ⟨events, rfl, rfl⟩
  | @var env n name mark scheme lookup =>
    unfold demand at fits
    simp only [lookup] at fits
    refine ⟨events, ?_, by simp only [demand, lookup]⟩
    rw [run_var, lookup]
    dsimp only
    rw [Supply.instantiate_starting n scheme (Nat.le_of_lt fits)]
  | @func env n m param body mark found t _ type ih =>
    have below : n < Supply.limit := by omega
    have count := demand_func below env events param body mark
    obtain ⟨logged, went, total⟩ := @ih events (by omega)
    refine ⟨logged, ?_, by omega⟩
    rw [run_func, Supply.fresh_starting n below]
    dsimp only
    rw [went, type]
    rfl
  | @call env n m k fn arg mark function argument s t _ _ unified type ihFn ihArg =>
    -- That a part fits has to be known before its run is, so its demand is bounded first.
    have countFn := demand_fn_le env ⟨.starting n, events⟩ fn arg mark
    obtain ⟨logged, wentFn, totalFn⟩ := @ihFn events (by omega)
    have countArg := demand_arg_le arg mark wentFn
    obtain ⟨loggedArg, wentArg, totalArg⟩ := @ihArg logged (by omega)
    have count := demand_call mark wentFn wentArg
    rw [run_call, wentFn, andThen_ok, wentArg, andThen_ok]
    unfold apply
    rw [Supply.fresh_starting k (by omega)]
    dsimp only
    rw [unified, type]
    exact ⟨_, rfl, by omega⟩
  | @letIn env n m k name value body pos definition found _ _ ihValue ihBody =>
    have countValue := demand_value_le env ⟨.starting n, events⟩ name value body pos
    obtain ⟨logged, wentValue, totalValue⟩ := @ihValue events (by omega)
    have count := demand_letIn name body pos wentValue
    dsimp only at count
    rw [count, ← Nat.add_assoc, ← totalValue] at fits
    obtain ⟨loggedBody, wentBody, totalBody⟩ := ihBody fits
    refine ⟨loggedBody, ?_, by omega⟩
    rw [run_letIn, wentValue, andThen_ok]
    dsimp only
    rw [wentBody, andThen_ok]

end Infer

def Halt.ofStop : Stop → Halt
  | .failed error _ => .failed error
  | .fault reason => .fault reason

namespace Session

variable {session : Session} {node : Spot → Expr} {env : Env} {expr : Expr}

theorem outcome_request (given : expr ≠ .absent) :
    (session.request node env expr).outcome =
      ((Infer.typing env expr).run.run ⟨session.supply, []⟩).1.mapError Halt.ofStop := by
  unfold request
  rw [if_neg given]
  obtain ⟨(_ | _) | _, _⟩ := (Infer.typing env expr).run.run ⟨session.supply, []⟩ <;> rfl

theorem supply_request (given : expr ≠ .absent) :
    (session.request node env expr).session.supply =
      ((Infer.typing env expr).run.run ⟨session.supply, []⟩).2.supply := by
  unfold request
  rw [if_neg given]
  obtain ⟨(_ | _) | _, _⟩ := (Infer.typing env expr).run.run ⟨session.supply, []⟩ <;> rfl

theorem outcome_infer (given : expr ≠ .absent) :
    (session.infer env expr).outcome =
      ((Infer.typing env expr).run.run ⟨session.supply, []⟩).1.mapError Halt.ofStop := outcome_request given

theorem supply_infer (given : expr ≠ .absent) :
    (session.infer env expr).session.supply =
      ((Infer.typing env expr).run.run ⟨session.supply, []⟩).2.supply := supply_request given

/-- Which node is remembered with a failure has no influence on what is found and shown. -/
theorem request_node (session : Session) (node other : Spot → Expr) (env : Env) (expr : Expr) :
    (session.request node env expr).outcome = (session.request other env expr).outcome ∧
    (session.request node env expr).session.supply = (session.request other env expr).session.supply ∧
    (session.request node env expr).events = (session.request other env expr).events := by
  unfold request
  split
  · exact ⟨rfl, rfl, rfl⟩
  · obtain ⟨(_ | _) | _, _⟩ := (Infer.typing env expr).run.run ⟨session.supply, []⟩ <;> exact ⟨rfl, rfl, rfl⟩

theorem outcome_annotate (session : Session) (env : Env) (expr : Expr) : (session.annotate env expr).outcome =
    (session.infer env expr).outcome.map fun found => found.tree.mapTypes found.subst.apply := by
  unfold annotate Answer.map infer
  dsimp only
  rw [(session.request_node Spot.annotated Spot.given env expr).1]

end Session

end HindleyMilner
