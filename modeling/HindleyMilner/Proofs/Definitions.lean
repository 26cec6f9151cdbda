import HindleyMilner.Proofs.Annotation
import HindleyMilner.Proofs.Principality
import HindleyMilner.Proofs.Renaming

/-! Definitions made in a session, one after the other, and nested local definitions.

A session infers a scheme for each definition and binds the name to it. Starting from a closed
environment every such scheme is closed, so only its instances matter, and these are the instances
of a principal type. Which numbers the schemes were made with, and whether the session started
again in between, can therefore be told from the names of variables at most. -/

set_option autoImplicit false

namespace HindleyMilner

section Declarative

variable {env typed : Env} {expr value body : Expr} {name : String} {pos : Position} {t u : Ty}

/-- What has a type in an environment has it in one that is at least as general. -/
theorem HasType.of_covers (derivation : HasType typed expr t) (covers : Env.Covers ∅ env typed) :
    HasType env expr t := by
  induction derivation generalizing env with
  | lit base => exact .lit base
  | @var typed name mark general t lookup found whole =>
    obtain ⟨scheme, lookupEnv, each⟩ := covers.exists_scheme lookup
    exact .var lookupEnv (each t found) whole
  | func wholeDomain _ ih => exact .func wholeDomain (ih (covers.extend fun _ found => found))
  | call _ _ ihFn ihArg => exact .call (ihFn covers) (ihArg covers)
  | @letIn typed name value body pos general t u _ quantifies _ ihValue ihBody =>
    -- Fewer variables are free in the more general environment, so more of them are quantified.
    rw [← Subst.apply_empty t] at quantifies
    exact .letIn (ihValue covers) (env.generalizes_generalize t)
      (ihBody (covers.extend (covers.generalize quantifies)))

/-- The type is one of the expression, and all types of the expression are instances of it. -/
def Principal (env : Env) (expr : Expr) (t : Ty) : Prop :=
  HasType env expr t ∧ ∀ u, HasType env expr u → ∃ r : Subst, u = r.apply t

theorem Env.IsClosed.generalized (closed : env.IsClosed) (name : String) (t : Ty) :
    IsClosed (env.extend name (env.generalize t)) := fun v free => closed v (free_of_free_generalized free)

/-- In a closed environment a local definition is as good as one that is in the environment with its
principal type. -/
theorem hasType_letIn_iff (closed : env.IsClosed) (principal : Principal env value t) :
    HasType env (.letIn name value body pos) u ↔ HasType (env.extend name (env.generalize t)) body u := by
  constructor
  · intro derivation
    cases derivation with
    | letIn typedValue quantifies typedBody =>
      -- The definition may have been given a less general type.
      obtain ⟨r, rfl⟩ := principal.2 _ typedValue
      have covers : Env.Covers r env env := (Env.covers_refl env).congr fun v free => absurd free (closed v)
      have coversBody : Env.Covers r (env.extend name (env.generalize t)) (env.extend name _) :=
        covers.extend (covers.generalize quantifies)
      exact typedBody.of_covers (coversBody.congr fun v free => absurd free (closed.generalized name t v))
  · exact .letIn principal.1 (env.generalizes_generalize t)

end Declarative

inductive Request where
  | define (name : String) (value : Expr) (pos : Position)
  | reset

def Expr.lets (body : Expr) : List Request → Expr
  | [] => body
  | .define name value pos :: rest => .letIn name value (body.lets rest) pos
  | .reset :: rest => body.lets rest

namespace Session

def define (session : Session) (env : Env) (name : String) (value : Expr) : Except Halt (Session × Env) :=
  let answer := session.inferScheme env value
  answer.outcome.map fun scheme => (answer.session, env.extend name scheme)

def inferAfter (session : Session) (env : Env) (expr : Expr) : List Request → Except Halt Typing
  | [] => (session.infer env expr).outcome
  | .define name value _ :: rest =>
    match session.define env name value with
    | .error halt => .error halt
    | .ok (session, env) => session.inferAfter env expr rest
  | .reset :: rest => session.reset.inferAfter env expr rest

/-- A run of inference keeps the counter of the session within its 64 bits. -/
def Fits (session : Session) (env : Env) (expr : Expr) : Prop :=
  ∃ n, session.supply = .starting n ∧ Infer.Fits env n [] expr

def FitsAfter (session : Session) (env : Env) (expr : Expr) : List Request → Prop
  | [] => session.Fits env expr
  | .define name value _ :: rest =>
    session.Fits env value ∧
      ∀ next, session.define env name value = .ok next → next.1.FitsAfter next.2 expr rest
  | .reset :: rest => session.reset.FitsAfter env expr rest

/-- The outcome is a principal type, or a failure on an expression without a type. -/
def Decides (env : Env) (expr : Expr) : Except Halt Typing → Prop
  | .ok found => Principal env expr found.type
  | .error _ => ∀ t, ¬ HasType env expr t

variable {session : Session} {env : Env} {expr value : Expr} {requests : List Request} {n m : Nat}
  {found : Typing} {name : String}

theorem Decides.alike {first second : Except Halt Typing} (decides : Decides env expr first)
    (also : Decides env expr second) : Alike first second := by
  cases first with
  | ok found =>
    cases second with
    | ok other =>
      obtain ⟨s, forth⟩ := decides.2 _ also.1
      obtain ⟨r, back⟩ := also.2 _ decides.1
      exact Ty.alphaEquals_of_instances decides.1.isComplete forth back
    | error halt => exact also _ decides.1
  | error halt =>
    cases second with
    | ok other => exact decides _ also.1
    | error halt => trivial

theorem exists_ok_of_type {outcome : Except Halt Typing} {t : Ty}
    (computed : outcome.toOption.map Typing.type = some t) :
    ∃ found, outcome = .ok found ∧ found.type = t := by
  cases outcome with
  | ok found => exact ⟨found, rfl, Option.some.inj computed⟩
  | error halt => cases computed

theorem infer_of_run (start : session.supply = .starting n) (fits : Infer.Fits env n [] expr)
    (run : Infer.Run env n expr found m) :
    m < Supply.limit ∧ ∃ events, session.infer env expr = ⟨.ok found, ⟨.starting m, none⟩, events⟩ := by
  have given : expr ≠ .absent := by
    rintro rfl
    cases run
  obtain ⟨logged, went, total⟩ := Infer.typing_of_run run fits
  unfold infer request
  rw [if_neg given, start, went]
  exact ⟨total ▸ fits, _, rfl⟩

theorem decides_infer (closed : env.IsClosed) (whole : env.IsComplete) (fits : session.Fits env expr) :
    Decides env expr (session.infer env expr).outcome := by
  obtain ⟨n, start, fits⟩ := fits
  have safe := Env.safe_of_isClosed whole closed n
  -- A type of the expression makes the run succeed, so a failure leaves no type at all.
  have complete (u : Ty) (derivation : HasType env expr u) :
      ∃ found, (session.infer env expr).outcome = .ok found ∧ ∃ r : Subst, u = r.apply found.type := by
    obtain ⟨found, m, run, r, type, _⟩ := Infer.exists_run_of_hasType derivation (Env.covers_refl env) safe
    obtain ⟨_, events, answered⟩ := infer_of_run start fits run
    exact ⟨found, by rw [answered], r, type⟩
  cases answered : (session.infer env expr).outcome with
  | error halt =>
    intro u derivation
    obtain ⟨found, succeeded, _⟩ := complete u derivation
    rw [answered] at succeeded
    cases succeeded
  | ok found =>
    obtain ⟨m, run⟩ := run_of_infer start fits answered
    have derivation := run.hasType safe
    rw [Env.subst_of_isClosed closed] at derivation
    refine ⟨derivation, fun u typed => ?_⟩
    obtain ⟨other, succeeded, instantiates⟩ := complete u typed
    rw [answered] at succeeded
    cases succeeded
    exact instantiates

theorem define_of_isClosed (closed : env.IsClosed) :
    session.define env name value = (session.infer env value).outcome.map fun found =>
      ((session.infer env value).session, env.extend name (env.generalize found.type)) := by
  unfold define inferScheme Answer.map
  cases (session.infer env value).outcome with
  | error halt => rfl
  | ok found =>
    dsimp only [Except.map]
    rw [Env.subst_of_isClosed closed]

theorem decides_inferAfter (closed : env.IsClosed) (whole : env.IsComplete)
    (fits : session.FitsAfter env expr requests) :
    Decides env (expr.lets requests) (session.inferAfter env expr requests) := by
  induction requests generalizing session env with
  | nil => exact decides_infer closed whole fits
  | cons request rest ih =>
    cases request with
    | reset => exact ih closed whole fits
    | define name value pos =>
      obtain ⟨fitsValue, fitsRest⟩ := fits
      have decides := decides_infer closed whole fitsValue
      rw [define_of_isClosed closed] at fitsRest
      rw [inferAfter, define_of_isClosed closed, Expr.lets]
      cases answered : (session.infer env value).outcome with
      | error halt =>
        rw [answered] at decides
        intro u derivation
        cases derivation with
        | letIn typedValue => exact decides _ typedValue
      | ok found =>
        rw [answered] at decides fitsRest
        have principal : Principal env value found.type := decides
        have later := ih (closed.generalized name found.type) (whole.extend principal.1.isComplete)
          (fitsRest _ rfl)
        -- The nested definition types the same as its body in the extended environment.
        dsimp only [Except.map]
        revert later
        unfold Decides Principal
        simp only [hasType_letIn_iff closed principal, imp_self]

theorem Fits.of_starting (fits : session.Fits env expr) (start : session.supply = .starting n)
    (below : n < Supply.limit) : Infer.Fits env n [] expr := by
  obtain ⟨k, startOther, fits⟩ := fits
  have belowOther : k < Supply.limit := Nat.lt_of_le_of_lt (Nat.le_add_right k _) fits
  rwa [Supply.starting_injective below belowOther (start.symm.trans startOther)]

theorem inferAfter_of_run (closed : env.IsClosed) (start : session.supply = .starting n)
    (below : n < Supply.limit) (fits : session.FitsAfter env expr requests) (kept : .reset ∉ requests)
    (run : Infer.Run env n (expr.lets requests) found m) :
    ∃ last, session.inferAfter env expr requests = .ok last ∧ last.type = found.type := by
  -- The session takes the numbers that the nested expression takes, so each value is found the same.
  induction requests generalizing session env n found with
  | nil =>
    obtain ⟨_, events, answered⟩ := infer_of_run start (Fits.of_starting fits start below) run
    exact ⟨found, by rw [inferAfter, answered], rfl⟩
  | cons request rest ih =>
    cases request with
    | reset => exact absurd List.mem_cons_self kept
    | define name value pos =>
      obtain ⟨fitsValue, fitsRest⟩ := fits
      cases run with
      | @letIn _ _ k _ _ _ _ _ definition found runValue runBody =>
        obtain ⟨belowNext, events, answered⟩ := infer_of_run start (fitsValue.of_starting start below) runValue
        rw [Infer.bodyEnv, Env.subst_of_isClosed closed] at runBody
        rw [define_of_isClosed closed, answered] at fitsRest
        rw [inferAfter, define_of_isClosed closed, answered]
        have keptRest : .reset ∉ rest := fun later => kept (List.mem_cons_of_mem _ later)
        obtain ⟨last, answeredRest, type⟩ :=
          ih (closed.generalized name definition.type) rfl belowNext (fitsRest _ rfl) keptRest runBody
        exact ⟨last, answeredRest, type⟩

/-- Definitions made in a session agree with nested local definitions. The one succeeds where the
other does, with types that are equal up to the names of variables, even if the session starts again
in between. If it does not, and both start from the same number, the types are the same. -/
theorem inferAfter_lets (session other : Session) (env : Env) (requests : List Request) (expr : Expr)
    (closed : env.IsClosed) (whole : env.IsComplete) (fits : session.FitsAfter env expr requests)
    (fitsLets : other.Fits env (expr.lets requests)) :
    Alike (session.inferAfter env expr requests) (other.infer env (expr.lets requests)).outcome ∧
    (.reset ∉ requests → session.supply = other.supply →
      (session.inferAfter env expr requests).toOption.map Typing.type =
        (other.infer env (expr.lets requests)).outcome.toOption.map Typing.type) := by
  have alike := (decides_inferAfter closed whole fits).alike (decides_infer closed whole fitsLets)
  refine ⟨alike, fun kept same => ?_⟩
  obtain ⟨n, start, fitsLets⟩ := fitsLets
  cases nested : (other.infer env (expr.lets requests)).outcome with
  | ok found =>
    obtain ⟨m, run⟩ := run_of_infer start fitsLets nested
    have below : n < Supply.limit := Nat.lt_of_le_of_lt (Nat.le_add_right n _) fitsLets
    obtain ⟨last, answered, type⟩ := inferAfter_of_run closed (same.trans start) below fits kept run
    rw [answered]
    exact congrArg some type
  | error halt =>
    rw [nested] at alike
    cases answered : session.inferAfter env expr requests with
    | ok last =>
      rw [answered] at alike
      exact absurd alike id
    | error _ => rfl

/-- The identity is applied to itself. After a new start the number in its scheme is given out again;
without one the type has the number that it has in the nested expression. -/
theorem inferAfter_lets_identity :
    let expr : Expr := .call (.var "id" {}) (.var "id" {}) {}
    let identity : Request := .define "id" (.func "x" (.var "x" {}) {}) {}
    (inferAfter {} ∅ expr [identity, .reset]).toOption.map Typing.type = some (.arrow (.var "t1") (.var "t1")) ∧
    Alike (inferAfter {} ∅ expr [identity, .reset]) (infer {} ∅ (expr.lets [identity, .reset])).outcome ∧
    (inferAfter {} ∅ expr [identity]).toOption.map Typing.type = some (.arrow (.var "t2") (.var "t2")) ∧
    (inferAfter {} ∅ expr [identity]).toOption.map Typing.type =
      (infer {} ∅ (expr.lets [identity])).outcome.toOption.map Typing.type := by
  have closed : Env.IsClosed ∅ := by
    rintro v ⟨name, scheme, lookup, _⟩
    cases lookup
  have whole : Env.IsComplete ∅ := by
    intro name scheme lookup
    cases lookup
  intro expr identity
  have fitsValue : Fits {} ∅ (.func "x" (.var "x" {}) {}) := ⟨0, rfl, by unfold Infer.Fits; cbv⟩
  have fitsLets : Fits {} ∅ (expr.lets [identity]) := ⟨0, rfl, by unfold Infer.Fits; cbv⟩
  have defined : define {} ∅ "id" (.func "x" (.var "x" {}) {}) =
    .ok (⟨.starting 1, none⟩, Env.extend ∅ "id" ⟨["t0"], .arrow (.var "t0") (.var "t0")⟩) := by cbv
  refine ⟨by cbv, ?_, by cbv, ?_⟩
  · refine (inferAfter_lets {} {} ∅ [identity, .reset] expr closed whole ⟨fitsValue, ?_⟩ fitsLets).1
    rw [defined]
    rintro _ ⟨⟩
    exact ⟨0, rfl, by unfold Infer.Fits; cbv⟩
  · refine (inferAfter_lets {} {} ∅ [identity] expr closed whole ⟨fitsValue, ?_⟩ fitsLets).2 (by simp [identity]) rfl
    rw [defined]
    rintro _ ⟨⟩
    exact ⟨1, rfl, by unfold Infer.Fits; cbv⟩

end Session

end HindleyMilner
