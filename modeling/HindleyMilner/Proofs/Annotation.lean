import HindleyMilner.Proofs.Soundness
import HindleyMilner.Session

/-! Annotated expressions agree with inference.

Inference reads the shape of an expression only: it overwrites every assigned type and shows none in
an error. The tree of a successful run is a derivation, so each of its nodes has the type that its
parts and the binders around it call for. -/

set_option autoImplicit false

namespace HindleyMilner

/-- The types that were assigned before are changed; those assigned to the parts of a call stay. -/
def Spot.relabel (f : Ty → Ty) : Spot → Spot
  | .var name mark => .var name { mark with type := f mark.type }
  | .call fn arg mark fnTyped argTyped =>
    .call (fn.mapTypes f) (arg.mapTypes f) { mark with type := f mark.type } fnTyped argTyped

def Stop.relabel (f : Ty → Ty) : Stop → Stop
  | .failed error spot => .failed error (spot.relabel f)
  | .fault reason => .fault reason

namespace Infer

variable {α β : Type}

def relabel (f : Ty → Ty) (result : Except Stop α × Progress) : Except Stop α × Progress :=
  (result.1.mapError (Stop.relabel f), result.2)

theorem relabel_andThen (f : Ty → Ty) (result : Except Stop α × Progress)
    (next : α → Progress → Except Stop β × Progress) :
    relabel f (andThen result next) = andThen (relabel f result) fun value after => relabel f (next value after) := by
  obtain ⟨outcome, after⟩ := result
  cases outcome <;> rfl

theorem apply_mapTypes (f : Ty → Ty) (fn arg : Expr) (mark : Mark) (function argument : Typing)
    (progress : Progress) :
    apply (fn.mapTypes f) (arg.mapTypes f) { mark with type := f mark.type } function argument progress =
      relabel f (apply fn arg mark function argument progress) := by
  unfold apply applying
  rw [Expr.render_mapTypes, Expr.render_mapTypes]
  dsimp only
  split <;> rfl

/-- The types assigned to an expression before do not matter to a run. -/
theorem run_mapTypes (f : Ty → Ty) (env : Env) (expr : Expr) (progress : Progress) :
    (typing env (expr.mapTypes f)).run.run progress = relabel f ((typing env expr).run.run progress) := by
  induction expr generalizing env progress with
  | absent => rfl
  | lit kind text mark =>
    rw [Expr.mapTypes, typing, typing]
    cases kind.type <;> rfl
  | var name mark =>
    rw [Expr.mapTypes, run_var, run_var]
    cases env.find? name <;> rfl
  | call fn arg mark ihFn ihArg =>
    rw [Expr.mapTypes, run_call, run_call, relabel_andThen, ihFn]
    congr 1
    funext function after
    rw [relabel_andThen, ihArg]
    congr 1
    funext argument last
    exact apply_mapTypes f fn arg mark function argument last
  | func param body mark ih =>
    rw [Expr.mapTypes, run_func, run_func]
    dsimp only
    rw [relabel_andThen, ih]
    rfl
  | letIn name value body pos ihValue ihBody =>
    rw [Expr.mapTypes, run_letIn, run_letIn, relabel_andThen, ihValue]
    congr 1
    funext definition after
    dsimp only
    rw [relabel_andThen, ihBody]
    rfl

end Infer

/-- What a name bound inside an expression stands for: a parameter of a type, or a definition whose
value has a type. -/
inductive Binder where
  | param (domain : Ty)
  | definition (type : Ty)

def Binder.Admits : Binder → Ty → Prop
  | .param domain, t => t = domain
  | .definition type, t => ∃ r : Subst, t = r.apply type

namespace Expr

/-- Each node has the type that its parts call for, and each occurrence of a name that is in scope
has a type that its binder admits. -/
def Consistent (scope : NameMap Binder) : Expr → Prop
  | .absent => False
  | .lit kind _ mark => kind.type = .ok mark.type
  | .var name mark => ∀ binder, scope.find? name = some binder → binder.Admits mark.type
  | .call fn arg mark => fn.type = .arrow arg.type mark.type ∧ fn.Consistent scope ∧ arg.Consistent scope
  | .func param body mark =>
    ∃ domain, mark.type = .arrow domain body.type ∧ body.Consistent (scope.insert param (.param domain))
  | .letIn name value body _ =>
    value.Consistent scope ∧ body.Consistent (scope.insert name (.definition value.type))

end Expr

/-- The environment has a scheme for each name in scope, whose instances the binder admits. -/
def Env.Supports (scope : NameMap Binder) (env : Env) : Prop :=
  ∀ name binder, scope.find? name = some binder →
    ∃ scheme, env.find? name = some scheme ∧ ∀ t, scheme.Instance t → binder.Admits t

namespace Derives

variable {generic : String → Prop} {env : Env} {tree : Expr} {scope : NameMap Binder}

theorem supports_insert {binder : Binder} {scheme : Scheme} {name : String} (supports : env.Supports scope)
    (admits : ∀ t, scheme.Instance t → binder.Admits t) :
    Env.Supports (scope.insert name binder) (env.extend name scheme) := by
  intro query found inScope
  rw [NameMap.find?_insert] at inScope
  rw [Env.find?_extend]
  split at inScope
  · rename_i same
    cases inScope
    exact ⟨scheme, if_pos same, admits⟩
  · rename_i other
    rw [if_neg other]
    exact supports query found inScope

theorem consistent (derived : Derives generic env tree) (supports : env.Supports scope) :
    tree.Consistent scope := by
  -- Names free in the whole tree are in the environment and not in the scope.
  induction derived generalizing scope with
  | lit base => exact base
  | @var env name mark scheme lookup found _ =>
    intro binder inScope
    obtain ⟨other, lookupOther, admits⟩ := supports name binder inScope
    rw [lookup] at lookupOther
    cases lookupOther
    exact admits _ found
  | @func env param body mark domain _ _ type ih =>
    exact ⟨domain, type, ih (supports_insert supports fun t found => Scheme.instance_mono.1 found)⟩
  | call _ _ type ihFn ihArg => exact ⟨type, ihFn supports, ihArg supports⟩
  | @letIn env name value body pos scheme _ general _ _ ihValue ihBody =>
    refine ⟨ihValue supports, ihBody (supports_insert supports fun t found => ?_)⟩
    obtain ⟨r, _, rfl⟩ := found
    exact ⟨r, by rw [general.1]⟩

end Derives

namespace Session

variable {session other : Session} {env : Env} {expr : Expr} {n : Nat} {found : Typing}

/-- The outcome of a request depends on the next number and on the shape of the expression. -/
theorem outcome_infer_mapTypes (same : session.supply = other.supply) (env : Env) (expr : Expr) (f : Ty → Ty) :
    (session.infer env (expr.mapTypes f)).outcome = (other.infer env expr).outcome := by
  by_cases missing : expr = .absent
  · subst missing
    rfl
  · rw [outcome_infer missing, outcome_infer (mt Expr.mapTypes_eq_absent.1 missing), Infer.run_mapTypes, same]
    unfold Infer.relabel
    rcases (Infer.typing env expr).run.run ⟨other.supply, []⟩ with ⟨outcome, progress⟩
    cases outcome with
    | ok found => rfl
    | error stop => cases stop <;> rfl

theorem outcome_infer_of_shape {copy : Expr} (same : session.supply = other.supply)
    (alike : copy.shape = expr.shape) : (session.infer env copy).outcome = (other.infer env expr).outcome := by
  have bare : (session.infer env expr.shape).outcome = (other.infer env expr).outcome :=
    outcome_infer_mapTypes same env expr _
  have bareCopy : (session.infer env copy.shape).outcome = (session.infer env copy).outcome :=
    outcome_infer_mapTypes rfl env copy _
  rw [← bareCopy, alike, bare]

theorem run_of_infer (start : session.supply = .starting n) (fits : Infer.Fits env n [] expr)
    (answered : (session.infer env expr).outcome = .ok found) : ∃ m, Infer.Run env n expr found m := by
  have given : expr ≠ .absent := by
    rintro rfl
    cases answered
  rw [outcome_infer given, start] at answered
  rcases went : (Infer.typing env expr).run.run ⟨.starting n, []⟩ with ⟨outcome, after⟩
  rw [went] at answered
  cases outcome with
  | error stop => cases answered
  | ok value =>
    cases answered
    obtain ⟨m, run, _, _⟩ := Infer.run_of_typing fits went
    exact ⟨m, run⟩

/-- Annotation agrees with inference from the same number and is consistent. It fails exactly where
inference fails, with the same error; otherwise the tree has the shape of the expression and the
inferred type, and each node fits its parts and the binders around it. Types assigned before do not
matter. -/
theorem annotate_consistent (session other : Session) (env : Env) (expr : Expr) (n : Nat)
    (start : session.supply = .starting n) (startOther : other.supply = .starting n) (safe : env.Safe n)
    (fits : Infer.Fits env n [] expr) :
    (∀ halt, (session.annotate env expr).outcome = .error halt ↔
      (other.infer env expr).outcome = .error halt) ∧
    (∀ tree, (session.annotate env expr).outcome = .ok tree →
      tree.shape = expr.shape ∧ tree.Consistent ∅ ∧
        ∃ found, (other.infer env expr).outcome = .ok found ∧ tree.type = found.type) ∧
    ∀ copy : Expr, copy.shape = expr.shape →
      (session.annotate env copy).outcome = (session.annotate env expr).outcome := by
  have agrees : (session.infer env expr).outcome = (other.infer env expr).outcome :=
    outcome_infer_of_shape (start.trans startOther.symm) rfl
  simp only [outcome_annotate]
  rw [agrees]
  refine ⟨fun halt => ?_, fun tree annotated => ?_, fun copy alike => ?_⟩
  · cases (other.infer env expr).outcome with
    | error reason =>
      constructor
      · rintro ⟨⟩
        rfl
      · rintro ⟨⟩
        rfl
    | ok found => exact ⟨nofun, nofun⟩
  · cases answered : (other.infer env expr).outcome with
    | error reason =>
      rw [answered] at annotated
      cases annotated
    | ok found =>
      rw [answered] at annotated
      cases annotated
      obtain ⟨m, run⟩ := run_of_infer startOther fits answered
      have sound := run.sound safe
      refine ⟨(Expr.shape_mapTypes _ _).trans run.shape_tree, sound.derives.consistent nofun, found, rfl, ?_⟩
      rw [Expr.type_mapTypes_apply, sound.assigned, (run.settled safe).settled]
  · rw [← agrees, outcome_infer_of_shape rfl alike]

/-- A copy of the expression with a type already at each node is annotated like the bare one. -/
theorem annotate_consistent_opened :
    ∃ tree, (annotate {} Env.opened .mixed).outcome = .ok tree ∧ tree.type = .var "t5" ∧
      tree.shape = Expr.mixed.shape ∧ tree.Consistent ∅ ∧
      (annotate {} Env.opened (Expr.mixed.mapTypes fun _ => .bool)).outcome = .ok tree := by
  obtain ⟨_, success, copies⟩ :=
    annotate_consistent {} {} Env.opened .mixed 0 rfl rfl (Env.safe_opened 0) Infer.fits_mixed
  have computed : (annotate {} Env.opened .mixed).outcome.toOption.map Expr.type = some (.var "t5") := by cbv
  cases annotated : (annotate {} Env.opened .mixed).outcome with
  | error halt =>
    rw [annotated] at computed
    cases computed
  | ok tree =>
    rw [annotated] at computed
    obtain ⟨shape, consistent, _⟩ := success tree annotated
    refine ⟨tree, rfl, Option.some.inj computed, shape, consistent, ?_⟩
    rw [copies _ (Expr.shape_mapTypes _ _), annotated]

end Session

end HindleyMilner
