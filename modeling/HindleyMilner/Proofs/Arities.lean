import HindleyMilner.Proofs.Printing

/-! Constructors that always have the same number of arguments.

If an environment uses some constructors with fixed numbers of arguments, then so does everything that
inference answers or reports. As long as function types have two arguments in it, inference meets no
fault, whatever is logged, and what it answers can be printed. -/

set_option autoImplicit false

namespace HindleyMilner

/-- Every name may stand for a variable; a constructor has the number of arguments that is given for
it, if any. -/
def Signature.ofArities (arity : String → Option Nat) : Signature :=
  ⟨fun _ => True, fun con count => ∀ n ∈ arity con, count = n⟩

variable {arity : String → Option Nat}

instance : DecidablePred (Signature.ofArities arity).var := fun _ => isTrue trivial

instance (con : String) (count : Nat) : Decidable ((Signature.ofArities arity).app con count) :=
  inferInstanceAs (Decidable (∀ n ∈ arity con, count = n))

theorem Signature.basic_ofArities (arrow : arity Ty.arrowName = some 2) (int : ∀ n ∈ arity "Int", n = 0)
    (bool : ∀ n ∈ arity "Bool", n = 0) : (ofArities arity).Basic where
  arrow _ given := Option.some.inj (arrow.symm.trans given)
  int n given := (int n given).symm
  bool n given := (bool n given).symm

theorem Mismatch.Arises.arity_eq_none {reason : Mismatch} (arises : reason.Arises (.ofArities arity)) {first second : Ty}
    (same : reason = .arity first second) : ∃ con as bs, first = .app con as ∧ second = .app con bs ∧ arity con = none := by
  cases arises with
  | @arity con as bs differ withinFirst withinSecond =>
    cases same
    refine ⟨con, as, bs, rfl, rfl, Option.eq_none_iff_forall_ne_some.2 fun n given => differ ?_⟩
    rw [(Ty.within_app.1 withinFirst).1 n given, (Ty.within_app.1 withinSecond).1 n given]
  | constructors => cases same
  | infinite => cases same

namespace Answer

variable {α : Type} {answer : Answer α} {types : α → List Ty}

/-- The request meets no fault, the types of its answer have the numbers of arguments that are given, and
the texts of the answer can be made. -/
structure Respects (arity : String → Option Nat) (types : α → List Ty) (answer : Answer α) : Prop where
  faultless : ∀ reason, answer.outcome ≠ .error (.fault reason)
  logged : ∀ config, ∃ log, answer.logged config = .ok (answer.outcome, log)
  value : ∀ value, answer.outcome = .ok value → ∀ t ∈ types value, t.Within (.ofArities arity) ∧ t.IsPrintable
  error : ∀ error, answer.outcome = .error (.failed error) →
    (∀ t ∈ error.types, t.Within (.ofArities arity)) ∧
    (∀ first second, error.root = .mismatch (.arity first second) →
      ∃ con as bs, first = .app con as ∧ second = .app con bs ∧ arity con = none) ∧
    ∃ text, error.message = .ok text

theorem Within.respects (arrow : arity Ty.arrowName = some 2) (within : answer.Within (.ofArities arity) types)
    (faultless : ∀ reason, answer.outcome ≠ .error (.fault reason)) : answer.Respects arity types := by
  have arrows (count : Nat) (applied : (Signature.ofArities arity).app Ty.arrowName count) : count = 2 := applied 2 arrow
  refine ⟨faultless, within.exists_logged arrows faultless, fun value outcome t mem => ?_, fun error outcome => ?_⟩
  · have withinType := within.value value outcome t mem
    exact ⟨withinType, withinType.isPrintable arrows⟩
  · have arises := within.error error outcome
    exact ⟨arises.within, fun first second root => (arises _ root).arity_eq_none rfl,
      Error.exists_message_iff.2 (arises.isPrintable_shown arrows)⟩

end Answer

namespace Session

variable {session : Session} {env : Env} {expr : Expr}

/-- In an environment that uses constructors with the given numbers of arguments, two for functions, and
for an expression without absent nodes and unknown literals, inference of a type, of a scheme and of the
types of all nodes meets no fault and keeps to the numbers of arguments. An error is never about a
constructor whose number of arguments is given. -/
theorem infer_respects (arrow : arity Ty.arrowName = some 2) (int : ∀ n ∈ arity "Int", n = 0)
    (bool : ∀ n ∈ arity "Bool", n = 0) (within : env.Within (.ofArities arity)) (proper : expr.isProper = true)
    (idle : session.supply.chosen = ∅) :
    (session.infer env expr).Respects arity Typing.types ∧
    (session.inferScheme env expr).Respects arity (fun scheme => [scheme.type]) ∧
    (∀ scheme, (session.inferScheme env expr).outcome = .ok scheme → ∃ text, scheme.render = .ok text) ∧
    (session.annotate env expr).Respects arity Expr.types := by
  have basic := Signature.basic_ofArities arrow int bool
  have names (v : String) : (Signature.ofArities arity).var v := trivial
  have noFault (reason : Fault) := outcome_infer_ne_fault within idle proper reason
  have scheme : (session.inferScheme env expr).Respects arity (fun scheme => [scheme.type]) :=
    (within_answer_inferScheme basic names within idle expr).respects arrow fun reason => mt Answer.map_eq_error.1 (noFault reason)
  refine ⟨(within_answer_infer basic names within idle expr).respects arrow noFault, scheme, fun found outcome => ?_, ?_⟩
  · exact Scheme.exists_render_iff.2 (scheme.value found outcome found.type List.mem_cons_self).2
  · exact (within_answer_annotate basic names within idle expr).respects arrow fun reason =>
      mt annotate_eq_error.1 (noFault reason)

/-- The function `wrap` puts a value into a list. A function cannot be applied to a list of itself; the
error is about the type that would contain itself. -/
theorem infer_respects_wrap :
    let arity (con : String) : Option Nat := [("->", 2), ("List", 1)].lookup con
    let list : Ty := .app "List" [.var "a"]
    let env : Env := Env.extend ∅ "wrap" ⟨["a"], .arrow (.var "a") list⟩
    let expr : Expr := .func "x" (.call (.var "x" {}) (.call (.var "wrap" {}) (.var "x" {}) {}) {}) {}
    (infer {} env expr).outcome = .error (.failed (.within "cannot apply x to (wrap x)"
      (.mismatch (.infinite "t0" (.arrow (.app "List" [.var "t0"]) (.var "t3")))))) ∧
    (infer {} env expr).Respects arity Typing.types ∧
    (inferScheme {} env expr).Respects arity (fun scheme => [scheme.type]) ∧
    (∀ scheme, (inferScheme {} env expr).outcome = .ok scheme → ∃ text, scheme.render = .ok text) ∧
    (annotate {} env expr).Respects arity Expr.types := by
  intro arity list env expr
  have within : env.Within (.ofArities arity) :=
    Env.Within.extend (fun name scheme found => by cases found) (by decide)
  exact ⟨by cbv, infer_respects rfl (by decide) (by decide) within rfl rfl⟩

end Session

end HindleyMilner
