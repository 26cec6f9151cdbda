import HindleyMilner.Proofs.Annotation
import HindleyMilner.Proofs.ClosedSchemes
import HindleyMilner.Proofs.EnvironmentNames

/-! The number that inference starts from.

Two supplies that start from different numbers give out names that correspond, the number of each moved by
one distance. Moving numbers also moves those names that a closed scheme happens to quantify over, which does
not matter. So in a closed environment inference finds the same from any number, with the variables
renumbered. -/

set_option autoImplicit false

namespace HindleyMilner

namespace Supply

/-- Every number is moved by the distance, around the end of the counter. -/
def move (distance : Int64) : Equiv.Perm Int64 where
  toFun number := number + distance
  invFun number := number - distance
  left_inv number := Int64.add_sub_cancel number distance
  right_inv number := Int64.sub_add_cancel number distance

open Classical in
/-- Every numbered variable is given the number at the distance from its own; other names stay. -/
noncomputable def shift (distance : Int64) : Equiv.Perm String :=
  (move distance).extendDomain (Equiv.ofInjective nameOf fun _ _ same => nameOf_injective same)

theorem shift_nameOf (distance number : Int64) : shift distance (nameOf number) = nameOf (number + distance) :=
  Equiv.Perm.extendDomain_apply_image _ (Equiv.ofInjective nameOf _) number

theorem follows_shift (distance : Int64) (count : Nat) (start : Int64) :
    Follows (shift distance) count start (start + distance) := by
  induction count generalizing start with
  | zero => trivial
  | succ count ih =>
    refine ⟨(shift_nameOf distance start).symm, ?_⟩
    rw [Int64.add_assoc, Int64.add_comm distance, ← Int64.add_assoc]
    exact ih (start + 1)

end Supply

namespace Infer

variable {π : Equiv.Perm String} {env : Env}

/-- In a closed environment two runs correspond if the names given out to them do. -/
theorem corresponds_of_isClosed (closed : env.IsClosed) (expr : Expr) {first second : Progress}
    (inStep : ∀ count, Supply.InStep π count first.supply second.supply) (count : Nat) :
    Corresponds π count ((typing env expr).run.run first) ((typing env expr).run.run second) := by
  -- The environment is renamed for the second run first, and then its own names are put back.
  have unlabelled : (typing (env.rename π) expr).run.run second = (typing env expr).run.run second :=
    run_relabels expr (Env.relabels_rename π closed)
  rw [← unlabelled]
  exact run_rename expr env (inStep _)

theorem demand_of_isClosed (closed : env.IsClosed) (expr : Expr) {first second : Progress}
    (inStep : ∀ count, Supply.InStep π count first.supply second.supply) :
    demand env second expr = demand env first expr := by
  rw [← demand_relabels expr (Env.relabels_rename π closed)]
  exact demand_rename expr env (inStep (demand env first expr + 0))

end Infer

theorem Supply.Follows.names_freshList {π : Equiv.Perm String} {count : Nat} {first second : Supply}
    (follows : Follows π count first.next second.next) :
    (freshList count second).1 = (freshList count first).1.map π := by
  induction count generalizing first second with
  | zero => rfl
  | succ count ih =>
    have later : (freshList count second.fresh.2).1 = (freshList count first.fresh.2).1.map π := ih follows.2
    rw [freshList, freshList]
    dsimp only
    rw [List.map_cons, later]
    exact congrArg (· :: _) follows.1

theorem Env.generalize_rename_of_isClosed {env : Env} (closed : env.IsClosed) (π : Equiv.Perm String) (t : Ty) :
    env.generalize (t.rename π) = (env.generalize t).rename π := by
  rw [← (Env.relabels_rename π closed).generalize_eq, Env.generalize_rename]

theorem Error.code_rename (π : Equiv.Perm String) (error : Error) : (error.rename π).code = error.code := by
  induction error with
  | mismatch reason => cases reason <;> rfl
  | within context cause ih => exact ih
  | _ => rfl

namespace Session

variable {α β : Type} {session other : Session} {env : Env} {expr : Expr} {π : Equiv.Perm String}

/-- Both requests have an answer, the second one with other names, or both end in the same way without one. -/
def AlikeUnder (π : Equiv.Perm String) (rename : α → α) : Except Halt α → Except Halt α → Prop
  | .ok answer, .ok other => other = rename answer
  | .error (.failed error), .error (.failed other) => other = error.rename π ∧ other.code = error.code
  | .error (.fault fault), .error (.fault other) => other = fault
  | _, _ => False

theorem AlikeUnder.map {rename : α → α} {renameResult : β → β} {f : α → β} {first second : Except Halt α}
    (alike : AlikeUnder π rename first second) (commutes : ∀ answer, f (rename answer) = renameResult (f answer)) :
    AlikeUnder π renameResult (first.map f) (second.map f) := by
  cases first with
  | error halt =>
    cases second with
    | error otherHalt => cases halt <;> cases otherHalt <;> exact alike
    | ok answer => cases halt <;> cases alike
  | ok answer =>
    cases second with
    | error halt => cases alike
    | ok other =>
      obtain rfl := alike
      exact commutes answer

theorem alikeUnder_renameOutcome (outcome : Except Stop Typing) :
    AlikeUnder π (Typing.rename π) (outcome.mapError Halt.ofStop)
      ((Infer.renameOutcome π outcome).mapError Halt.ofStop) := by
  rcases outcome with (⟨error, node⟩ | fault) | found
  · exact ⟨rfl, error.code_rename π⟩
  · rfl
  · rfl

theorem alikeUnder_infer (closed : env.IsClosed) (inStep : ∀ count, Supply.InStep π count session.supply other.supply) :
    AlikeUnder π (Typing.rename π) (session.infer env expr).outcome (other.infer env expr).outcome := by
  by_cases given : expr = .absent
  · subst given
    exact ⟨rfl, rfl⟩
  · have corresponds : Infer.Corresponds π 0 ((Infer.typing env expr).run.run ⟨session.supply, []⟩)
        ((Infer.typing env expr).run.run ⟨other.supply, []⟩) := Infer.corresponds_of_isClosed closed expr inStep 0
    rw [outcome_infer given, outcome_infer given, corresponds.outcome]
    exact alikeUnder_renameOutcome _

theorem alikeUnder_inferScheme (closed : env.IsClosed)
    (inStep : ∀ count, Supply.InStep π count session.supply other.supply) :
    AlikeUnder π (Scheme.rename π) (session.inferScheme env expr).outcome (other.inferScheme env expr).outcome :=
  (alikeUnder_infer closed inStep).map fun found => by
    rw [Env.subst_of_isClosed closed, Env.subst_of_isClosed closed]
    exact Env.generalize_rename_of_isClosed closed π found.type

theorem allocated_rename (closed : env.IsClosed) (inStep : ∀ count, Supply.InStep π count session.supply other.supply) :
    other.allocated env expr = (session.allocated env expr).map π := by
  have demands : Infer.demand env ⟨other.supply, []⟩ expr = Infer.demand env ⟨session.supply, []⟩ expr :=
    Infer.demand_of_isClosed closed expr inStep
  unfold allocated
  rw [demands, (inStep _).follows.names_freshList]

theorem next_infer (idle : session.supply.chosen = ∅) :
    (session.infer env expr).session.supply.next = session.supply.next + .ofNat (session.allocated env expr).length := by
  by_cases given : expr = .absent
  · subst given
    exact (Int64.add_zero _).symm
  · rw [supply_infer given, Infer.supply_run expr env idle, Supply.freshList_snd, allocated, Supply.length_freshList]

/-- The variable with the next number of one session goes to that of the other, and so on from there. -/
noncomputable def renumbering (session other : Session) : Equiv.Perm String :=
  Supply.shift (other.supply.next - session.supply.next)

theorem next_add_distance (session other : Session) :
    session.supply.next + (other.supply.next - session.supply.next) = other.supply.next := by
  rw [Int64.add_comm, Int64.sub_add_cancel]

theorem renumbering_nameOf (session other : Session) (i : Int64) :
    session.renumbering other (Supply.nameOf (session.supply.next + i)) = Supply.nameOf (other.supply.next + i) := by
  unfold renumbering
  rw [Supply.shift_nameOf, Int64.add_assoc, Int64.add_comm i, ← Int64.add_assoc, next_add_distance]

theorem inStep_renumbering (idle : session.supply.chosen = ∅) (idleOther : other.supply.chosen = ∅) (count : Nat) :
    Supply.InStep (session.renumbering other) count session.supply other.supply where
  follows := by
    have follows := Supply.follows_shift (other.supply.next - session.supply.next) count session.supply.next
    rwa [next_add_distance] at follows
  idle := idle
  idleSecond := idleOther

/-- In a closed environment the number that a session starts from only moves the numbers of the variables, whether
the request succeeds or not. So it does not matter, but for the names, that a session is reset before a request is
made again. -/
theorem infer_renumbering (session other : Session) (env : Env) (expr : Expr) (closed : env.IsClosed)
    (idle : session.supply.chosen = ∅) (idleOther : other.supply.chosen = ∅) :
    (∀ i, session.renumbering other (Supply.nameOf (session.supply.next + i)) = Supply.nameOf (other.supply.next + i)) ∧
    other.allocated env expr = (session.allocated env expr).map (session.renumbering other) ∧
    (other.infer env expr).session.supply.next = other.supply.next + .ofNat (session.allocated env expr).length ∧
    AlikeUnder (session.renumbering other) (Typing.rename (session.renumbering other))
      (session.infer env expr).outcome (other.infer env expr).outcome ∧
    AlikeUnder (session.renumbering other) (Scheme.rename (session.renumbering other))
      (session.inferScheme env expr).outcome (other.inferScheme env expr).outcome ∧
    let again := (session.infer env expr).session.reset
    AlikeUnder (session.renumbering again) (Typing.rename (session.renumbering again))
        (session.infer env expr).outcome (again.infer env expr).outcome ∧
      AlikeUnder (session.renumbering again) (Scheme.rename (session.renumbering again))
        (session.inferScheme env expr).outcome (again.inferScheme env expr).outcome := by
  have inStep := inStep_renumbering idle idleOther
  have allocated : other.allocated env expr = (session.allocated env expr).map (session.renumbering other) :=
    allocated_rename closed inStep
  have next : (other.infer env expr).session.supply.next =
      other.supply.next + .ofNat (session.allocated env expr).length := by
    rw [next_infer idleOther, allocated, List.length_map]
  have inStepAgain := @inStep_renumbering session (session.infer env expr).session.reset idle rfl
  exact ⟨renumbering_nameOf session other, allocated, next, alikeUnder_infer closed inStep,
    alikeUnder_inferScheme closed inStep, alikeUnder_infer closed inStepAgain, alikeUnder_inferScheme closed inStepAgain⟩

/-- The scheme quantifies over a name that is fresh from zero on and over one that is fresh from five on. -/
theorem infer_renumbering_quantified :
    let env : Env := Env.extend ∅ "const" ⟨["t1", "t5"], .arrow (.var "t1") (.arrow (.var "t5") (.var "t1"))⟩
    let expr : Expr := .func "x" (.call (.var "const" {}) (.var "x" {}) {}) {}
    let later : Session := ⟨.starting 5, none⟩
    (infer {} env expr).outcome.toOption.map Typing.type =
      some (.arrow (.var "t0") (.arrow (.var "t2") (.var "t0"))) ∧
    (later.infer env expr).outcome.toOption.map Typing.type =
      some (.arrow (.var "t5") (.arrow (.var "t7") (.var "t5"))) ∧
    later.allocated env expr = (allocated {} env expr).map (renumbering {} later) ∧
    AlikeUnder (renumbering {} later) (Typing.rename (renumbering {} later)) (infer {} env expr).outcome
      (later.infer env expr).outcome := by
  intro env expr later
  have closed : env.IsClosed := by
    intro v free
    rcases Env.free_of_free_extend free with ⟨inside, outside⟩ | inEmpty
    · refine outside ?_
      simpa [Ty.occurs_arrow, or_comm] using inside
    · obtain ⟨name, scheme, lookup, _⟩ := inEmpty
      cases lookup
  obtain ⟨_, names, _, alike, _⟩ := infer_renumbering {} later env expr closed rfl rfl
  exact ⟨by cbv, by cbv, names, alike⟩

end Session

end HindleyMilner
