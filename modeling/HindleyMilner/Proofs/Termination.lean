import HindleyMilner.Proofs.Unification

/-! Unification of arguments, one after the other.

Two applications of one constructor are unified by unifying their arguments from left to right, where
what the earlier ones have bound is put into the later ones. That may make the later ones larger, also
larger than the applications that they are from. Still each is unified with fewer variables left, or with
as many and fewer nodes. -/

set_option autoImplicit false

namespace HindleyMilner

namespace Unify

variable {s : Subst} {con : String} {as bs : List Ty} {first rest : List Equation} {v : String}

def after (bound : Subst) (outcome : Except Impasse Subst) : Except Impasse Subst := do
  let s ← outcome
  return bound.compose s

/-- Solve equations after others, with what these have bound put in. -/
def thenSolve (outcome : Except Impasse Subst) (rest : List Equation) : Except Impasse Subst := do
  let s ← outcome
  after s (solve (substAll s rest))

theorem after_empty (outcome : Except Impasse Subst) : after ∅ outcome = outcome := by
  cases outcome with
  | error reason => rfl
  | ok s => exact congrArg Except.ok (Subst.empty_compose s)

theorem after_compose (bound s : Subst) (outcome : Except Impasse Subst) :
    after (bound.compose s) outcome = after bound (after s outcome) := by
  cases outcome with
  | error reason => rfl
  | ok next => exact congrArg Except.ok (Subst.compose_assoc bound s next)

theorem after_thenSolve (bound : Subst) (outcome : Except Impasse Subst) (rest : List Equation) :
    after bound (thenSolve outcome (substAll bound rest)) = thenSolve (after bound outcome) rest := by
  cases outcome with
  | error reason => rfl
  | ok s =>
    change after bound (after s (solve _)) = after (bound.compose s) (solve _)
    rw [after_compose, substAll_compose]

/-- Equations may be solved in two parts. -/
theorem solve_append (first rest : List Equation) : solve (first ++ rest) = thenSolve (solve first) rest := by
  -- Where a variable is bound, it is put into the rest too, so the induction is for any rest.
  induction first using solve.induct generalizing rest with
  | case1 =>
    rw [List.nil_append, solve]
    change solve rest = after ∅ (solve (substAll ∅ rest))
    rw [after_empty, substAll_empty]
  | case2 name others ih => rw [List.cons_append, solve, if_pos rfl, ih, solve, if_pos rfl]
  | case3 name t others other inside =>
    rw [List.cons_append, solve, if_neg other, if_pos inside, solve, if_neg other, if_pos inside]
    rfl
  | case4 name t others other fresh ih =>
    rw [List.cons_append, solve, if_neg other, if_neg fresh, solve, if_neg other, if_neg fresh, substAll_append, ih]
    exact after_thenSolve _ _ rest
  | case5 c as name others inside =>
    rw [List.cons_append, solve, if_pos inside, solve, if_pos inside]
    rfl
  | case6 c as name others fresh ih =>
    rw [List.cons_append, solve, if_neg fresh, solve, if_neg fresh, substAll_append, ih]
    exact after_thenSolve _ _ rest
  | case7 c as d bs others different =>
    rw [List.cons_append, solve, if_pos different, solve, if_pos different]
    rfl
  | case8 c as d bs others same lengths =>
    rw [List.cons_append, solve, if_neg same, if_pos lengths, solve, if_neg same, if_pos lengths]
    rfl
  | case9 c as d bs others same lengths ih =>
    rw [List.cons_append, solve, if_neg same, if_neg lengths, ← List.append_assoc, ih, solve, if_neg same,
      if_neg lengths]
  | case10 t others =>
    rw [List.cons_append, solve, solve]
    rfl
  | case11 c as others =>
    rw [List.cons_append, solve, solve]
    rfl

/-- Unify both sides of each equation, one equation after the other. -/
def unifyEach (bound : Subst) : List Equation → Except Impasse Subst
  | [] => .ok bound
  | (a, b) :: rest => do
    let next ← unify (bound.apply a) (bound.apply b)
    unifyEach (bound.compose next) rest

theorem unifyEach_eq (bound : Subst) (equations : List Equation) :
    unifyEach bound equations = after bound (solve (substAll bound equations)) := by
  induction equations generalizing bound with
  | nil =>
    have none : solve (substAll bound []) = .ok ∅ := by rw [substAll, List.map_nil, solve]
    rw [none]
    exact congrArg Except.ok (Subst.compose_empty bound).symm
  | cons e rest ih =>
    obtain ⟨a, b⟩ := e
    have split : solve (substAll bound ((a, b) :: rest)) =
        thenSolve (unify (bound.apply a) (bound.apply b)) (substAll bound rest) :=
      solve_append [(bound.apply a, bound.apply b)] (substAll bound rest)
    rw [split, after_thenSolve, unifyEach]
    cases unify (bound.apply a) (bound.apply b) with
    | error reason => rfl
    | ok next => exact ih (bound.compose next)

theorem unifyEach_empty (equations : List Equation) : unifyEach ∅ equations = solve equations := by
  rw [unifyEach_eq, after_empty, substAll_empty]

/-- Let a variable stand for a type, unless the type contains it. -/
def assign (name : String) (t : Ty) : Except Impasse Subst :=
  if t = .var name then .ok ∅
  else if t.occurs name then .error (.mismatch (.infinite name t))
  else .ok (NameMap.single name t)

/-- Look at the outermost constructors of two types, and unify the arguments where they agree. -/
def dispatch : Ty → Ty → Except Impasse Subst
  | .var name, t => assign name t
  | .app c as, .var name => assign name (.app c as)
  | .app c as, .app d bs =>
    if c ≠ d then .error (.mismatch (.constructors c d))
    else if as.length ≠ bs.length then .error (.mismatch (.arity (.app c as) (.app d bs)))
    else unifyEach ∅ (as.zip bs)
  | .absent, _ | .app _ _, .absent => .error (.fault .missingType)

theorem solve_nil : solve [] = .ok ∅ := by rw [solve]

theorem after_single (name : String) (t : Ty) :
    after (NameMap.single name t) (solve (substAll (NameMap.single name t) [])) = .ok (NameMap.single name t) := by
  rw [substAll, List.map_nil, solve_nil]
  exact congrArg Except.ok (Subst.compose_empty _)

theorem unify_eq_dispatch (a b : Ty) : unify a b = dispatch a b := by
  unfold unify
  cases a with
  | absent => rw [solve, dispatch]
  | var name =>
    rw [dispatch, assign, solve, solve_nil]
    split
    · rfl
    · split
      · rfl
      · exact after_single name b
  | app c as =>
    cases b with
    | absent => rw [solve, dispatch]
    | var name =>
      rw [dispatch, assign, if_neg Ty.noConfusion, solve]
      split
      · rfl
      · exact after_single name (.app c as)
    | app d bs => rw [dispatch, solve, unifyEach_empty, List.append_nil]

/-- Unification of the first two types unifies the second two: arguments at one place, with what the
arguments before them have bound put in. -/
inductive Calls : Equation → Equation → Prop where
  | argument {con : String} {as bs : List Ty} {s : Subst} (i : Nat) (inAs : i < as.length) (inBs : i < bs.length) :
      as.length = bs.length → unifyEach ∅ ((as.zip bs).take i) = .ok s →
      Calls (.app con as, .app con bs) (s.apply as[i], s.apply bs[i])

def weight (e : Equation) : Nat ×ₗ Nat := toLex ((vars [e]).length, size [e])

theorem mentions_singleton {a b : Ty} : Mentions [(a, b)] v ↔ a.occurs v = true ∨ b.occurs v = true := by
  simp [Mentions]

/-- What was bound before brings in variables of the equations that were solved before. -/
theorem Solution.mentions_apply {a b : Ty} (solution : Solution first s)
    (inside : Mentions [(s.apply a, s.apply b)] v) : Mentions first v ∨ Mentions [(a, b)] v := by
  have side (t : Ty) (inType : (s.apply t).occurs v = true) : Mentions first v ∨ t.occurs v = true :=
    (Subst.occurs_apply_cases inType).imp (fun put => solution.mentions_of_touches (.inr put)) And.left
  rw [mentions_singleton] at inside ⊢
  rcases inside with inA | inB
  · exact (side a inA).imp_right .inl
  · exact (side b inB).imp_right .inr

theorem mentions_take {i : Nat} (inside : Mentions ((as.zip bs).take i) v) :
    Mentions [(.app con as, .app con bs)] v := by
  obtain ⟨e, mem, inE⟩ := inside
  refine mentions_zip ?_
  rw [List.append_nil]
  exact ⟨e, List.mem_of_mem_take mem, inE⟩

theorem mentions_getElem {i : Nat} (inAs : i < as.length) (inBs : i < bs.length)
    (inside : Mentions [(as[i], bs[i])] v) : Mentions [(.app con as, .app con bs)] v := by
  rw [mentions_singleton] at inside ⊢
  exact inside.imp (fun inA => Ty.occurs_app_iff.2 ⟨as[i], List.getElem_mem inAs, inA⟩)
    fun inB => Ty.occurs_app_iff.2 ⟨bs[i], List.getElem_mem inBs, inB⟩

/-- No call brings in a variable, and a call after something was bound has lost one. A call before that is
for arguments as they are, which are smaller. -/
theorem weight_lt_of_calls {caller callee : Equation} (calls : Calls caller callee) : weight callee < weight caller := by
  cases calls with
  | @argument con as bs s i inAs inBs lengths ran =>
    rw [unifyEach_empty] at ran
    have solution := solution_of_solve ran
    have within (v : String) (inside : Mentions [(s.apply as[i], s.apply bs[i])] v) :
        Mentions [(.app con as, .app con bs)] v :=
      (solution.mentions_apply inside).elim mentions_take (mentions_getElem inAs inBs)
    by_cases nothing : s = ∅
    · -- The arguments stand as they are in the applications.
      refine lex_of_le_of_lt (vars_length_le within) ?_
      have sizeA := Ty.size_le_sizeAll (List.getElem_mem inAs)
      have sizeB := Ty.size_le_sizeAll (List.getElem_mem inBs)
      simp only [nothing, Subst.apply_empty, size, Ty.size]
      omega
    · -- A variable that was bound is in the applications, and what is put in for it or for others does not have it.
      obtain ⟨v, bound⟩ := Subst.exists_binds nothing
      refine .left _ _ (vars_length_lt v within (mentions_take (solution.mentions_of_touches (.inl bound))) ?_)
      rw [mentions_singleton]
      rintro (inA | inB)
      · exact solution.idempotent.not_binds_of_occurs_apply inA bound
      · exact solution.idempotent.not_binds_of_occurs_apply inB bound

theorem wellFounded_calls : WellFounded fun callee caller => Calls caller callee :=
  (InvImage.wf weight wellFounded_lt).mono fun _ _ calls => weight_lt_of_calls calls

end Unify

/-- Unification goes from two types to arguments of theirs only, with what the arguments before have bound
put in. These have fewer variables between them, or as many and fewer nodes, so it comes to an end. -/
theorem unify_terminates :
    (∀ a b, unify a b = Unify.dispatch a b) ∧
    (∀ caller callee, Unify.Calls caller callee → Unify.weight callee < Unify.weight caller) ∧
    WellFounded fun callee caller => Unify.Calls caller callee :=
  ⟨Unify.unify_eq_dispatch, fun _ _ => Unify.weight_lt_of_calls, Unify.wellFounded_calls⟩

/-- The third arguments are one variable on both sides. With what the first two have bound put in they are larger
than the applications that are unified. -/
theorem unify_terminates_growing :
    let pair (t : Ty) : Ty := .app "Pair" [t, t]
    let caller : Unify.Equation :=
      (.app "F" [.var "a", .var "b", .var "a"], .app "F" [pair (.var "b"), pair (.var "c"), .var "a"])
    let callee : Unify.Equation := (pair (pair (.var "c")), pair (pair (.var "c")))
    Unify.Calls caller callee ∧ Unify.size [caller] < Unify.size [callee] ∧
      Unify.weight callee < Unify.weight caller := by
  intro pair caller callee
  have ran : ∃ s, Unify.unifyEach ∅ [(.var "a", pair (.var "b")), (.var "b", pair (.var "c"))] = .ok s ∧
      s.apply (.var "a") = pair (pair (.var "c")) := ⟨_, by cbv, by decide⟩
  obtain ⟨s, ran, image⟩ := ran
  have calls : Unify.Calls caller (s.apply (.var "a"), s.apply (.var "a")) :=
    .argument 2 (by decide) (by decide) rfl ran
  rw [image] at calls
  exact ⟨calls, by decide, unify_terminates.2.1 caller callee calls⟩

end HindleyMilner
