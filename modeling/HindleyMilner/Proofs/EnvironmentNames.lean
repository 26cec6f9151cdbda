import HindleyMilner.Proofs.Annotation
import HindleyMilner.Proofs.ClosedSchemes
import HindleyMilner.Proofs.Signature

/-! The names of the free variables of an environment.

Fresh variables are not compared with the names in the environment, and substitution into a scheme
does not rename quantified names. So the free variables of an environment can be given other names
if the names given up and the names taken are neither allocated by the run nor quantified by a scheme
with a free variable; otherwise the outcome may be another one. -/

set_option autoImplicit false

namespace HindleyMilner

namespace Infer

def Whole (result : Except Stop Typing × Progress) : Prop :=
  ∀ found, result.1 = .ok found → found.subst.IsComplete ∧ found.type.isComplete = true

theorem whole_run (expr : Expr) {env : Env} {progress : Progress} (whole : env.IsComplete)
    (idle : progress.supply.chosen = ∅) : Whole ((typing env expr).run.run progress) := by
  have within : env.Within .any := fun name scheme lookup => Ty.within_any (whole name scheme lookup)
  have keeps := keeps_run Signature.basic_any expr within idle (Supply.allows_of_names fun _ => trivial)
  intro found outcome
  obtain ⟨withinSubst, withinType⟩ := keeps found outcome
  exact ⟨fun v t lookup => (withinSubst v t lookup).isComplete, withinType.isComplete⟩

end Infer

theorem Supply.follows_of_fixed {π : Equiv.Perm String} {count : Nat} {supply : Supply}
    (fixed : ∀ name ∈ (freshList count supply).1, π name = name) : Follows π count supply.next supply.next := by
  induction count generalizing supply with
  | zero => trivial
  | succ count ih =>
    obtain ⟨here, later⟩ := List.forall_mem_cons.1 fixed
    exact ⟨here.symm, ih later⟩

/-- Finitely many names can be given new names by a permutation of all names. -/
theorem exists_perm_extending (names : List String) (f : String → String)
    (distinct : ∀ v ∈ names, ∀ w ∈ names, f v = f w → v = w) :
    ∃ π : Equiv.Perm String, ∀ v ∈ names, π v = f v := by
  let embedding : {v | v ∈ names} ↪ String :=
    ⟨fun v => f v, fun v w same => Subtype.ext (distinct v v.2 w w.2 same)⟩
  have infinite : Infinite String := Infinite.of_injective _ fun _ _ same => Supply.numbered_injective same
  have fewer : Cardinal.mk {v | v ∈ names} < Cardinal.mk String :=
    (Cardinal.lt_aleph0_iff_set_finite.2 (List.finite_toSet names)).trans_le (Cardinal.aleph0_le_mk String)
  obtain ⟨π, agrees⟩ := Cardinal.extend_function_of_lt embedding fewer ⟨Equiv.refl String⟩
  exact ⟨π, fun v mem => agrees ⟨v, mem⟩⟩

def Scheme.renameFree (r : String → String) (scheme : Scheme) : Scheme :=
  ⟨scheme.bound, scheme.type.rename fun v => if v ∈ scheme.bound then v else r v⟩

theorem Scheme.IsClosed.renameFree {scheme : Scheme} (closed : scheme.IsClosed) (r : String → String) :
    scheme.renameFree r = scheme := by
  unfold Scheme.renameFree
  rw [Ty.rename_eq_self fun v inside => if_pos (closed.mem_bound inside)]

theorem Scheme.renameFree_eq_rename {r : String → String} {π : Equiv.Perm String} {scheme : Scheme}
    (free : ∀ v, scheme.Free v → π v = r v) (bound : ∀ b ∈ scheme.bound, π b = b) :
    scheme.renameFree r = scheme.rename π := by
  unfold renameFree rename
  congr 1
  · exact (List.map_congr_left bound).trans (List.map_id _) |>.symm
  · refine Ty.rename_congr fun v inside => ?_
    split
    · rename_i quantified
      exact (bound v quantified).symm
    · rename_i unbound
      exact (free v ⟨inside, unbound⟩).symm

namespace Env

def renameFree (r : String → String) (env : Env) : Env := env.map (Scheme.renameFree r)

def freeNames (env : Env) : List String := env.entries.flatMap fun entry => entry.2.freeVars

def quantified (env : Env) : List String := env.entries.flatMap fun entry => entry.2.bound

/-- The names that some scheme with a free variable quantifies over. -/
def quantifiedOpen (env : Env) : List String :=
  env.entries.flatMap fun entry => if entry.2.freeVars.isEmpty then [] else entry.2.bound

theorem mem_freeNames {env : Env} {v : String} : v ∈ env.freeNames ↔ env.Free v := by
  simp [freeNames, Free, NameMap.mem_entries, Scheme.mem_freeVars]

theorem mem_quantifiedOpen {env : Env} {name b : String} {scheme : Scheme} (lookup : env.find? name = some scheme)
    (opened : ¬ scheme.IsClosed) (mem : b ∈ scheme.bound) : b ∈ env.quantifiedOpen := by
  obtain ⟨v, free⟩ := not_forall_not.1 opened
  have hasFree : scheme.freeVars.isEmpty = false :=
    List.isEmpty_eq_false_iff.2 (List.ne_nil_of_mem (Scheme.mem_freeVars.2 free))
  refine List.mem_flatMap.2 ⟨(name, scheme), NameMap.mem_entries.2 lookup, ?_⟩
  rw [hasFree]
  exact mem

/-- A permutation that renames the free variables may also move the names that closed schemes quantify over. -/
theorem relabels_renameFree {env : Env} {r : String → String} {π : Equiv.Perm String}
    (free : ∀ v, env.Free v → π v = r v) (bound : ∀ b ∈ env.quantifiedOpen, π b = b) :
    Relabels π (env.renameFree r) (env.rename π) := by
  intro name
  rw [find?_rename, renameFree, NameMap.find?_map]
  cases lookup : env.find? name with
  | none => exact .inl rfl
  | some scheme =>
    by_cases closed : scheme.IsClosed
    · refine .inr ⟨scheme, ?_, closed, rfl⟩
      rw [Option.map_some, closed.renameFree]
    · have same : scheme.renameFree r = scheme.rename π :=
        Scheme.renameFree_eq_rename (fun v freeV => free v ⟨name, scheme, lookup, freeV⟩)
          fun b mem => bound b (mem_quantifiedOpen lookup closed mem)
      exact .inl (congrArg some same.symm)

/-- A permutation of all names that renames the free variables and leaves the names to be kept alone. -/
theorem exists_perm_of_apart {env : Env} {r : String → String} {kept : List String}
    (injective : ∀ v w, env.Free v → env.Free w → r v = r w → v = w)
    (apart : ∀ v, env.Free v → r v ≠ v → ∀ name ∈ [v, r v], name ∉ kept) :
    ∃ π : Equiv.Perm String, (∀ v, env.Free v → π v = r v) ∧ ∀ name ∈ kept, π name = name := by
  let f : String → String := fun v => if env.Free v then r v else v
  have fixed (v : String) (mem : v ∈ kept) : f v = v := by
    unfold f
    split
    · rename_i free
      by_contra moved
      exact apart v free moved v (by simp) mem
    · rfl
  -- A variable that is moved goes to a name that is none of the names kept.
  have separate (v w : String) (free : env.Free v) (notFree : ¬ env.Free w) (mem : w ∈ kept) : r v ≠ w := by
    rintro rfl
    have moved : r v ≠ v := fun same => notFree (same.symm ▸ free)
    exact apart v free moved (r v) (by simp) mem
  have others (v : String) (mem : v ∈ env.freeNames ++ kept) (notFree : ¬ env.Free v) : v ∈ kept :=
    (List.mem_append.1 mem).resolve_left fun inEnv => notFree (mem_freeNames.1 inEnv)
  obtain ⟨π, agrees⟩ := exists_perm_extending (env.freeNames ++ kept) f fun v memV w memW same => by
    unfold f at same
    split at same <;> rename_i freeV <;> split at same <;> rename_i freeW
    · exact injective v w freeV freeW same
    · exact absurd same (separate v w freeV freeW (others w memW freeW))
    · exact absurd same.symm (separate w v freeW freeV (others v memV freeV))
    · exact same
  refine ⟨π, fun v free => ?_, fun name mem => ?_⟩
  · rw [agrees v (List.mem_append_left _ (mem_freeNames.2 free))]
    exact if_pos free
  · rw [agrees name (List.mem_append_right _ mem), fixed name mem]

end Env

namespace Session

/-- The names that a run of inference takes from the supply, whether it succeeds or not. -/
def allocated (session : Session) (env : Env) (expr : Expr) : List String :=
  (Supply.freshList (Infer.demand env ⟨session.supply, []⟩ expr) session.supply).1

/-- The outcome of inference does not depend on the names of the free variables of the environment, as
long as no variable that is renamed has, or is given, a name that the run allocates or that a scheme with a
free variable quantifies over. -/
theorem infer_renameFree_alike (session : Session) (env : Env) (expr : Expr) (r : String → String)
    (idle : session.supply.chosen = ∅) (whole : env.IsComplete)
    (injective : ∀ v w, env.Free v → env.Free w → r v = r w → v = w)
    (apart : ∀ v, env.Free v → r v ≠ v → ∀ name ∈ [v, r v],
      name ∉ env.quantifiedOpen ++ session.allocated env expr) :
    Alike (session.infer env expr).outcome (session.infer (env.renameFree r) expr).outcome := by
  obtain ⟨π, free, fixed⟩ := Env.exists_perm_of_apart injective apart
  by_cases given : expr = .absent
  · subst given
    trivial
  · have inStep : Supply.InStep π (Infer.demand env ⟨session.supply, []⟩ expr + 0) session.supply
        session.supply :=
      ⟨Supply.follows_of_fixed fun name mem => fixed name (List.mem_append_right _ mem), idle, idle⟩
    have corresponds : Infer.Corresponds π 0 ((Infer.typing env expr).run.run ⟨session.supply, []⟩)
        ((Infer.typing (env.rename π) expr).run.run ⟨session.supply, []⟩) := Infer.run_rename expr env inStep
    -- The permutation has also moved names that closed schemes quantify over, which are now put back.
    have relabels : Env.Relabels π (env.renameFree r) (env.rename π) :=
      Env.relabels_renameFree free fun b mem => fixed b (List.mem_append_left _ mem)
    rw [Infer.run_relabels expr relabels] at corresponds
    have complete : Infer.Whole ((Infer.typing env expr).run.run ⟨session.supply, []⟩) :=
      Infer.whole_run expr whole idle
    rw [outcome_infer given, outcome_infer given, corresponds.outcome]
    cases outcome : ((Infer.typing env expr).run.run ⟨session.supply, []⟩).1 with
    | error stop => trivial
    | ok found =>
      exact Ty.alphaEquals_rename (complete found outcome).2 fun v w _ _ same => π.injective same

/-- One free variable is given a name that only a closed scheme quantifies over. The run takes eight
variables, so that the ninth number is no name of its own. -/
theorem infer_renameFree_alike_opened :
    let env : Env := Env.opened.extend "same" ⟨["d"], .arrow (.var "d") (.var "d")⟩
    let expr : Expr := .letIn "z" (.call (.var "same" {}) (.var "y" {}) {}) .mixed {}
    let r (v : String) : String := if v = "a" then "d" else if v = "c" then "t8" else v
    allocated {} env expr = ["t0", "t1", "t2", "t3", "t4", "t5", "t6", "t7"] ∧
    env.quantified = ["b", "d"] ∧ env.quantifiedOpen = ["b"] ∧
    ((infer {} env expr).outcome.toOption.map fun found => found.subst.names) =
      some ["a", "c", "t0", "t1", "t3", "t4", "t5"] ∧
    Alike (infer {} env expr).outcome (infer {} (env.renameFree r) expr).outcome := by
  intro env expr r
  have names : allocated {} env expr = ["t0", "t1", "t2", "t3", "t4", "t5", "t6", "t7"] := by cbv
  have opened : env.quantifiedOpen = ["b"] := by decide
  have whole : env.IsComplete := (Env.safe_opened 0).complete.extend (by decide)
  have free (v : String) (freeV : env.Free v) : v = "a" ∨ v = "c" := by
    rcases Env.free_of_free_extend freeV with ⟨inside, outside⟩ | inOpened
    · refine absurd ?_ outside
      simpa [Ty.occurs_arrow] using inside
    · exact Env.free_opened inOpened
  refine ⟨names, by decide, opened, by cbv, infer_renameFree_alike {} env expr r rfl whole ?_ ?_⟩
  · intro v w freeV freeW
    rcases free v freeV with rfl | rfl <;> rcases free w freeW with rfl | rfl <;> decide
  · intro v freeV _
    rw [names, opened]
    rcases free v freeV with rfl | rfl <;> decide

/-- In the first environment the free variable has the name of the first fresh variable, in the second
the name of a quantified one. Under another name, which no scheme quantifies over, the first has a
type and not an infinite one, and in the second the type is a variable and not `Int`. -/
theorem infer_renameFree_mistaken :
    (let env : Env := Env.declare ∅ "y" (.var "t0")
     let expr : Expr := .func "x" (.call (.var "x" {}) (.var "y" {}) {}) {}
     (∀ v ∈ env.freeNames, Equiv.swap "t0" "a" v ∉ env.quantified) ∧
      ¬ Alike (infer {} env expr).outcome (infer {} (env.renameFree (Equiv.swap "t0" "a")) expr).outcome) ∧
    (let env : Env := Env.declare (Env.extend (Env.extend ∅ "f" ⟨["b"], .arrow (.var "b") (.var "a")⟩)
      "same" ⟨["d"], .arrow (.var "d") (.arrow (.var "d") .bool)⟩) "y" (.var "b")
     let first : Expr := .call (.var "f" {}) (.lit .int "1" {}) {}
     let expr : Expr := .letIn "u" (.call (.call (.var "same" {}) first {}) (.var "y" {}) {}) first {}
     (∀ v ∈ env.freeNames, Equiv.swap "b" "c" v ∉ env.quantified) ∧
      ¬ Alike (infer {} env expr).outcome (infer {} (env.renameFree (Equiv.swap "b" "c")) expr).outcome) := by
  refine ⟨⟨by decide, ?_⟩, by decide, ?_⟩
  · cbv
  · cbv
    exact Bool.false_ne_true

end Session

end HindleyMilner
