import HindleyMilner.Proofs.Annotation
import HindleyMilner.Proofs.Instances
import HindleyMilner.Proofs.Occurrences

/-! The scheme that is inferred.

A variable of an inferred type is free in the environment, as the run has left it, or was numbered by
the run. The inferred scheme quantifies over the latter, each once, at its first occurrence. -/

set_option autoImplicit false

namespace HindleyMilner

open Supply (Old New numbered)

namespace Env

variable {env : Env} {t : Ty} {v : String}

theorem generalize_sublist (env : Env) (t : Ty) : (env.generalize t).bound.Sublist t.occurrences.eraseDups := by
  rw [← Ty.vars_eq_eraseDups]
  exact List.filter_sublist

theorem nodup_bound_generalize (env : Env) (t : Ty) : (env.generalize t).bound.Nodup := (Ty.nodup_vars t).filter _

theorem not_free_generalize (closed : env.IsClosed) (v : String) : ¬ (env.generalize t).Free v :=
  fun free => closed v (free_generalize.1 free).2

end Env

namespace Supply

variable {n m : Nat}

/-- A run from one number to another numbers as many variables as lie between. -/
theorem length_le_of_new {names : List String} (distinct : names.Nodup) (new : ∀ v ∈ names, New n m v) :
    names.length ≤ m - n := by
  have inside : names ⊆ (List.range' n (m - n)).map numbered := by
    intro v mem
    obtain ⟨k, above, below, rfl⟩ := new v mem
    exact List.mem_map.2 ⟨k, List.mem_range'_1.2 (by omega), rfl⟩
  simpa using (distinct.subperm inside).length_le

end Supply

namespace Infer

variable {env : Env} {n m : Nat} {found : Typing} {v : String}

namespace Settled

theorem mem_bound_generalize (settled : Settled env n found m) (safe : env.Safe n) :
    v ∈ (Env.generalize (env.subst found.subst) found.type).bound ↔
      found.type.occurs v = true ∧ (∃ k, n ≤ k ∧ v = numbered k) ∧ ¬ Env.Free (env.subst found.subst) v := by
  rw [Env.mem_bound_generalize]
  constructor
  · rintro ⟨inside, notFree⟩
    obtain ⟨k, above, _, same⟩ := (settled.known_after safe inside).resolve_left notFree
    exact ⟨inside, ⟨k, above, same⟩, notFree⟩
  · rintro ⟨inside, _, notFree⟩
    exact ⟨inside, notFree⟩

theorem length_bound_le (settled : Settled env n found m) (safe : env.Safe n) :
    (Env.generalize (env.subst found.subst) found.type).bound.length ≤ m - n := by
  refine Supply.length_le_of_new (Env.nodup_bound_generalize _ _) fun v mem => ?_
  obtain ⟨inside, notFree⟩ := Env.mem_bound_generalize.1 mem
  exact (settled.known_after safe inside).resolve_left notFree

/-- The variables allocated next are not free in the scheme: either nothing is, or their numbers are later
than those of the run. -/
theorem apart_of_allocated (settled : Settled env n found m) (safe : env.Safe n) {count : Nat}
    (apart : env.IsClosed ∨ m + count ≤ Supply.limit)
    (free : (Env.generalize (env.subst found.subst) found.type).Free v) :
    v ∉ (Supply.freshList count (.starting m)).1 := by
  obtain ⟨_, free⟩ := Env.free_generalize.1 free
  rcases apart with closed | fits
  · rw [Env.subst_of_isClosed closed] at free
    exact absurd free (closed v)
  · intro allocated
    obtain ⟨k, above, same⟩ := Supply.exists_numbered_of_mem fits allocated
    exact (settled.safe safe).free v free k above same

theorem alphaEquals_instantiate (settled : Settled env n found m) (safe : env.Safe n) (below : m < Supply.limit)
    (apart : env.IsClosed ∨ m + (Env.generalize (env.subst found.subst) found.type).bound.length ≤ Supply.limit) :
    (Supply.instantiate (Env.generalize (env.subst found.subst) found.type) (.starting m)).1.alphaEquals found.type = true := by
  have few : (Env.generalize (env.subst found.subst) found.type).bound.length ≤ Supply.cycle := by
    have counted := settled.length_bound_le safe
    unfold Supply.limit at below
    unfold Supply.cycle
    omega
  have idle : (Supply.starting m).chosen = ∅ := rfl
  have made := Supply.instanceBy_instantiate (Env.generalize (env.subst found.subst) found.type) idle
  exact made.alphaEquals_of_apart (Supply.nodup_freshList few) settled.completeType
    fun v free => settled.apart_of_allocated safe apart free

end Settled

end Infer

namespace Session

variable {session : Session} {env : Env} {expr : Expr} {n : Nat} {found : Typing}

theorem instantiate_fst (session : Session) (scheme : Scheme) :
    (session.instantiate scheme).1 = (session.supply.instantiate scheme).1 := rfl

theorem settled_of_infer (start : session.supply = .starting n) (safe : env.Safe n) (fits : Infer.Fits env n [] expr)
    (answered : (session.infer env expr).outcome = .ok found) :
    ∃ m, Infer.Settled env n found m ∧ (session.infer env expr).session.supply = .starting m ∧ m < Supply.limit := by
  have given : expr ≠ .absent := by
    rintro rfl
    cases answered
  rw [outcome_infer given, start] at answered
  rw [supply_infer given, start]
  rcases went : (Infer.typing env expr).run.run ⟨.starting n, []⟩ with ⟨outcome, after⟩
  rw [went] at answered
  cases outcome with
  | error stop => cases answered
  | ok value =>
    cases answered
    obtain ⟨m, run, supply, total⟩ := Infer.run_of_typing fits went
    exact ⟨m, run.settled safe, supply, total ▸ fits⟩

/-- Where a type is found, the scheme with this type is found from the same number. It quantifies, once and in
the order of first occurrences, over the variables of the type that the run has numbered and that are not free
in the environment with what was learned; the others are those that are free there. An instance made next is the
type but for the names of variables. That the counter runs over while the instance is made does no harm if the
environment is closed. -/
theorem inferScheme_canonical (session other : Session) (env : Env) (expr : Expr) (n : Nat) (found : Typing)
    (start : session.supply = .starting n) (startOther : other.supply = .starting n) (safe : env.Safe n)
    (fits : Infer.Fits env n [] expr) (inferred : (other.infer env expr).outcome = .ok found) :
    ∃ scheme m, (session.inferScheme env expr).outcome = .ok scheme ∧
      (session.inferScheme env expr).session.supply = .starting m ∧ m < Supply.limit ∧
      scheme.type = found.type ∧ scheme.bound.Nodup ∧
      (∀ v, v ∈ scheme.bound ↔
        found.type.occurs v = true ∧ (∃ k, n ≤ k ∧ v = numbered k) ∧ ¬ Env.Free (env.subst found.subst) v) ∧
      scheme.bound.Sublist found.type.occurrences.eraseDups ∧
      (∀ v, v ∈ scheme.freeVars ↔ found.type.occurs v = true ∧ Env.Free (env.subst found.subst) v) ∧
      (env.IsClosed → scheme.freeVars = []) ∧
      ((env.IsClosed ∨ m + scheme.bound.length ≤ Supply.limit) →
        ((session.inferScheme env expr).session.instantiate scheme).1.alphaEquals found.type = true) := by
  have answered : (session.infer env expr).outcome = .ok found :=
    (outcome_infer_of_shape (start.trans startOther.symm) rfl).trans inferred
  obtain ⟨m, settled, supply, below⟩ := settled_of_infer start safe fits answered
  refine ⟨Env.generalize (env.subst found.subst) found.type, m, ?_, supply, below, rfl, Env.nodup_bound_generalize _ _,
    fun v => settled.mem_bound_generalize safe, Env.generalize_sublist _ _, fun v => ?_, fun closed => ?_, fun apart => ?_⟩
  · simp only [inferScheme, Answer.map, answered, Except.map]
  · rw [Scheme.mem_freeVars]
    exact Env.free_generalize
  · rw [Env.subst_of_isClosed closed]
    exact List.eq_nil_iff_forall_not_mem.2 fun v mem => Env.not_free_generalize closed v (Scheme.mem_freeVars.1 mem)
  · rw [instantiate_fst, show (session.inferScheme env expr).session.supply = .starting m from supply]
    exact settled.alphaEquals_instantiate safe below apart

/-- The parameter that is not used is quantified. What was learned of the type of `y` has put the other two
variables into the environment, where they stay free. -/
theorem inferScheme_canonical_learned :
    let expr : Expr := .func "w" (.func "x" (.call (.var "y" {}) (.var "x" {}) {}) {}) {}
    let t : Ty := .arrow (.var "t0") (.arrow (.var "t1") (.var "t2"))
    ∃ found, (infer {} Env.opened expr).outcome = .ok found ∧ found.type = t ∧
      ∃ scheme m, (inferScheme {} Env.opened expr).outcome = .ok scheme ∧
        (inferScheme {} Env.opened expr).session.supply = .starting m ∧ m < Supply.limit ∧
        scheme = ⟨["t0"], t⟩ ∧ scheme.bound.Nodup ∧
        (∀ v, v ∈ scheme.bound ↔ t.occurs v = true ∧ (∃ k, 0 ≤ k ∧ v = numbered k) ∧
          ¬ Env.Free (Env.opened.subst found.subst) v) ∧
        scheme.bound.Sublist t.occurrences.eraseDups ∧ scheme.freeVars = ["t1", "t2"] ∧
        ((inferScheme {} Env.opened expr).session.instantiate scheme).1 = .arrow (.var "t3") (.arrow (.var "t1") (.var "t2")) ∧
        ((inferScheme {} Env.opened expr).session.instantiate scheme).1.alphaEquals t = true := by
  intro expr t
  have fits : Infer.Fits Env.opened 0 [] expr := by
    unfold Infer.Fits
    cbv
  have computed : (inferScheme {} Env.opened expr).outcome = .ok ⟨["t0"], t⟩ := by cbv
  have next : (inferScheme {} Env.opened expr).session.supply = .starting 3 := by cbv
  obtain ⟨found, inferred⟩ : ∃ found, (infer {} Env.opened expr).outcome = .ok found := by
    cases outcome : (infer {} Env.opened expr).outcome with
    | ok found => exact ⟨found, rfl⟩
    | error halt => simp [inferScheme, Answer.map, outcome, Except.map] at computed
  obtain ⟨scheme, m, given, supply, below, type, distinct, quantified, order, _, _, alike⟩ :=
    inferScheme_canonical {} {} Env.opened expr 0 found rfl rfl (Env.safe_opened 0) fits inferred
  obtain rfl : scheme = ⟨["t0"], t⟩ := Except.ok.inj (given.symm.trans computed)
  obtain rfl : m = 3 := Supply.starting_injective below (by decide) (supply.symm.trans next)
  rw [← type] at quantified order alike
  refine ⟨found, inferred, type.symm, _, 3, given, supply, below, rfl, distinct, quantified, order, by decide, ?_,
    alike (.inr (by decide))⟩
  rw [instantiate_fst, next]
  cbv

end Session

end HindleyMilner
