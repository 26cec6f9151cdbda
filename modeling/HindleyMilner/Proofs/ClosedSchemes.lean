import HindleyMilner.Proofs.Allocation
import HindleyMilner.Proofs.Equivariance

/-! The names that a closed scheme quantifies over.

A closed scheme has no variable that a substitution could replace, so nothing is captured by its
quantifiers, and its instances depend on the order of the quantified names only. So two environments that
differ in such names give the same run. -/

set_option autoImplicit false

namespace HindleyMilner

namespace Scheme

variable {π : Equiv.Perm String} {scheme : Scheme}

def IsClosed (scheme : Scheme) : Prop := ∀ v, ¬ scheme.Free v

theorem IsClosed.mem_bound (closed : scheme.IsClosed) {v : String} (inside : scheme.type.occurs v = true) :
    v ∈ scheme.bound := Decidable.not_not.1 fun outside => closed v ⟨inside, outside⟩

theorem IsClosed.subst (closed : scheme.IsClosed) (s : Subst) : scheme.subst s = scheme :=
  (subst_congr fun v free => absurd free (closed v)).trans scheme.subst_empty

theorem IsClosed.rename (closed : scheme.IsClosed) (π : Equiv.Perm String) : IsClosed (scheme.rename π) := by
  intro v
  obtain ⟨w, rfl⟩ := π.surjective v
  exact mt free_rename.1 (closed w)

end Scheme

namespace Supply

variable {π : Equiv.Perm String} {first second : Supply} {scheme : Scheme} {bound : List String} {v : String}

/-- The variable chosen for a quantified name depends on its place among the quantifiers only. -/
theorem image_choose_map (same : first.next = second.next) (mem : v ∈ bound) :
    (choose (bound.map π) second).chosen.image (π v) = (choose bound first).chosen.image v := by
  induction bound generalizing first second with
  | nil => cases mem
  | cons name rest ih =>
    rw [List.map_cons, choose, choose]
    dsimp only
    by_cases inRest : v ∈ rest
    · exact ih (congrArg (· + 1) same) inRest
    · obtain rfl : v = name := (List.mem_cons.1 mem).resolve_right inRest
      have outside : π v ∉ rest.map π := by rwa [List.mem_map_of_injective π.injective]
      rw [image_choose_of_not_mem outside, image_choose_of_not_mem inRest, Subst.image_insert, Subst.image_insert,
        if_pos rfl, if_pos rfl, fresh, fresh, same]

/-- How the names are called that a closed scheme quantifies over does not matter for its instances. -/
theorem instantiate_rename_of_isClosed (closed : scheme.IsClosed) (supply : Supply) :
    instantiate (scheme.rename π) supply = instantiate scheme supply := by
  have sameMono : (scheme.rename π).isMono = scheme.isMono := List.isEmpty_map
  unfold instantiate
  rw [sameMono]
  split
  -- A closed scheme that quantifies over nothing has no variables.
  · rename_i plain
    have type : scheme.type.rename π = scheme.type := Ty.rename_eq_self fun v inside => by
      have mem := closed.mem_bound inside
      rw [List.isEmpty_iff.1 plain] at mem
      cases mem
    exact congrArg (·, supply) type
  · have type : (choose (scheme.bound.map π) supply).chosen.apply (scheme.type.rename π) =
        (choose scheme.bound supply).chosen.apply scheme.type :=
      Ty.apply_rename_of_images fun v inside => image_choose_map rfl (closed.mem_bound inside)
    have next : (choose (scheme.bound.map π) supply).next = (choose scheme.bound supply).next := by
      rw [next_choose, next_choose, List.length_map]
    unfold Scheme.rename
    dsimp only
    rw [type, next]

end Supply

namespace Env

variable {π : Equiv.Perm String} {env other : Env} {v : String}

/-- The other environment has the same schemes, but for the names that some closed ones quantify over. -/
def Relabels (π : Equiv.Perm String) (env other : Env) : Prop :=
  ∀ name, other.find? name = env.find? name ∨
    ∃ scheme, env.find? name = some scheme ∧ scheme.IsClosed ∧ other.find? name = some (scheme.rename π)

theorem relabels_rename (π : Equiv.Perm String) (closed : env.IsClosed) : Relabels π env (env.rename π) := by
  intro name
  rw [find?_rename]
  cases lookup : env.find? name with
  | none => exact .inl rfl
  | some scheme => exact .inr ⟨scheme, rfl, fun v free => closed v ⟨name, scheme, lookup, free⟩, rfl⟩

theorem Relabels.subst (relabels : Relabels π env other) (s : Subst) : Relabels π (env.subst s) (other.subst s) := by
  intro name
  rw [find?_subst, find?_subst]
  rcases relabels name with same | ⟨scheme, lookup, closed, lookupOther⟩
  · exact .inl (by rw [same])
  · rw [lookup, lookupOther, Option.map_some, Option.map_some, closed.subst, (closed.rename π).subst]
    exact .inr ⟨scheme, rfl, closed, rfl⟩

theorem Relabels.extend (relabels : Relabels π env other) (name : String) (scheme : Scheme) :
    Relabels π (env.extend name scheme) (other.extend name scheme) := by
  intro query
  rw [find?_extend, find?_extend]
  split
  · exact .inl rfl
  · exact relabels query

theorem Relabels.free_iff (relabels : Relabels π env other) : other.Free v ↔ env.Free v := by
  refine exists_congr fun name => ?_
  rcases relabels name with same | ⟨scheme, lookup, closed, lookupOther⟩
  · rw [same]
  · simp [lookup, lookupOther, closed v, closed.rename π v]

theorem Relabels.generalize_eq (relabels : Relabels π env other) (t : Ty) : other.generalize t = env.generalize t :=
  generalize_congr fun _ _ => relabels.free_iff

theorem Relabels.bodyEnv (relabels : Relabels π env other) (name : String) (definition : Typing) :
    Relabels π (Infer.bodyEnv env name definition) (Infer.bodyEnv other name definition) := by
  unfold Infer.bodyEnv
  dsimp only
  rw [(relabels.subst definition.subst).generalize_eq]
  exact (relabels.subst definition.subst).extend name _

end Env

namespace Infer

variable {π : Equiv.Perm String} {env other : Env}

/-- The names that closed schemes quantify over do not change a run. -/
theorem run_relabels (expr : Expr) {progress : Progress} (relabels : Env.Relabels π env other) :
    (typing other expr).run.run progress = (typing env expr).run.run progress := by
  induction expr generalizing env other progress with
  | absent => rfl
  | lit kind text mark => rw [typing, typing]
  | var name mark =>
    rw [run_var, run_var]
    rcases relabels name with same | ⟨scheme, lookup, closed, lookupOther⟩
    · rw [same]
    · rw [lookup, lookupOther]
      dsimp only
      rw [Supply.instantiate_rename_of_isClosed closed]
  | func param body mark ih =>
    rw [run_func, run_func]
    dsimp only
    have relabelsBody : Env.Relabels π (env.declare param (.var progress.supply.fresh.1))
      (other.declare param (.var progress.supply.fresh.1)) := relabels.extend param _
    rw [ih relabelsBody]
  | call fn arg mark ihFn ihArg =>
    rw [run_call, run_call, ihFn relabels]
    congr 1
    funext function after
    rw [ihArg (relabels.subst function.subst)]
  | letIn name value body pos ihValue ihBody =>
    rw [run_letIn, run_letIn, ihValue relabels]
    congr 1
    funext definition after
    dsimp only
    rw [(relabels.subst definition.subst).generalize_eq, ihBody (relabels.bodyEnv name definition)]

theorem demand_relabels (expr : Expr) {progress : Progress} (relabels : Env.Relabels π env other) :
    demand other progress expr = demand env progress expr := by
  induction expr generalizing env other progress with
  | absent => rfl
  | lit kind text mark => rfl
  | var name mark =>
    unfold demand
    rcases relabels name with same | ⟨scheme, lookup, _, lookupOther⟩
    · rw [same]
    · rw [lookup, lookupOther]
      exact List.length_map _
  | func param body mark ih => exact congrArg (1 + ·) (ih (relabels.extend param _))
  | call fn arg mark ihFn ihArg =>
    unfold demand
    rw [ihFn relabels, run_relabels fn relabels]
    split
    · rfl
    · dsimp only
      rename_i function after _
      rw [ihArg (relabels.subst function.subst), run_relabels arg (relabels.subst function.subst)]
  | letIn name value body pos ihValue ihBody =>
    unfold demand
    rw [ihValue relabels, run_relabels value relabels]
    split
    · rfl
    · dsimp only
      rename_i definition after _
      rw [(relabels.subst definition.subst).generalize_eq, ihBody (relabels.bodyEnv name definition)]

end Infer

end HindleyMilner
