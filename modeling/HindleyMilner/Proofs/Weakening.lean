import HindleyMilner.Proofs.Principality

/-! The types of an expression depend on the bindings of its free names only.

Other bindings can matter through their free type variables, which a local definition must not
generalize. In a closed environment nothing is lost by that: a derivation can be made with generic
names that are free nowhere, and then it holds in every environment with the same bindings. -/

set_option autoImplicit false

namespace HindleyMilner

open Supply (Old numbered)

namespace Expr

def free : Expr → List String
  | .absent => []
  | .lit _ _ _ => []
  | .var name _ => [name]
  | .call fn arg _ => fn.free ++ arg.free
  | .func param body _ => body.free.filter (· ≠ param)
  | .letIn name value body _ => value.free ++ body.free.filter (· ≠ name)

@[simp] theorem free_mapTypes (f : Ty → Ty) (expr : Expr) : (expr.mapTypes f).free = expr.free := by
  induction expr with
  | absent => rfl
  | lit kind text mark => rfl
  | var name mark => rfl
  | call fn arg mark ihFn ihArg => simp only [mapTypes, free, ihFn, ihArg]
  | func param body mark ih => simp only [mapTypes, free, ih]
  | letIn name value body pos ihValue ihBody => simp only [mapTypes, free, ihValue, ihBody]

theorem free_of_shape {expr other : Expr} (same : expr.shape = other.shape) : expr.free = other.free := by
  rw [← free_mapTypes (fun _ => .absent) expr, ← free_mapTypes (fun _ => .absent) other]
  exact congrArg free same

end Expr

section Fewer

variable {env typed : Env} {expr : Expr} {names : List String} {name : String} {scheme general : Scheme} {t : Ty}

namespace Env

/-- For each of the names the scheme is at least as general as the one of the other environment, and
no binding has free variables that its counterpart does not have. -/
structure Restricts (names : List String) (env typed : Env) : Prop where
  schemes : ∀ name ∈ names, ∀ general, typed.find? name = some general →
    ∃ scheme, env.find? name = some scheme ∧ ∀ t, general.Instance t → scheme.Instance t
  free : ∀ name scheme v, env.find? name = some scheme → scheme.Free v →
    ∃ general, typed.find? name = some general ∧ general.Free v

theorem Restricts.subset {fewer : List String} (restricts : Restricts names env typed)
    (within : ∀ name ∈ fewer, name ∈ names) : Restricts fewer env typed :=
  ⟨fun name mem => restricts.schemes name (within name mem), restricts.free⟩

theorem Restricts.extend (restricts : Restricts (names.filter (· ≠ name)) env typed)
    (instances : ∀ t, general.Instance t → scheme.Instance t)
    (free : ∀ v, scheme.Free v → general.Free v) :
    Restricts names (env.extend name scheme) (typed.extend name general) := by
  constructor
  · intro query mem other lookup
    rw [find?_extend] at lookup ⊢
    split at lookup
    · rename_i same
      cases lookup
      exact ⟨scheme, if_pos same, instances⟩
    · rename_i different
      rw [if_neg different]
      exact restricts.schemes query (by simp [mem, different]) other lookup
  · intro query other v lookup freeV
    rw [find?_extend] at lookup ⊢
    split at lookup
    · rename_i same
      cases lookup
      exact ⟨general, if_pos same, free v freeV⟩
    · rename_i different
      rw [if_neg different]
      exact restricts.free query other v lookup freeV

theorem Restricts.free_of_free (restricts : Restricts names env typed) {v : String} (free : env.Free v) :
    typed.Free v := by
  obtain ⟨name, scheme, lookup, freeV⟩ := free
  obtain ⟨general, lookupTyped, freeTyped⟩ := restricts.free name scheme v lookup freeV
  exact ⟨name, general, lookupTyped, freeTyped⟩

theorem Generalizes.free_iff (quantifies : env.Generalizes t scheme) {v : String} :
    scheme.Free v ↔ t.occurs v = true ∧ env.Free v := by
  obtain ⟨rfl, quantified⟩ := quantifies
  rw [Scheme.Free, quantified]
  constructor
  · rintro ⟨inside, unbound⟩
    exact ⟨inside, Decidable.not_not.1 fun absent => unbound ⟨inside, absent⟩⟩
  · rintro ⟨inside, free⟩
    exact ⟨inside, fun bound => bound.2 free⟩

/-- What is generalized in the environment with fewer free variables has more instances. -/
theorem Restricts.instance_generalize (restricts : Restricts names env typed)
    (quantifies : typed.Generalizes t general) {u : Ty} (found : general.Instance u) :
    (env.generalize t).Instance u := by
  obtain ⟨r, fixed, rfl⟩ := found
  refine ⟨r, fun v free => fixed v (quantifies.free_iff.2 ?_), by rw [quantifies.1, type_generalize]⟩
  obtain ⟨inside, freeEnv⟩ := free_generalize.1 free
  exact ⟨inside, restricts.free_of_free freeEnv⟩

end Env

theorem HasType.of_restricts (derivation : HasType typed expr t) (restricts : Env.Restricts expr.free env typed) :
    HasType env expr t := by
  induction derivation generalizing env with
  | lit base => exact .lit base
  | @var typed name mark general t lookup found whole =>
    obtain ⟨scheme, lookupEnv, instances⟩ := restricts.schemes name (by simp [Expr.free]) general lookup
    exact .var lookupEnv (instances t found) whole
  | func wholeDomain _ ih => exact .func wholeDomain (ih (restricts.extend (fun _ found => found) fun _ free => free))
  | call _ _ ihFn ihArg =>
    exact .call (ihFn (restricts.subset fun name mem => List.mem_append_left _ mem))
      (ihArg (restricts.subset fun name mem => List.mem_append_right _ mem))
  | @letIn typed name value body pos general t u _ quantifies _ ihValue ihBody =>
    have inBody : Env.Restricts (body.free.filter (· ≠ name)) env typed :=
      restricts.subset fun name mem => List.mem_append_right _ mem
    refine .letIn (ihValue (restricts.subset fun name mem => List.mem_append_left _ mem))
      (env.generalizes_generalize t) (ihBody (inBody.extend (fun u found => ?_) fun v free => ?_))
    · exact restricts.instance_generalize quantifies found
    · obtain ⟨inside, freeEnv⟩ := Env.free_generalize.1 free
      exact quantifies.free_iff.2 ⟨inside, restricts.free_of_free freeEnv⟩

end Fewer

section More

variable {outer generic : String → Prop} {env wide : Env} {names : List String} {name v : String}
  {scheme : Scheme} {tree : Expr} {t : Ty}

namespace Env

/-- The other environment has the same bindings for the names and the same bindings with free
variables. Its own bindings with free variables are about outer ones. -/
structure Widens (outer : String → Prop) (names : List String) (env wide : Env) : Prop where
  same : ∀ name ∈ names, wide.find? name = env.find? name
  kept : ∀ name scheme v, env.find? name = some scheme → scheme.Free v → wide.find? name = some scheme
  added : ∀ name scheme v, wide.find? name = some scheme → scheme.Free v → env.find? name = some scheme ∨ outer v

theorem Widens.subset {fewer : List String} (widens : Widens outer names env wide)
    (within : ∀ name ∈ fewer, name ∈ names) : Widens outer fewer env wide :=
  ⟨fun name mem => widens.same name (within name mem), widens.kept, widens.added⟩

theorem Widens.extend (widens : Widens outer (names.filter (· ≠ name)) env wide) (scheme : Scheme) :
    Widens outer names (env.extend name scheme) (wide.extend name scheme) := by
  constructor
  · intro query mem
    rw [find?_extend, find?_extend]
    split
    · rfl
    · rename_i different
      exact widens.same query (by simp [mem, different])
  · intro query other v lookup free
    rw [find?_extend] at lookup ⊢
    split at lookup
    · rename_i same
      rw [if_pos same, lookup]
    · rename_i different
      rw [if_neg different]
      exact widens.kept query other v lookup free
  · intro query other v lookup free
    rw [find?_extend] at lookup ⊢
    split at lookup
    · rename_i same
      exact .inl (by rw [if_pos same, lookup])
    · rename_i different
      rw [if_neg different]
      exact widens.added query other v lookup free

theorem Widens.free_of_free (widens : Widens outer names env wide) (free : env.Free v) : wide.Free v := by
  obtain ⟨name, scheme, lookup, freeV⟩ := free
  exact ⟨name, scheme, widens.kept name scheme v lookup freeV, freeV⟩

theorem Widens.not_free (widens : Widens outer names env wide) (inner : ¬ outer v) (absent : ¬ env.Free v) :
    ¬ wide.Free v := by
  rintro ⟨name, scheme, lookup, freeV⟩
  rcases widens.added name scheme v lookup freeV with lookupEnv | isOuter
  · exact absent ⟨name, scheme, lookupEnv, freeV⟩
  · exact inner isOuter

end Env

/-- A derivation whose generic names are not outer ones holds in the wider environment. -/
theorem Derives.widen (derived : Derives generic env tree) (widens : Env.Widens outer tree.free env wide)
    (inner : ∀ v, generic v → ¬ outer v) : Derives generic wide tree := by
  induction derived generalizing wide with
  | lit base => exact .lit base
  | @var env name mark scheme lookup found whole =>
    exact .var ((widens.same name (by simp [Expr.free])).trans lookup) found whole
  | func whole _ type ih => exact .func whole (ih (widens.extend _)) type
  | call _ _ type ihFn ihArg =>
    exact .call (ihFn (widens.subset fun name mem => List.mem_append_left _ mem))
      (ihArg (widens.subset fun name mem => List.mem_append_right _ mem)) type
  | @letIn env name value body pos scheme _ general names _ ihValue ihBody =>
    have inBody : Env.Widens outer (body.free.filter (· ≠ name)) env wide :=
      widens.subset fun name mem => List.mem_append_right _ mem
    refine .letIn (ihValue (widens.subset fun name mem => List.mem_append_left _ mem))
      ⟨general.1, fun v => ?_⟩ names (ihBody (inBody.extend scheme))
    constructor
    · intro bound
      obtain ⟨inside, absent⟩ := (general.2 v).1 bound
      exact ⟨inside, widens.not_free (inner v (names v bound)) absent⟩
    · rintro ⟨inside, absent⟩
      exact (general.2 v).2 ⟨inside, fun free => absent (widens.free_of_free free)⟩

end More

theorem Supply.exists_old (names : List String) : ∃ n, ∀ v ∈ names, Old n v := by
  induction names with
  | nil => exact ⟨0, fun v mem => absurd mem List.not_mem_nil⟩
  | cons name rest ih =>
    obtain ⟨n, old⟩ := ih
    by_cases numberedName : ∃ k, name = numbered k
    · obtain ⟨k, rfl⟩ := numberedName
      refine ⟨max n (k + 1), List.forall_mem_cons.2 ⟨fun j above same => ?_, fun v mem => ?_⟩⟩
      · have := numbered_injective same
        omega
      · exact (old v mem).mono (Nat.le_max_left _ _)
    · refine ⟨n, List.forall_mem_cons.2 ⟨fun k _ same => numberedName ⟨k, same⟩, old⟩⟩

namespace Subst

variable {s : Subst} {names : List String} {v : String} {t : Ty}

/-- What a substitution does to some names, and nothing else. -/
def only (names : List String) (s : Subst) : Subst := NameMap.ofList (names.map fun name => (name, s.image name))

theorem find?_only (names : List String) (s : Subst) (v : String) :
    NameMap.find? (only names s) v = if v ∈ names then some (s.image v) else none := by
  unfold only
  split
  · rename_i mem
    exact NameMap.find?_ofList_of_mem (List.mem_map.2 ⟨v, mem, rfl⟩) (by simp)
  · rename_i absent
    exact NameMap.find?_ofList_eq_none (by simpa using absent)

theorem apply_only (within : ∀ v, t.occurs v = true → v ∈ names) : (only names s).apply t = s.apply t := by
  refine apply_congr fun v inside => image_of_find ?_
  rw [find?_only, if_pos (within v inside)]

theorem mem_of_binds_only (binds : (only names s).Binds v) : v ∈ names := by
  obtain ⟨t, found⟩ := binds
  rw [find?_only] at found
  split at found
  · assumption
  · cases found

theorem occurs_of_mentions_only (within : ∀ v ∈ names, t.occurs v = true) (put : (only names s).Mentions v) :
    (s.apply t).occurs v = true := by
  obtain ⟨w, u, found, inside⟩ := put
  rw [find?_only] at found
  split at found
  · rename_i mem
    cases found
    exact occurs_apply_of_image (within w mem) inside
  · cases found

theorem isComplete_only (whole : (s.apply t).isComplete = true) : (only t.vars s).IsComplete := by
  intro v u found
  rw [find?_only] at found
  split at found
  · rename_i mem
    cases found
    exact (isComplete_apply.1 whole).2 v (Ty.mem_vars.1 mem)
  · cases found

end Subst

section Closed

variable {env wide : Env} {expr : Expr} {t : Ty}

/-- Every instance of a type in a closed environment is a type wherever the free names are bound
alike. -/
theorem HasType.widen (derivation : HasType env expr t) (closed : env.IsClosed) (whole : env.IsComplete)
    (same : ∀ name ∈ expr.free, wide.find? name = env.find? name) {r : Subst}
    (wholeType : (r.apply t).isComplete = true) : HasType wide expr (r.apply t) := by
  -- All numbers from `n` on are new to the wider environment and to the type.
  obtain ⟨n, old⟩ := Supply.exists_old
    ((wide.entries.flatMap fun entry => entry.2.freeVars) ++ (r.apply t).vars)
  have oldWide (v : String) (free : wide.Free v) : Old n v := by
    obtain ⟨name, scheme, lookup, freeV⟩ := free
    refine old v (List.mem_append_left _ (List.mem_flatMap.2 ⟨(name, scheme), ?_, ?_⟩))
    · exact NameMap.mem_entries.2 lookup
    · exact Scheme.mem_freeVars.2 freeV
  have oldType (v : String) (inside : (r.apply t).occurs v = true) : Old n v :=
    old v (List.mem_append_right _ (Ty.mem_vars.2 inside))
  have safe := Env.safe_of_isClosed whole closed n
  obtain ⟨found, m, run, q, type, _⟩ := Infer.exists_run_of_hasType derivation (Env.covers_refl env) safe
  rw [type, ← Subst.apply_compose] at wholeType oldType ⊢
  have sound := run.sound safe
  -- Kept to the variables of the type, the specialization leaves the generic names alone.
  let special : Subst := (q.compose r).only found.type.vars
  have untouched (v : String) (spent : Infer.Spent env n m found.subst found.type v) : ¬ special.Touches v := by
    rintro (binds | put)
    · exact spent.2.2 (Ty.mem_vars.1 (Subst.mem_of_binds_only binds))
    · exact spent.1.not_old (oldType v (Subst.occurs_of_mentions_only (fun w mem => Ty.mem_vars.1 mem) put))
  have clear : Env.NoCapture special (env.subst found.subst) := by
    rw [Env.subst_of_isClosed closed]
    exact fun name scheme lookup v free => absurd ⟨name, scheme, lookup, free⟩ (closed v)
  have derived := sound.derives.subst (Subst.isComplete_only wholeType) clear untouched
  rw [Env.subst_of_isClosed closed, Env.subst_of_isClosed closed] at derived
  have shape : ((found.tree.mapTypes found.subst.apply).mapTypes special.apply).shape = expr.shape := by
    rw [Expr.shape_mapTypes, Expr.shape_mapTypes, run.shape_tree]
  have widens : Env.Widens wide.Free ((found.tree.mapTypes found.subst.apply).mapTypes special.apply).free env wide := by
    refine ⟨?_, fun name scheme v lookup free => ?_, fun name scheme v lookup free => ?_⟩
    · rwa [Expr.free_of_shape shape]
    · exact absurd ⟨name, scheme, lookup, free⟩ (closed v)
    · exact .inr ⟨name, scheme, lookup, free⟩
  have typed := (derived.widen widens fun v spent free => spent.1.not_old (oldWide v free)).hasType
  rw [Expr.type_mapTypes_apply, Expr.type_mapTypes_apply, sound.assigned, (run.settled safe).settled,
    Subst.apply_only fun v inside => Ty.mem_vars.2 inside] at typed
  exact typed.of_shape shape

/-- The types in a closed environment are the types wherever the free names are bound alike. -/
theorem hasType_iff_of_free (closed : env.IsClosed) (whole : env.IsComplete)
    (same : ∀ name ∈ expr.free, wide.find? name = env.find? name) : HasType wide expr t ↔ HasType env expr t := by
  constructor
  · intro derivation
    refine derivation.of_restricts ⟨fun name mem general lookup => ?_, fun name scheme v lookup free => ?_⟩
    · exact ⟨general, (same name mem).symm.trans lookup, fun _ found => found⟩
    · exact absurd ⟨name, scheme, lookup, free⟩ (closed v)
  · intro derivation
    have wholeType := derivation.isComplete
    rw [← Subst.apply_empty t] at wholeType ⊢
    exact derivation.widen closed whole same wholeType

end Closed

end HindleyMilner
