import HindleyMilner.Env
import HindleyMilner.Proofs.Substitution

/-! Free variables of schemes and environments, and substitution that captures none.

Substitution into a scheme leaves its quantified names alone and does not rename them, so it is
the substitution one expects only where nothing put in for a free variable has a quantified name.
A closed environment is never changed. -/

set_option autoImplicit false

namespace HindleyMilner

namespace Scheme

variable {s r next : Subst} {scheme : Scheme} {v w : String}

def Free (scheme : Scheme) (v : String) : Prop := scheme.type.occurs v = true ∧ v ∉ scheme.bound

theorem mem_freeVars : v ∈ scheme.freeVars ↔ scheme.Free v := by
  unfold freeVars Free
  rw [Ty.mem_collect]
  simp [and_comm]

instance (scheme : Scheme) (v : String) : Decidable (scheme.Free v) :=
  inferInstanceAs (Decidable (_ ∧ _))

@[simp] theorem free_mono {t : Ty} : (mono t).Free v ↔ t.occurs v = true := by simp [Free, mono]

@[simp] theorem bound_subst (s : Subst) (scheme : Scheme) : (scheme.subst s).bound = scheme.bound := rfl

theorem type_subst (s : Subst) (scheme : Scheme) :
    (scheme.subst s).type = (s.without scheme.bound).apply scheme.type := rfl

/-- Nothing that the substitution puts in for a free variable has a quantified name. -/
def NoCapture (s : Subst) (scheme : Scheme) : Prop :=
  ∀ v, scheme.Free v → ∀ b ∈ scheme.bound, ¬ (s.image v).occurs b = true

theorem noCapture_mono (s : Subst) (t : Ty) : NoCapture s (mono t) := by
  intro v _ b mem
  exact absurd mem List.not_mem_nil

/-- A substitution that puts in no quantified name captures nothing, also if it binds quantified names. -/
theorem noCapture_of_not_mentions (apart : ∀ b ∈ scheme.bound, ¬ s.Mentions b) : NoCapture s scheme := by
  intro v free b mem inImage
  rcases Subst.occurs_image inImage with ⟨_, put⟩ | ⟨same, _⟩
  · exact apart b mem put
  · exact free.2 (same ▸ mem)

theorem subst_congr (same : ∀ v, scheme.Free v → s.image v = r.image v) :
    scheme.subst s = scheme.subst r := by
  unfold subst
  congr 1
  refine Subst.apply_congr fun v inside => ?_
  rw [Subst.image_without, Subst.image_without]
  split
  · rfl
  · rename_i free
    exact same v ⟨inside, free⟩

@[simp] theorem subst_empty (scheme : Scheme) : scheme.subst ∅ = scheme := by
  have fixed : (Subst.without ∅ scheme.bound).apply scheme.type = scheme.type :=
    Subst.apply_eq_self_iff.2 fun v _ => by simp [Subst.image_without]
  unfold subst
  rw [fixed]

theorem free_subst_iff :
    (scheme.subst s).Free w ↔ w ∉ scheme.bound ∧ ∃ v, scheme.Free v ∧ (s.image v).occurs w = true := by
  unfold Free
  rw [type_subst, bound_subst, Subst.occurs_apply]
  constructor
  · rintro ⟨⟨v, inType, inImage⟩, outside⟩
    rw [Subst.image_without] at inImage
    split at inImage
    · rename_i bound
      rw [Ty.occurs_var] at inImage
      exact absurd (inImage ▸ bound) outside
    · rename_i unbound
      exact ⟨outside, v, ⟨inType, unbound⟩, inImage⟩
  · rintro ⟨outside, v, ⟨inType, unbound⟩, inImage⟩
    refine ⟨⟨v, inType, ?_⟩, outside⟩
    rw [Subst.image_without, if_neg unbound]
    exact inImage

theorem free_of_free_subst (free : (scheme.subst s).Free w) :
    ∃ v, scheme.Free v ∧ (s.image v).occurs w = true := (free_subst_iff.1 free).2

theorem free_subst (clear : NoCapture s scheme) :
    (scheme.subst s).Free w ↔ ∃ v, scheme.Free v ∧ (s.image v).occurs w = true := by
  rw [free_subst_iff, and_iff_right_iff_imp]
  rintro ⟨v, free, inImage⟩ bound
  exact clear v free w bound inImage

/-- What is put in for a free variable is free afterwards unless it has a quantified name. So all of
it stays free exactly where nothing is captured. -/
theorem freeVars_subst (s : Subst) (scheme : Scheme) :
    (∀ v, v ∈ (scheme.subst s).freeVars ↔
      v ∉ scheme.bound ∧ ∃ u ∈ scheme.freeVars, v ∈ (s.apply (.var u)).vars) ∧
    ((∀ v, v ∈ (scheme.subst s).freeVars ↔ ∃ u ∈ scheme.freeVars, v ∈ (s.apply (.var u)).vars) ↔
      NoCapture s scheme) := by
  simp only [mem_freeVars, Ty.mem_vars, Subst.apply_var]
  refine ⟨fun v => free_subst_iff, fun kept u free b bound inImage => ?_, fun clear v => free_subst clear⟩
  exact (free_subst_iff.1 ((kept b).2 ⟨u, free, inImage⟩)).1 bound

/-- The variable put in for `a` is taken for the quantified one. -/
theorem freeVars_subst_captured :
    ¬ ("b" ∈ (Scheme.subst (NameMap.single "a" (.var "b")) ⟨["b"], .arrow (.var "b") (.var "a")⟩).freeVars ↔
      ∃ u ∈ Scheme.freeVars ⟨["b"], .arrow (.var "b") (.var "a")⟩,
        "b" ∈ (Subst.apply (NameMap.single "a" (.var "b")) (.var u)).vars) := by
  decide

/-- Substituting twice is substituting the composition, where the first time nothing is captured. -/
theorem subst_subst (clear : NoCapture s scheme) :
    (scheme.subst s).subst next = scheme.subst (s.compose next) := by
  unfold subst
  congr 1
  rw [← Subst.apply_compose]
  refine Subst.apply_congr fun v inside => ?_
  rw [Subst.image_compose, Subst.image_without, Subst.image_without]
  split
  · rename_i bound
    simp [Subst.image_without, bound]
  · rename_i unbound
    rw [Subst.image_compose]
    refine Subst.apply_congr fun w inImage => ?_
    -- Had `w` a quantified name, the second substitution would pass it over.
    have kept : w ∉ scheme.bound := fun bound => clear v ⟨inside, unbound⟩ w bound inImage
    rw [Subst.image_without, if_neg kept]

end Scheme

namespace Env

variable {s r next : Subst} {env : Env} {scheme : Scheme} {name v w : String} {t : Ty}

def Free (env : Env) (v : String) : Prop := ∃ name scheme, env.find? name = some scheme ∧ scheme.Free v

def IsComplete (env : Env) : Prop :=
  ∀ name scheme, env.find? name = some scheme → scheme.type.isComplete = true

def IsClosed (env : Env) : Prop := ∀ v, ¬ env.Free v

def NoCapture (s : Subst) (env : Env) : Prop :=
  ∀ name scheme, env.find? name = some scheme → Scheme.NoCapture s scheme

theorem contains_freeVars : env.freeVars.contains v = true ↔ env.Free v := by
  unfold freeVars
  rw [NameSet.contains_ofNames, decide_eq_true_iff, List.mem_flatMap]
  constructor
  · rintro ⟨⟨name, scheme⟩, mem, free⟩
    exact ⟨name, scheme, NameMap.mem_entries.1 mem, Scheme.mem_freeVars.1 free⟩
  · rintro ⟨name, scheme, found, free⟩
    exact ⟨(name, scheme), NameMap.mem_entries.2 found, Scheme.mem_freeVars.2 free⟩

instance (env : Env) (v : String) : Decidable (env.Free v) := decidable_of_iff _ contains_freeVars

@[simp] theorem find?_subst (s : Subst) (env : Env) (name : String) :
    NameMap.find? (env.subst s) name = (env.find? name).map (Scheme.subst s) :=
  NameMap.find?_map _ _ _

theorem find?_subst_some {scheme' : Scheme} (found : NameMap.find? (env.subst s) name = some scheme') :
    ∃ scheme, env.find? name = some scheme ∧ scheme' = scheme.subst s := by
  rw [find?_subst] at found
  obtain ⟨scheme, old, rfl⟩ := Option.map_eq_some_iff.1 found
  exact ⟨scheme, old, rfl⟩

@[simp] theorem find?_extend (env : Env) (name : String) (scheme : Scheme) (query : String) :
    NameMap.find? (env.extend name scheme) query = if query = name then some scheme else env.find? query :=
  NameMap.find?_insert _ _ _ _

@[simp] theorem subst_empty (env : Env) : env.subst ∅ = env := by
  apply NameMap.ext_find?
  intro name
  rw [find?_subst]
  cases env.find? name <;> simp

theorem subst_extend (s : Subst) (env : Env) (name : String) (scheme : Scheme) :
    (env.extend name scheme).subst s = (env.subst s).extend name (scheme.subst s) := by
  apply NameMap.ext_find?
  intro query
  rw [find?_subst, find?_extend, find?_extend, find?_subst]
  split <;> rfl

theorem subst_declare (s : Subst) (env : Env) (name : String) (t : Ty) :
    (env.declare name t).subst s = (env.subst s).declare name (s.apply t) := subst_extend s env name (.mono t)

theorem free_of_free_subst (free : Free (env.subst s) w) : ∃ v, env.Free v ∧ (s.image v).occurs w = true := by
  obtain ⟨name, scheme', found, free⟩ := free
  obtain ⟨scheme, old, rfl⟩ := find?_subst_some found
  obtain ⟨v, freeOld, inImage⟩ := Scheme.free_of_free_subst free
  exact ⟨v, ⟨name, scheme, old, freeOld⟩, inImage⟩

theorem free_subst (clear : env.NoCapture s) :
    Free (env.subst s) w ↔ ∃ v, env.Free v ∧ (s.image v).occurs w = true := by
  constructor
  · exact free_of_free_subst
  · rintro ⟨v, ⟨name, scheme, found, free⟩, inImage⟩
    exact ⟨name, scheme.subst s, by rw [find?_subst, found]; rfl,
      (Scheme.free_subst (clear name scheme found)).2 ⟨v, free, inImage⟩⟩

theorem subst_subst (clear : env.NoCapture s) : (env.subst s).subst next = env.subst (s.compose next) := by
  apply NameMap.ext_find?
  intro name
  rw [find?_subst, find?_subst, find?_subst]
  cases found : env.find? name with
  | none => rfl
  | some scheme => exact congrArg some (Scheme.subst_subst (clear name scheme found))

theorem subst_congr (same : ∀ v, env.Free v → s.image v = r.image v) : env.subst s = env.subst r := by
  apply NameMap.ext_find?
  intro name
  rw [find?_subst, find?_subst]
  cases found : env.find? name with
  | none => rfl
  | some scheme =>
    exact congrArg some (Scheme.subst_congr fun v free => same v ⟨name, scheme, found, free⟩)

theorem subst_of_isClosed (closed : env.IsClosed) (s : Subst) : env.subst s = env :=
  (subst_congr fun v free => absurd free (closed v)).trans (subst_empty env)

theorem free_of_free_extend (free : Free (env.extend name scheme) v) : scheme.Free v ∨ env.Free v := by
  obtain ⟨query, found, lookup, free⟩ := free
  rw [find?_extend] at lookup
  split at lookup
  · cases lookup
    exact .inl free
  · exact .inr ⟨query, found, lookup, free⟩

theorem free_extend_of_scheme (free : scheme.Free v) : Free (env.extend name scheme) v :=
  ⟨name, scheme, by simp, free⟩

theorem IsComplete.extend (whole : env.IsComplete) (wholeScheme : scheme.type.isComplete = true) :
    IsComplete (env.extend name scheme) := by
  intro query found lookup
  rw [find?_extend] at lookup
  split at lookup
  · cases lookup
    exact wholeScheme
  · exact whole query found lookup

theorem IsComplete.subst (whole : env.IsComplete) (wholeSubst : s.IsComplete) : IsComplete (env.subst s) := by
  intro name scheme' found
  obtain ⟨scheme, old, rfl⟩ := find?_subst_some found
  refine Subst.isComplete_apply.2 ⟨whole name scheme old, fun v _ => ?_⟩
  rw [Subst.image_without]
  split
  · exact Ty.isComplete_var v
  · exact wholeSubst.image v

@[simp] theorem type_generalize (env : Env) (t : Ty) : (env.generalize t).type = t := rfl

@[simp] theorem mem_bound_generalize :
    v ∈ (env.generalize t).bound ↔ t.occurs v = true ∧ ¬ env.Free v := by
  unfold generalize Scheme.generalize
  rw [List.mem_filter, Ty.mem_vars, Bool.not_eq_true', ← Bool.not_eq_true, contains_freeVars]

theorem free_generalize : (env.generalize t).Free v ↔ t.occurs v = true ∧ env.Free v := by
  unfold Scheme.Free
  rw [type_generalize, mem_bound_generalize]
  constructor
  · rintro ⟨inside, kept⟩
    exact ⟨inside, Decidable.not_not.1 fun free => kept ⟨inside, free⟩⟩
  · rintro ⟨inside, free⟩
    exact ⟨inside, fun bound => bound.2 free⟩

/-- What is quantified depends on which variables of the type are free in the environment. -/
theorem generalize_congr {other : Env} (same : ∀ v, t.occurs v = true → (env.Free v ↔ other.Free v)) :
    env.generalize t = other.generalize t := by
  unfold generalize Scheme.generalize
  congr 1
  refine List.filter_congr fun v mem => ?_
  have sameV := same v (Ty.mem_vars.1 mem)
  rw [← contains_freeVars, ← contains_freeVars] at sameV
  rw [Bool.eq_iff_iff.2 sameV]

end Env

namespace Subst

/-- Composition is one substitution after the other, on types in any case. It is so on schemes and on
environments of schemes if the first substitution puts in no quantified name; which names it binds, and
what the second one puts in, does not matter there. -/
theorem compose_law (s next last : Subst) :
    (∀ t, (s.compose next).apply t = next.apply (s.apply t)) ∧
    (s.compose next).compose last = s.compose (next.compose last) ∧
    (∀ scheme : Scheme, (∀ b ∈ scheme.bound, ¬ s.Mentions b) →
      scheme.subst (s.compose next) = (scheme.subst s).subst next) ∧
    ∀ env : Env, (∀ name scheme, env.find? name = some scheme → ∀ b ∈ scheme.bound, ¬ s.Mentions b) →
      (env.subst s).subst next = env.subst (s.compose next) := by
  refine ⟨apply_compose s next, compose_assoc s next last, fun scheme apart => ?_, fun env apart => ?_⟩
  · exact (Scheme.subst_subst (Scheme.noCapture_of_not_mentions apart)).symm
  · exact Env.subst_subst fun name scheme lookup => Scheme.noCapture_of_not_mentions (apart name scheme lookup)

/-- The first substitution binds the quantified name, and the second one puts it in, so that it is captured
on both sides; both bind `b`, and one of them to itself. -/
theorem compose_law_captured :
    let s : Subst := NameMap.insert (NameMap.insert (NameMap.single "b" (.var "b")) "a" (.var "b")) "c" .int
    let next : Subst := NameMap.single "b" (.arrow (.var "c") (.var "a"))
    let scheme : Scheme := ⟨["c"], .arrow (.var "a") (.arrow (.var "b") (.var "c"))⟩
    let env : Env := Env.extend (Env.declare ∅ "y" (.var "c")) "f" scheme
    (∀ b ∈ scheme.bound, ¬ s.Mentions b) ∧
    ((scheme.subst s).subst next).type = .arrow (.arrow (.var "c") (.var "a"))
      (.arrow (.arrow (.var "c") (.var "a")) (.var "c")) ∧
    scheme.subst (s.compose next) = (scheme.subst s).subst next ∧
    (env.subst s).subst next = env.subst (s.compose next) := by
  intro s next scheme env
  have apart : ∀ b ∈ scheme.bound, ¬ s.Mentions b := by decide
  have apartEach : ∀ entry ∈ env.entries, ∀ b ∈ entry.2.bound, ¬ s.Mentions b := by decide
  obtain ⟨_, _, schemes, envs⟩ := compose_law s next ∅
  refine ⟨apart, by decide, schemes scheme apart, envs env fun name scheme lookup => ?_⟩
  exact apartEach (name, scheme) (NameMap.mem_entries.2 lookup)

end Subst

end HindleyMilner
