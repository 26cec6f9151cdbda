import HindleyMilner.Proofs.Definitions
import HindleyMilner.Proofs.Weakening

/-! Local definitions and their replacement by the defined expression.

A definition is replaced by putting its value in for the free occurrences of its name. Bound names
that are free in the value are changed first, so nothing is captured. In a closed environment the
occurrences of the value have, each on its own, exactly the types that the generalized definition
has. -/

set_option autoImplicit false

namespace HindleyMilner

namespace Expr

def names : Expr → List String
  | .absent => []
  | .lit _ _ _ => []
  | .var name _ => [name]
  | .call fn arg _ => fn.names ++ arg.names
  | .func param body _ => param :: body.names
  | .letIn name value body _ => name :: (value.names ++ body.names)

/-- What stands for an occurrence of a name after `value` is put in for `name`. Names in scope are
bound around the occurrence and have been changed by `new`. -/
def occurrence (name : String) (value : Expr) (new : String → String) (scope : List String) (other : String)
    (mark : Mark) : Expr :=
  if other ∈ scope then .var (new other) mark
  else if other = name then value
  else .var other mark

def replaceWithin (name : String) (value : Expr) (new : String → String) (scope : List String) : Expr → Expr
  | .absent => .absent
  | .lit kind text mark => .lit kind text mark
  | .var other mark => occurrence name value new scope other mark
  | .call fn arg mark => .call (replaceWithin name value new scope fn) (replaceWithin name value new scope arg) mark
  | .func param body mark => .func (new param) (replaceWithin name value new (param :: scope) body) mark
  | .letIn other definition body pos =>
    .letIn (new other) (replaceWithin name value new scope definition)
      (replaceWithin name value new (other :: scope) body) pos

/-- A bound name that is free in the value is lengthened until it is none of the names around. -/
def boundApart (value body : Expr) (bound : String) : String :=
  if bound ∈ value.free then Scheme.padding (value.names ++ body.names) ++ bound else bound

/-- Capture-avoiding substitution of an expression for the free occurrences of a name. -/
def replace (name : String) (value body : Expr) : Expr :=
  replaceWithin name value (boundApart value body) [] body

theorem names_of_free {expr : Expr} {name : String} (mem : name ∈ expr.free) : name ∈ expr.names := by
  induction expr with
  | absent => exact mem
  | lit kind text mark => exact mem
  | var other mark => exact mem
  | call fn arg mark ihFn ihArg =>
    simp only [free, names, List.mem_append] at mem ⊢
    exact mem.imp ihFn ihArg
  | func param body mark ih =>
    exact List.mem_cons_of_mem _ (ih (List.mem_of_mem_filter mem))
  | letIn other value body pos ihValue ihBody =>
    simp only [free, names, List.mem_append, List.mem_cons] at mem ⊢
    exact .inr (mem.imp ihValue fun inBody => ihBody (List.mem_of_mem_filter inBody))

/-- New names for the bound ones among `names` that are neither free in the value nor taken for
other names. -/
structure Fresh (value : Expr) (names : List String) (new : String → String) : Prop where
  distinct : ∀ b ∈ names, ∀ c ∈ names, new b = new c → b = c
  unused : ∀ b ∈ names, ∀ c ∈ names, new b = c → b = c
  avoids : ∀ b ∈ names, new b ∉ value.free

theorem fresh_boundApart (value body : Expr) : Fresh value body.names (boundApart value body) := by
  have taken (b c : String) (mem : c ∈ value.names ++ body.names) : Scheme.padding (value.names ++ body.names) ++ b ≠ c :=
    fun same => Scheme.padding_append_not_mem _ b (same ▸ mem)
  unfold boundApart
  constructor
  · intro b memB c memC same
    split at same <;> split at same
    · exact (String.append_right_inj _).1 same
    · exact absurd same (taken b c (List.mem_append_right _ memC))
    · exact absurd same.symm (taken c b (List.mem_append_right _ memB))
    · exact same
  · intro b memB c memC same
    split at same
    · exact absurd same (taken b c (List.mem_append_right _ memC))
    · exact same
  · intro b memB mem
    split at mem
    · exact taken b _ (List.mem_append_left _ (names_of_free mem)) rfl
    · contradiction

variable {name query : String} {value expr : Expr} {new : String → String} {scope all : List String}

theorem free_occurrence (mark other : Mark) :
    (occurrence name value new scope query mark).free = (occurrence name value new scope query other).free := by
  unfold occurrence
  split
  · rfl
  · split <;> rfl

theorem not_mem_free_occurrence {param c : String} {mark : Mark} (fresh : Fresh value all new)
    (memParam : param ∈ all) (mem : c ∈ all) (other : c ≠ param) :
    new param ∉ (occurrence name value new scope c mark).free := by
  unfold occurrence
  split
  · rename_i bound
    simpa [free] using fun same => other (fresh.distinct param memParam c mem same).symm
  · split
    · exact fresh.avoids param memParam
    · simpa [free] using fun same => other (fresh.unused param memParam c mem same).symm

theorem mem_free_bind {param : String} {body : Expr} (fresh : Fresh value all new)
    (within : ∀ c ∈ param :: body.names, c ∈ all)
    (ih : query ∈ (replaceWithin name value new (param :: scope) body).free ↔
      ∃ c ∈ body.free, query ∈ (occurrence name value new (param :: scope) c {}).free) :
    query ∈ (replaceWithin name value new (param :: scope) body).free.filter (· ≠ new param) ↔
      ∃ c ∈ body.free.filter (· ≠ param), query ∈ (occurrence name value new scope c {}).free := by
  simp only [List.mem_filter, decide_eq_true_eq, ih]
  have outside (c : String) (other : c ≠ param) :
      occurrence name value new (param :: scope) c {} = occurrence name value new scope c {} := by
    simp [occurrence, other]
  constructor
  · rintro ⟨⟨c, mem, inside⟩, different⟩
    by_cases same : c = param
    · subst same
      simp [occurrence, free] at inside
      exact absurd inside different
    · exact ⟨c, ⟨mem, same⟩, outside c same ▸ inside⟩
  · rintro ⟨c, ⟨mem, other⟩, inside⟩
    refine ⟨⟨c, mem, (outside c other).symm ▸ inside⟩, ?_⟩
    rintro rfl
    rw [List.forall_mem_cons] at within
    exact not_mem_free_occurrence fresh within.1 (within.2 c (names_of_free mem)) other inside

theorem mem_free_replaceWithin (fresh : Fresh value all new) (within : ∀ c ∈ expr.names, c ∈ all)
    (inScope : ∀ b ∈ scope, b ∈ all) :
    query ∈ (replaceWithin name value new scope expr).free ↔
      ∃ c ∈ expr.free, query ∈ (occurrence name value new scope c {}).free := by
  induction expr generalizing scope with
  | absent => simp [replaceWithin, free]
  | lit kind text mark => simp [replaceWithin, free]
  | var other mark => simp [replaceWithin, free, free_occurrence mark {}]
  | call fn arg mark ihFn ihArg =>
    simp only [names, List.forall_mem_append] at within
    simp only [replaceWithin, free, List.mem_append, ihFn within.1 inScope, ihArg within.2 inScope]
    grind
  | func param body mark ih =>
    have inBody := List.forall_mem_cons.1 within
    exact mem_free_bind fresh within (ih inBody.2 (List.forall_mem_cons.2 ⟨inBody.1, inScope⟩))
  | letIn other definition body pos ihValue ihBody =>
    simp only [names, List.forall_mem_cons, List.forall_mem_append] at within
    obtain ⟨memOther, inDefinition, inBody⟩ := within
    have bound := mem_free_bind fresh (List.forall_mem_cons.2 ⟨memOther, inBody⟩)
      (ihBody inBody (List.forall_mem_cons.2 ⟨memOther, inScope⟩))
    simp only [replaceWithin, free, List.mem_append, ihValue inDefinition inScope, bound]
    grind

/-- Nothing is captured: what is free in the value stays free. -/
theorem mem_free_replace {body : Expr} :
    query ∈ (replace name value body).free ↔
      query ∈ body.free ∧ query ≠ name ∨ name ∈ body.free ∧ query ∈ value.free := by
  unfold replace
  rw [mem_free_replaceWithin (fresh_boundApart value body) (fun _ mem => mem) (by simp)]
  constructor
  · rintro ⟨c, mem, inside⟩
    by_cases same : c = name
    · subst same
      exact .inr ⟨mem, by simpa [occurrence] using inside⟩
    · have : query = c := by simpa [occurrence, same, free] using inside
      exact .inl ⟨this ▸ mem, this ▸ same⟩
  · rintro (⟨mem, other⟩ | ⟨mem, inside⟩)
    · exact ⟨query, mem, by simp [occurrence, other, free]⟩
    · exact ⟨name, mem, by simpa [occurrence] using inside⟩

end Expr

namespace Env

variable {env inner outer : Env} {name v b : String} {scheme other : Scheme} {new : String → String}
  {scope : List String} {t : Ty}

/-- The environments of an expression before and after the replacement. A name in scope has a binding
under its new name afterwards, and all else is as in `env`, except that before the replacement there
is a definition of `name`. -/
structure Replaces (env : Env) (name : String) (scheme : Scheme) (new : String → String) (scope : List String)
    (inner outer : Env) : Prop where
  bound : ∀ b ∈ scope, outer.find? (new b) = inner.find? b
  inside : ∀ c ∉ scope, inner.find? c = NameMap.find? (env.extend name scheme) c
  outside : ∀ c, (∀ b ∈ scope, new b ≠ c) → outer.find? c = env.find? c

theorem replaces_extend (env : Env) (name : String) (scheme : Scheme) (new : String → String) :
    Replaces env name scheme new [] (env.extend name scheme) env :=
  ⟨fun _ mem => absurd mem List.not_mem_nil, fun _ _ => rfl, fun _ _ => rfl⟩

theorem Replaces.extend (replaces : Replaces env name scheme new scope inner outer)
    (distinct : ∀ c ∈ scope, new c = new b → c = b) (other : Scheme) :
    Replaces env name scheme new (b :: scope) (inner.extend b other) (outer.extend (new b) other) := by
  constructor
  · intro c mem
    rw [find?_extend, find?_extend]
    by_cases same : c = b
    · rw [if_pos same, if_pos (congrArg new same)]
    · have inScope := (List.mem_cons.1 mem).resolve_left same
      rw [if_neg same, if_neg fun sameNew => same (distinct c inScope sameNew)]
      exact replaces.bound c inScope
  · intro c absent
    rw [List.mem_cons, not_or] at absent
    rw [find?_extend, if_neg absent.1]
    exact replaces.inside c absent.2
  · intro c apart
    rw [List.forall_mem_cons] at apart
    rw [find?_extend, if_neg (Ne.symm apart.1)]
    exact replaces.outside c apart.2

theorem Replaces.free_iff (replaces : Replaces env name scheme new scope inner outer) (closed : env.IsClosed)
    (closedScheme : ∀ v, ¬ scheme.Free v) : inner.Free v ↔ outer.Free v := by
  constructor
  · rintro ⟨c, found, lookup, free⟩
    by_cases mem : c ∈ scope
    · exact ⟨new c, found, (replaces.bound c mem).trans lookup, free⟩
    · rw [replaces.inside c mem] at lookup
      rcases free_of_free_extend ⟨c, found, lookup, free⟩ with freeScheme | freeEnv
      · exact absurd freeScheme (closedScheme v)
      · exact absurd freeEnv (closed v)
  · rintro ⟨c, found, lookup, free⟩
    by_cases renamed : ∃ b ∈ scope, new b = c
    · obtain ⟨b, mem, rfl⟩ := renamed
      exact ⟨b, found, (replaces.bound b mem).symm.trans lookup, free⟩
    · rw [replaces.outside c fun b mem same => renamed ⟨b, mem, same⟩] at lookup
      exact absurd ⟨c, found, lookup, free⟩ (closed v)

end Env

section Declarative

variable {env inner outer : Env} {name : String} {value body expr : Expr} {new : String → String}
  {scope all : List String} {pos : Position} {t u : Ty}

namespace HasType

variable {fn arg : Expr} {mark : Mark} {param : String}

theorem var_iff : HasType env (.var name mark) u ↔
    ∃ scheme, env.find? name = some scheme ∧ scheme.Instance u ∧ u.isComplete = true := by
  constructor
  · rintro ⟨⟩
    exact ⟨_, ‹_›, ‹_›, ‹_›⟩
  · rintro ⟨scheme, lookup, found, whole⟩
    exact .var lookup found whole

theorem call_iff : HasType env (.call fn arg mark) u ↔
    ∃ domain, HasType env fn (.arrow domain u) ∧ HasType env arg domain := by
  constructor
  · rintro ⟨⟩
    exact ⟨_, ‹_›, ‹_›⟩
  · rintro ⟨domain, typedFn, typedArg⟩
    exact .call typedFn typedArg

theorem func_iff : HasType env (.func param body mark) u ↔
    ∃ domain codomain, domain.isComplete = true ∧ HasType (env.declare param domain) body codomain ∧
      u = .arrow domain codomain := by
  constructor
  · rintro ⟨⟩
    exact ⟨_, _, ‹_›, ‹_›, rfl⟩
  · rintro ⟨domain, codomain, whole, typed, rfl⟩
    exact .func whole typed

theorem letIn_iff : HasType env (.letIn name value body pos) u ↔
    ∃ t scheme, HasType env value t ∧ env.Generalizes t scheme ∧ HasType (env.extend name scheme) body u := by
  constructor
  · rintro ⟨⟩
    exact ⟨_, _, ‹_›, ‹_›, ‹_›⟩
  · rintro ⟨t, scheme, typed, general, typedBody⟩
    exact .letIn typed general typedBody

end HasType

/-- The definition has the types of its value, in each place where the value can be put. -/
theorem hasType_value_iff (closed : env.IsClosed) (whole : env.IsComplete) (principal : Principal env value t)
    (same : ∀ c ∈ value.free, outer.find? c = env.find? c) :
    HasType outer value u ↔ (env.generalize t).Instance u ∧ u.isComplete = true := by
  constructor
  · intro derivation
    obtain ⟨r, rfl⟩ := principal.2 u ((hasType_iff_of_free closed whole same).1 derivation)
    refine ⟨⟨r, fun v free => ?_, rfl⟩, derivation.isComplete⟩
    exact absurd (Env.free_generalize.1 free).2 (closed v)
  · rintro ⟨⟨r, _, rfl⟩, wholeType⟩
    exact principal.1.widen closed whole same wholeType

theorem hasType_replaceWithin_iff (closed : env.IsClosed) (whole : env.IsComplete)
    (principal : Principal env value t) (fresh : Expr.Fresh value all new) (within : ∀ c ∈ expr.names, c ∈ all)
    (inScope : ∀ b ∈ scope, b ∈ all) (replaces : Env.Replaces env name (env.generalize t) new scope inner outer) :
    HasType outer (Expr.replaceWithin name value new scope expr) u ↔ HasType inner expr u := by
  -- The two environments grow binder by binder and have the same free variables all the time.
  induction expr generalizing scope inner outer u with
  | absent => exact ⟨nofun, nofun⟩
  | lit kind text mark => exact ⟨fun | .lit base => .lit base, fun | .lit base => .lit base⟩
  | var other mark =>
    unfold Expr.replaceWithin Expr.occurrence
    split
    · rename_i bound
      rw [HasType.var_iff, HasType.var_iff, replaces.bound other bound]
    · rename_i unbound
      rw [HasType.var_iff, replaces.inside other unbound, Env.find?_extend]
      split
      · have apart (c : String) (free : c ∈ value.free) : outer.find? c = env.find? c :=
          replaces.outside c fun b mem taken => fresh.avoids b (inScope b mem) (taken ▸ free)
        simp [hasType_value_iff closed whole principal apart]
      · have apart (b : String) (mem : b ∈ scope) : new b ≠ other := fun taken =>
          unbound (fresh.unused b (inScope b mem) other (within other List.mem_cons_self) taken ▸ mem)
        rw [HasType.var_iff, replaces.outside other apart]
  | call fn arg mark ihFn ihArg =>
    obtain ⟨inFn, inArg⟩ := List.forall_mem_append.1 within
    simp only [Expr.replaceWithin, HasType.call_iff, ihFn inFn inScope replaces, ihArg inArg inScope replaces]
  | func param body mark ih =>
    obtain ⟨memParam, inBody⟩ := List.forall_mem_cons.1 within
    have inScope' := List.forall_mem_cons.2 ⟨memParam, inScope⟩
    have extended (domain : Ty) := replaces.extend
      (fun c mem => fresh.distinct c (inScope c mem) param memParam) (.mono domain)
    simp only [Expr.replaceWithin, HasType.func_iff]
    simp only [Env.declare, ih inBody inScope' (extended _)]
  | letIn other definition body pos ihValue ihBody =>
    obtain ⟨memOther, inParts⟩ := List.forall_mem_cons.1 within
    obtain ⟨inDefinition, inBody⟩ := List.forall_mem_append.1 inParts
    have inScope' := List.forall_mem_cons.2 ⟨memOther, inScope⟩
    have extended := replaces.extend fun c mem => fresh.distinct c (inScope c mem) other memOther
    have sameFree (v : String) : outer.Free v ↔ inner.Free v :=
      (replaces.free_iff closed fun v free => closed v (Env.free_generalize.1 free).2).symm
    simp only [Expr.replaceWithin, HasType.letIn_iff, ihValue inDefinition inScope replaces,
      ihBody inBody inScope' (extended _), Env.Generalizes, sameFree]

/-- In a closed environment a local definition has the types of the expression in which its value is
put in for its name. -/
theorem hasType_replace_iff (closed : env.IsClosed) (whole : env.IsComplete) (principal : Principal env value t) :
    HasType env (Expr.replace name value body) u ↔ HasType env (.letIn name value body pos) u := by
  rw [hasType_letIn_iff closed principal]
  exact hasType_replaceWithin_iff closed whole principal (Expr.fresh_boundApart value body) (fun _ mem => mem)
    (by simp) (env.replaces_extend name (env.generalize t) _)

end Declarative

namespace Session

variable {env : Env} {expr other : Expr} {outcome : Except Halt Typing}

theorem Decides.exists_ok_iff (decides : Decides env expr outcome) :
    (∃ found, outcome = .ok found) ↔ ∃ t, HasType env expr t := by
  cases outcome with
  | ok found => exact ⟨fun _ => ⟨_, decides.1⟩, fun _ => ⟨found, rfl⟩⟩
  | error halt => exact ⟨nofun, fun ⟨t, derivation⟩ => absurd derivation (decides t)⟩

theorem Decides.congr (decides : Decides env expr outcome) (same : ∀ t, HasType env expr t ↔ HasType env other t) :
    Decides env other outcome := by
  cases outcome with
  | ok found => exact ⟨(same _).1 decides.1, fun u derivation => decides.2 u ((same u).2 derivation)⟩
  | error halt => exact fun t derivation => decides t ((same t).2 derivation)

/-- A local definition can be replaced by its value. Inference succeeds on it exactly if it succeeds
on the value and on the body with the value put in for the name, and the types of both are equal up
to the names of variables. The three requests may start from any numbers. -/
theorem infer_letIn_replace (session second third : Session) (env : Env) (name : String) (value body : Expr)
    (pos : Position) (closed : env.IsClosed) (whole : env.IsComplete)
    (fits : session.Fits env (.letIn name value body pos)) (fitsValue : second.Fits env value)
    (fitsBody : third.Fits env (Expr.replace name value body)) :
    ((∃ found, (session.infer env (.letIn name value body pos)).outcome = .ok found) ↔
      (∃ found, (second.infer env value).outcome = .ok found) ∧
        ∃ found, (third.infer env (Expr.replace name value body)).outcome = .ok found) ∧
    ∀ found replaced, (session.infer env (.letIn name value body pos)).outcome = .ok found →
      (third.infer env (Expr.replace name value body)).outcome = .ok replaced →
      found.type.alphaEquals replaced.type = true := by
  have decides := decides_infer closed whole fits
  have decidesValue := decides_infer closed whole fitsValue
  have decidesBody := decides_infer closed whole fitsBody
  have principal (typed : ∃ t, HasType env value t) : ∃ t, Principal env value t := by
    obtain ⟨found, answered⟩ := decidesValue.exists_ok_iff.2 typed
    rw [answered] at decidesValue
    exact ⟨found.type, decidesValue⟩
  have typedValue {u : Ty} (derivation : HasType env (.letIn name value body pos) u) : ∃ t, HasType env value t := by
    obtain ⟨t, _, typed, _⟩ := HasType.letIn_iff.1 derivation
    exact ⟨t, typed⟩
  rw [decides.exists_ok_iff, decidesValue.exists_ok_iff, decidesBody.exists_ok_iff]
  refine ⟨⟨?_, ?_⟩, fun found replaced answered answeredBody => ?_⟩
  · rintro ⟨u, derivation⟩
    obtain ⟨t, best⟩ := principal (typedValue derivation)
    exact ⟨⟨t, best.1⟩, u, (hasType_replace_iff closed whole best).2 derivation⟩
  · rintro ⟨typed, u, derivation⟩
    obtain ⟨t, best⟩ := principal typed
    exact ⟨u, (hasType_replace_iff closed whole best).1 derivation⟩
  · rw [answered] at decides
    obtain ⟨t, best⟩ := principal (typedValue decides.1)
    have alike := decides.alike (decidesBody.congr fun u => hasType_replace_iff closed whole best)
    rw [answeredBody] at alike
    exact alike

/-- The value mentions a name that the body binds, and the body uses the definition at two types. The
bound name is changed, and inference finds a function into the integers both times. -/
theorem infer_letIn_replace_bound :
    let env : Env := Env.declare ∅ "y" .int
    let value : Expr := .func "z" (.var "y" {}) {}
    let body : Expr := .func "y" (.call (.var "x" {}) (.call (.var "x" {}) (.var "y" {}) {}) {}) {}
    let replaced : Expr := .func "zyyxxyay" (.call value (.call value (.var "zyyxxyay" {}) {}) {}) {}
    Expr.replace "x" value body = replaced ∧
    ∃ found foundReplaced, (infer {} env (.letIn "x" value body {})).outcome = .ok found ∧
      (infer {} env replaced).outcome = .ok foundReplaced ∧ foundReplaced.type = .arrow (.var "t0") .int ∧
      found.type.alphaEquals foundReplaced.type = true := by
  intro env value body replaced
  have closed : env.IsClosed := by
    intro v free
    rcases Env.free_declare free with inInt | ⟨name, scheme, lookup, _⟩
    · exact Bool.false_ne_true inInt
    · cases lookup
  have whole : env.IsComplete := Env.IsComplete.extend (fun name scheme lookup => nomatch lookup) rfl
  have same : Expr.replace "x" value body = replaced := by decide
  have fits : Fits {} env (.letIn "x" value body {}) := ⟨0, rfl, by unfold Infer.Fits; cbv⟩
  have fitsValue : Fits {} env value := ⟨0, rfl, by unfold Infer.Fits; cbv⟩
  have fitsReplaced : Fits {} env replaced := ⟨0, rfl, by unfold Infer.Fits; cbv⟩
  obtain ⟨succeeds, alike⟩ := infer_letIn_replace {} {} {} env "x" value body {} closed whole fits fitsValue
    (same ▸ fitsReplaced)
  rw [same] at succeeds alike
  obtain ⟨foundValue, answeredValue, _⟩ := exists_ok_of_type
    (show (infer {} env value).outcome.toOption.map Typing.type = some (.arrow (.var "t0") .int) by cbv)
  obtain ⟨foundReplaced, answeredReplaced, type⟩ := exists_ok_of_type
    (show (infer {} env replaced).outcome.toOption.map Typing.type = some (.arrow (.var "t0") .int) by cbv)
  obtain ⟨found, answered⟩ := succeeds.2 ⟨⟨foundValue, answeredValue⟩, foundReplaced, answeredReplaced⟩
  exact ⟨same, found, foundReplaced, answered, answeredReplaced, type, alike found foundReplaced answered answeredReplaced⟩

end Session

end HindleyMilner
