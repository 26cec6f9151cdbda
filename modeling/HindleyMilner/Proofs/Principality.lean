import HindleyMilner.Proofs.Signature
import HindleyMilner.Proofs.Soundness

/-! Inference is complete, and the type it finds is principal.

The environment of inference covers the environment of a derivation under a substitution if each
instance of a scheme of the derivation is an instance, under the substitution, of the scheme that
inference has for the name. Along a derivation inference succeeds, and the types of the derivation
factor through what it finds. -/

set_option autoImplicit false

namespace HindleyMilner

open Supply (Old New numbered)

theorem Scheme.free_of_instances {scheme : Scheme} {v : String}
    (always : ∀ t, scheme.Instance t → t.occurs v = true) : scheme.Free v := by
  -- The instance in question has a type without variables for each quantified name.
  have inside := always _ ⟨Subst.patch (scheme.bound.map fun b => (b, .int)) ∅, fun w free => ?_, rfl⟩
  · obtain ⟨w, inType, inImage⟩ := (Subst.occurs_apply _ _ _).1 inside
    rw [Subst.image_patch_map] at inImage
    split at inImage
    · exact absurd inImage Bool.false_ne_true
    · rename_i unbound
      rw [Subst.image_empty, Ty.occurs_var] at inImage
      exact inImage ▸ ⟨inType, unbound⟩
  · have unbound : w ∉ scheme.bound := free.2
    rw [Subst.image_patch_map, if_neg unbound, Subst.image_empty]

namespace Env

variable {env typed : Env} {n : Nat} {s r : Subst} {scheme general : Scheme} {name v w : String} {t : Ty}

/-- Under the substitution, each scheme is at least as general as the scheme of the same name in the
other environment. -/
def Covers (s : Subst) (env typed : Env) : Prop :=
  ∀ name, Option.Rel (fun scheme other => ∀ t, Scheme.Instance other t → Scheme.InstanceUnder s scheme t)
    (env.find? name) (typed.find? name)

theorem covers_refl (env : Env) : Covers ∅ env env := by
  intro name
  cases env.find? name with
  | none => exact .none
  | some scheme => exact .some fun _ found => Scheme.instance_iff.1 found

theorem covers_substAvoiding (s : Subst) (env : Env) : Covers s env (env.substAvoiding s) := by
  intro name
  rw [find?_substAvoiding]
  cases env.find? name with
  | none => exact .none
  | some scheme => exact .some fun _ found => Scheme.instance_substAvoiding.1 found

theorem Covers.exists_scheme (covers : Covers s env typed) (lookup : typed.find? name = some general) :
    ∃ scheme, env.find? name = some scheme ∧ ∀ t, general.Instance t → scheme.InstanceUnder s t := by
  have related := covers name
  rw [lookup] at related
  generalize env.find? name = found at related
  cases related with
  | some each => exact ⟨_, rfl, each⟩

theorem Covers.exists_general (covers : Covers s env typed) (lookup : env.find? name = some scheme) :
    ∃ general, typed.find? name = some general ∧ ∀ t, general.Instance t → scheme.InstanceUnder s t := by
  have related := covers name
  rw [lookup] at related
  generalize typed.find? name = found at related
  cases related with
  | some each => exact ⟨_, rfl, each⟩

theorem Covers.extend (covers : Covers s env typed)
    (each : ∀ t, general.Instance t → scheme.InstanceUnder s t) :
    Covers s (env.extend name scheme) (typed.extend name general) := by
  intro query
  rw [find?_extend, find?_extend]
  split
  · exact .some each
  · exact covers query

theorem Covers.map {other : Env} {f : Scheme → Scheme} (covers : Covers s env typed)
    (mapped : ∀ name, other.find? name = (env.find? name).map f)
    (each : ∀ name scheme t, env.find? name = some scheme → scheme.InstanceUnder s t →
      (f scheme).InstanceUnder r t) : Covers r other typed := by
  intro name
  rw [mapped]
  have related := covers name
  generalize typed.find? name = general at related
  cases lookup : env.find? name with
  | none =>
    rw [lookup] at related
    cases related with
    | none => exact .none
  | some scheme =>
    rw [lookup] at related
    cases related with
    | some under => exact .some fun t found => each name scheme t lookup (under t found)

theorem Covers.congr (covers : Covers s env typed) (same : ∀ v, env.Free v → s.image v = r.image v) :
    Covers r env typed := by
  refine covers.map (f := id) (fun name => ?_) fun name scheme _ lookup found => ?_
  · rw [Option.map_id, id]
  · exact found.congr fun v free => same v ⟨name, scheme, lookup, free⟩

/-- What is learned about the environment can be taken out of the substitution. -/
theorem Covers.subst {learned : Subst} (covers : Covers s env typed) (clear : env.NoCapture learned)
    (same : ∀ v, env.Free v → s.image v = r.apply (learned.image v)) :
    Covers r (env.subst learned) typed := by
  refine covers.map (find?_subst learned env) fun name scheme t lookup found => ?_
  refine (Scheme.instanceUnder_subst (clear name scheme lookup)).2 (found.congr fun v free => ?_)
  rw [Subst.image_compose]
  exact same v ⟨name, scheme, lookup, free⟩

/-- The substitution takes free variables to types over the free variables of the derivation. -/
theorem Covers.free (covers : Covers s env typed) (free : env.Free v) (inImage : (s.image v).occurs w = true) :
    typed.Free w := by
  obtain ⟨name, scheme, lookup, freeScheme⟩ := free
  obtain ⟨general, lookupTyped, each⟩ := covers.exists_general lookup
  refine ⟨name, general, lookupTyped, Scheme.free_of_instances fun t found => ?_⟩
  -- Every instance on the one side is an instance under `s` on the other, with the image inside.
  obtain ⟨q, agrees, rfl⟩ := each t found
  refine Subst.occurs_apply_of_image freeScheme.1 ?_
  rw [agrees v freeScheme]
  exact inImage

/-- The scheme that inference generalizes covers the scheme of a derivation. -/
theorem Covers.generalize (covers : Covers s env typed) (quantifies : typed.Generalizes (s.apply t) general) :
    ∀ u, general.Instance u → (env.generalize t).InstanceUnder s u := by
  rintro u ⟨r, fixed, rfl⟩
  obtain ⟨type, quantified⟩ := quantifies
  refine ⟨s.compose r, fun v free => ?_, ?_⟩
  · -- A variable that inference leaves free has an image that the derivation cannot quantify.
    obtain ⟨inside, freeEnv⟩ := free_generalize.1 free
    rw [Subst.image_compose]
    refine Subst.apply_eq_self_iff.2 fun w inImage => fixed w ⟨?_, fun bound => ?_⟩
    · rw [type]
      exact Subst.occurs_apply_of_image inside inImage
    · exact ((quantified w).1 bound).2 (covers.free freeEnv inImage)
  · rw [type, type_generalize, Subst.apply_compose]

end Env

namespace Infer

variable {env typed : Env} {n m k : Nat} {s : Subst} {found : Typing} {u : Ty} {v w : String}

namespace Settled

theorem old_type (settled : Settled env n found m) (safe : env.Safe n)
    (inside : found.type.occurs v = true) : Old m v := safe.old_of_known settled.le (settled.type v inside)

theorem old_image (settled : Settled env n found m) (safe : env.Safe n) (old : Old n v)
    (inImage : (found.subst.image v).occurs w = true) : Old m w := by
  rcases Subst.occurs_image inImage with ⟨_, put⟩ | ⟨rfl, _⟩
  · exact safe.old_of_known settled.le (settled.mentions w put)
  · exact old.mono settled.le

end Settled

/-- A type, and a substitution for the variables up to `n`, come from an answer by specialization. -/
def Specializes (n : Nat) (s : Subst) (u : Ty) (learned : Subst) (t : Ty) : Prop :=
  ∃ r : Subst, u = r.apply t ∧ ∀ v, Old n v → s.image v = r.apply (learned.image v)

theorem apply_eq_of_old {r : Subst} {t : Ty} (same : ∀ v, Old n v → s.image v = r.image v)
    (old : ∀ v, t.occurs v = true → Old n v) : s.apply t = r.apply t :=
  Subst.apply_congr fun v inside => same v (old v inside)

theorem specializes_var {scheme : Scheme} (old : ∀ v, scheme.Free v → Old n v)
    (under : scheme.InstanceUnder s u) : Specializes n s u ∅ (Supply.renewed n scheme) := by
  obtain ⟨q, agrees, rfl⟩ := under
  -- The number of a place in the list of quantified names takes the type for the name there.
  let r := Subst.patch (scheme.bound.mapIdx fun i b => (numbered (n + i), q.image b)) s
  have image_new (i : Nat) (b : String) (place : scheme.bound[i]? = some b) :
      r.image (numbered (n + i)) = q.image b := by
    obtain ⟨below, rfl⟩ := List.getElem?_eq_some_iff.1 place
    refine Subst.image_patch_of_mem (List.mem_mapIdx.2 ⟨i, below, rfl⟩) fun other mem => ?_
    obtain ⟨j, _, same⟩ := List.mem_mapIdx.1 mem
    obtain ⟨sameName, rfl⟩ := Prod.mk.inj same
    have sameIndex : j = i := by
      have := Supply.numbered_injective sameName
      omega
    subst sameIndex
    rfl
  have image_old (v : String) (oldV : Old n v) : r.image v = s.image v := by
    refine Subst.image_patch_of_not_mem fun other mem => ?_
    obtain ⟨j, _, same⟩ := List.mem_mapIdx.1 mem
    exact oldV (n + j) (Nat.le_add_right n j) (Prod.mk.inj same).1.symm
  refine ⟨r, ?_, fun v oldV => ?_⟩
  · unfold Supply.renewed
    rw [← Subst.apply_compose]
    refine Subst.apply_congr fun v inside => ?_
    rw [Subst.image_compose]
    by_cases bound : v ∈ scheme.bound
    · obtain ⟨i, place, image⟩ := Supply.image_renewal_of_mem n ∅ bound
      rw [image, Subst.apply_var, image_new i v place]
    · have free : scheme.Free v := ⟨inside, bound⟩
      rw [Supply.image_renewal_of_not_mem bound, Subst.image_empty, Subst.apply_var,
        image_old v (old v free), agrees v free]
  · rw [Subst.image_empty, Subst.apply_var, image_old v oldV]

theorem specializes_func {param : String} {domain codomain : Ty}
    (settled : Settled (env.declare param (.var (numbered n))) (n + 1) found m)
    (inner : Specializes (n + 1) (s.insert (numbered n) domain) codomain found.subst found.type) :
    Specializes n s (.arrow domain codomain) found.subst
      (found.subst.apply (.arrow (.var (numbered n)) found.type)) := by
  obtain ⟨r, type, same⟩ := inner
  refine ⟨r, ?_, fun v old => ?_⟩
  · have ofDomain := same (numbered n) (Supply.new_numbered (Nat.le_refl n) (Nat.lt_succ_self n)).old
    rw [Subst.image_insert, if_pos rfl] at ofDomain
    rw [Subst.apply_arrow, Subst.apply_arrow, Subst.apply_var, settled.settled, ← ofDomain, ← type]
  · rw [← same v (old.mono (Nat.le_succ n)), Subst.image_insert, if_neg (old n (Nat.le_refl n))]

/-- The parts of a call that specialize to a function and its argument can be unified, and the call
specializes to the result. -/
theorem exists_unify_call {function argument : Typing} {domain : Ty} {r : Subst}
    (safe : env.Safe n) (first : Settled env n function m)
    (second : Settled (env.subst function.subst) m argument k)
    (typeFn : .arrow domain u = r.apply function.type)
    (sameFn : ∀ v, Old n v → s.image v = r.apply (function.subst.image v))
    (specialArg : Specializes m r domain argument.subst argument.type) :
    ∃ unifier, unify (argument.subst.apply function.type) (.arrow argument.type (.var (numbered k))) =
        .ok unifier ∧
      Specializes n s u (function.subst.compose (argument.subst.compose unifier))
        (unifier.apply (.var (numbered k))) := by
  obtain ⟨q, typeArg, sameArg⟩ := specialArg
  have safeArg := first.safe safe
  -- The variable for the result is new to the argument's specialization and can be given its type.
  let all : Subst := q.insert (numbered k) u
  have all_old (t : Ty) (old : ∀ v, t.occurs v = true → Old k v) : all.apply t = q.apply t := by
    refine apply_eq_of_old (fun v oldV => ?_) old
    exact (Subst.image_insert q _ _ v).trans (if_neg (oldV k (Nat.le_refl k)))
  have all_result : all.apply (.var (numbered k)) = u := by
    rw [Subst.apply_var]
    exact (Subst.image_insert q _ _ _).trans (if_pos rfl)
  have through (t : Ty) (old : ∀ v, t.occurs v = true → Old m v) :
      all.apply (argument.subst.apply t) = r.apply t := by
    rw [all_old, ← Subst.apply_compose]
    · refine apply_eq_of_old (fun v oldV => ?_) old
      rw [Subst.image_compose, sameArg v oldV]
    · intro w inside
      obtain ⟨v, inType, inImage⟩ := (Subst.occurs_apply _ _ _).1 inside
      exact second.old_image safeArg (old v inType) inImage
  have unifies : all.apply (argument.subst.apply function.type) =
      all.apply (.arrow argument.type (.var (numbered k))) := by
    rw [through _ fun v inside => first.old_type safe inside, ← typeFn, Subst.apply_arrow, all_result,
      all_old _ fun v inside => second.old_type safeArg inside, ← typeArg]
  obtain ⟨unifier, unified⟩ := exists_unify (second.completeSubst.apply first.completeType)
    (Ty.isComplete_arrow.2 ⟨second.completeType, Ty.isComplete_var _⟩) unifies
  refine ⟨unifier, unified, all, ?_, fun v old => ?_⟩
  · rw [factors_of_unify unified unifies, all_result]
  · rw [Subst.image_compose, Subst.apply_compose, factors_of_unify unified unifies,
      through _ fun w inImage => first.old_image safe old inImage, sameFn v old]

theorem specializes_letIn {definition : Typing} {r : Subst} (safe : env.Safe n)
    (first : Settled env n definition m)
    (same : ∀ v, Old n v → s.image v = r.apply (definition.subst.image v))
    (special : Specializes m r u found.subst found.type) :
    Specializes n s u (definition.subst.compose found.subst) found.type := by
  obtain ⟨q, type, sameBody⟩ := special
  refine ⟨q, type, fun v old => ?_⟩
  rw [Subst.image_compose, ← Subst.apply_compose, same v old]
  refine apply_eq_of_old (fun w oldW => ?_) fun w inImage => first.old_image safe old inImage
  rw [Subst.image_compose, sameBody w oldW]

/-- Along a derivation in a covered environment inference succeeds, and its answer is principal. -/
theorem exists_run_of_hasType {expr : Expr} (derivation : HasType typed expr u)
    (covers : Env.Covers s env typed) (safe : env.Safe n) :
    ∃ found m, Run env n expr found m ∧ Specializes n s u found.subst found.type := by
  -- The specialization is rebuilt at each node from those of the parts.
  induction derivation generalizing env n s with
  | @lit typed kind text mark t base =>
    refine ⟨_, n, .lit base, s, ?_, fun v _ => by rw [Subst.image_empty, Subst.apply_var]⟩
    exact (Subst.apply_eq_self fun v inside => absurd inside (LiteralKind.not_occurs_type base v)).symm
  | @var typed name mark general t lookup found whole =>
    obtain ⟨scheme, lookupEnv, each⟩ := covers.exists_scheme lookup
    refine ⟨_, _, .var lookupEnv, specializes_var (fun v free => ?_) (each t found)⟩
    exact safe.free v ⟨name, scheme, lookupEnv, free⟩
  | @func typed param body mark domain codomain _ _ ih =>
    have coversBody : Env.Covers (s.insert (numbered n) domain) (env.declare param (.var (numbered n)))
        (typed.declare param domain) := by
      refine (covers.congr fun v free => ?_).extend fun t found => ?_
      · rw [Subst.image_insert, if_neg (safe.free v free n (Nat.le_refl n))]
      · refine ⟨s.insert (numbered n) domain, fun _ _ => rfl, ?_⟩
        rw [Scheme.instance_mono.1 found, Scheme.mono, Subst.apply_var, Subst.image_insert, if_pos rfl]
    have safeBody := safe.declare param
    obtain ⟨found, m, run, special⟩ := ih coversBody safeBody
    exact ⟨_, m, .func run rfl, specializes_func (run.settled safeBody) special⟩
  | @call typed fn arg mark domain u _ _ ihFn ihArg =>
    obtain ⟨function, m, runFn, r, typeFn, sameFn⟩ := ihFn covers safe
    have first := runFn.settled safe
    have safeArg := first.safe safe
    have coversArg := covers.subst (first.noCapture safe) fun v free => sameFn v (safe.free v free)
    obtain ⟨argument, k, runArg, specialArg⟩ := ihArg coversArg safeArg
    obtain ⟨unifier, unified, special⟩ :=
      exists_unify_call safe first (runArg.settled safeArg) typeFn sameFn specialArg
    exact ⟨_, k + 1, .call runFn runArg unified rfl, special⟩
  | @letIn typed name value body pos general t u _ quantifies _ ihValue ihBody =>
    obtain ⟨definition, m, runValue, r, typeValue, sameValue⟩ := ihValue covers safe
    have first := runValue.settled safe
    have coversValue := covers.subst (first.noCapture safe) fun v free => sameValue v (safe.free v free)
    rw [typeValue] at quantifies
    have coversBody : Env.Covers r (bodyEnv env name definition) (typed.extend name general) :=
      coversValue.extend (coversValue.generalize quantifies)
    obtain ⟨found, k, runBody, special⟩ := ihBody coversBody (first.safe_bodyEnv safe name)
    exact ⟨_, k, .letIn runValue runBody, specializes_letIn safe first sameValue special⟩

/-- Inference is complete and principal. If the expression has a type in some instance of the
environment, then inference succeeds, and the type and the instance are specializations of what it
finds. In a closed environment it fails exactly on the expressions without a type, and every type of
an expression is an instance of the one it finds. -/
theorem typing_principal (env : Env) (n : Nat) (events : List Event) (expr : Expr) (safe : env.Safe n)
    (fits : Fits env n events expr) :
    (∀ (s : Subst) (u : Ty), HasType (env.substAvoiding s) expr u →
      ∃ found after, (typing env expr).run.run ⟨.starting n, events⟩ = (.ok found, after) ∧
        ∃ r : Subst, u = r.apply found.type ∧
          ∀ v, env.Free v → s.image v = r.apply (found.subst.image v)) ∧
    (env.IsClosed → expr.isProper = true →
      ((∃ error node after,
          (typing env expr).run.run ⟨.starting n, events⟩ = (.error (.failed error node), after)) ↔
        ¬ ∃ u, HasType env expr u) ∧
      ∀ found after, (typing env expr).run.run ⟨.starting n, events⟩ = (.ok found, after) →
        ∀ u, HasType env expr u → ∃ r : Subst, u = r.apply found.type) := by
  have succeeds {typed : Env} {s : Subst} {u : Ty} (covers : Env.Covers s env typed)
      (derivation : HasType typed expr u) :
      ∃ found after, (typing env expr).run.run ⟨.starting n, events⟩ = (.ok found, after) ∧
        Specializes n s u found.subst found.type := by
    obtain ⟨found, m, run, special⟩ := exists_run_of_hasType derivation covers safe
    obtain ⟨logged, went, _⟩ := typing_of_run run fits
    exact ⟨found, _, went, special⟩
  refine ⟨fun s u derivation => ?_, fun closed proper => ⟨⟨?_, fun untyped => ?_⟩, ?_⟩⟩
  · obtain ⟨found, after, went, r, type, same⟩ := succeeds (Env.covers_substAvoiding s env) derivation
    exact ⟨found, after, went, r, type, fun v free => same v (safe.free v free)⟩
  · rintro ⟨error, node, after, stopped⟩ ⟨u, derivation⟩
    obtain ⟨found, _, went, _⟩ := succeeds (Env.covers_refl env) derivation
    rw [stopped] at went
    cases went
  · rcases went : (typing env expr).run.run ⟨.starting n, events⟩ with ⟨outcome, after⟩
    cases outcome with
    | error stop =>
      obtain ⟨error, node, rfl⟩ := failed_of_isProper safe.complete.within_any rfl proper went
      exact ⟨error, node, after, rfl⟩
    | ok found =>
      obtain ⟨m, run, _, _⟩ := run_of_typing fits went
      have derivation := (run.hasType safe)
      rw [Env.subst_of_isClosed closed] at derivation
      exact absurd ⟨found.type, derivation⟩ untyped
  · intro found after went u derivation
    obtain ⟨other, _, wentOther, r, type, _⟩ := succeeds (Env.covers_refl env) derivation
    rw [went] at wentOther
    cases wentOther
    exact ⟨r, type⟩

/-- Puts a quantified name of the open environment in for a free variable beside it. -/
def capturing : Subst := Subst.patch [("a", .arrow (.var "b") .bool), ("c", .var "b")] ∅

theorem hasType_mixed : HasType (Env.opened.substAvoiding capturing) .mixed .bool := by
  have lookupY : NameMap.find? (Env.opened.substAvoiding capturing) "y" =
      some ((Scheme.mono (.var "a")).substAvoiding capturing) := rfl
  have lookupK : NameMap.find? (Env.opened.substAvoiding capturing) "k" =
      some (Scheme.substAvoiding capturing ⟨["b"], .arrow (.var "b") (.var "c")⟩) := rfl
  have typeY : ((Scheme.mono (.var "a")).substAvoiding capturing).Instance (.arrow (.var "b") .bool) :=
    Scheme.instance_substAvoiding.2 ⟨capturing, fun _ _ => rfl, by cbv⟩
  have typeK : (Scheme.substAvoiding capturing ⟨["b"], .arrow (.var "b") (.var "c")⟩).Instance
      (.arrow (.arrow (.var "b") .bool) (.var "b")) := by
    refine Scheme.instance_substAvoiding.2
      ⟨capturing.insert "b" (.arrow (.var "b") .bool), fun v free => ?_, by cbv⟩
    have other : v ≠ "b" := fun same => free.2 (List.mem_singleton.2 same)
    rw [Subst.image_insert, if_neg other]
  have freeB : Env.Free (Env.opened.substAvoiding capturing) "b" := by
    refine ⟨"y", _, lookupY, ?_⟩
    constructor
    · cbv
    · intro bound
      cases bound
  have value : HasType (Env.opened.substAvoiding capturing) (.func "x" (.call (.var "k" {}) (.var "y" {}) {}) {})
      (.arrow .int (.var "b")) :=
    .func (by cbv) (.call (.var lookupK typeK (by cbv)) (.var lookupY typeY (by cbv)))
  have general : Env.Generalizes (Env.opened.substAvoiding capturing) (.arrow .int (.var "b"))
      (.mono (.arrow .int (.var "b"))) := by
    refine ⟨rfl, fun v => ⟨fun bound => absurd bound List.not_mem_nil, ?_⟩⟩
    rintro ⟨inside, absent⟩
    rcases Ty.occurs_arrow.1 inside with inDomain | inCodomain
    · exact absurd inDomain Bool.false_ne_true
    · exact absurd (Ty.occurs_var.1 inCodomain ▸ freeB) absent
  have lookupF : NameMap.find? (Env.extend (Env.opened.substAvoiding capturing) "f"
      (.mono (.arrow .int (.var "b")))) "f" = some (.mono (.arrow .int (.var "b"))) := rfl
  exact .letIn value general (.call (.var lookupY typeY (by cbv))
    (.call (.var lookupF (Scheme.instance_mono.2 rfl) (by cbv)) (.lit rfl)))

/-- The open environment has an instance that would capture, in which the local function need not be
polymorphic; and a function applied to itself has no type, since inference fails on it. -/
theorem typing_principal_opened :
    (HasType (Env.opened.substAvoiding capturing) .mixed .bool ∧
      ∃ found after, (typing Env.opened .mixed).run.run ⟨.starting 0, []⟩ = (.ok found, after) ∧
        ∃ r : Subst, .bool = r.apply found.type ∧
          ∀ v, Env.opened.Free v → capturing.image v = r.apply (found.subst.image v)) ∧
    ¬ ∃ u, HasType ∅ (.func "x" (.call (.var "x" {}) (.var "x" {}) {}) {}) u := by
  refine ⟨⟨hasType_mixed, ?_⟩, ?_⟩
  · exact (typing_principal Env.opened 0 [] .mixed (Env.safe_opened 0) fits_mixed).1 capturing .bool hasType_mixed
  · have whole : Env.IsComplete ∅ := by
      intro name scheme lookup
      cases lookup
    have closed : Env.IsClosed ∅ := by
      rintro v ⟨name, scheme, lookup, _⟩
      cases lookup
    have fits : Fits ∅ 0 [] (.func "x" (.call (.var "x" {}) (.var "x" {}) {}) {}) := by
      unfold Fits
      cbv
    have computed : ((typing ∅ (.func "x" (.call (.var "x" {}) (.var "x" {}) {}) {})).run.run
        ⟨.starting 0, []⟩).1.toOption.isSome = false := by cbv
    refine ((typing_principal ∅ 0 [] _ (Env.safe_of_isClosed whole closed 0) fits).2 closed rfl).1.1 ?_
    rcases went : (typing ∅ (.func "x" (.call (.var "x" {}) (.var "x" {}) {}) {})).run.run
      ⟨.starting 0, []⟩ with ⟨outcome, after⟩
    rw [went] at computed
    cases outcome with
    | ok found => cases computed
    | error stop =>
      obtain ⟨error, node, rfl⟩ := failed_of_isProper whole.within_any rfl rfl went
      exact ⟨error, node, after, rfl⟩

end Infer

end HindleyMilner
