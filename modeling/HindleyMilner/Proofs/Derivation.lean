import HindleyMilner.Proofs.Declarative
import HindleyMilner.Proofs.Marks

/-! Annotated expressions as derivations.

An expression whose nodes carry types is a derivation if each node follows a rule of the type
system. Derivations are stable under a substitution that captures nothing and leaves alone the
names that local definitions quantify over; those names are kept track of by a predicate. -/

set_option autoImplicit false

namespace HindleyMilner

namespace Env

variable {env : Env} {s : Subst} {scheme : Scheme} {name v : String} {t : Ty}

theorem NoCapture.extend (clear : env.NoCapture s) (clearScheme : Scheme.NoCapture s scheme) :
    NoCapture s (env.extend name scheme) := by
  intro query found lookup
  rw [find?_extend] at lookup
  split at lookup
  · cases lookup
    exact clearScheme
  · exact clear query found lookup

theorem not_free_subst (untouched : ¬ s.Touches v) (absent : ¬ env.Free v) : ¬ Free (env.subst s) v := by
  intro free
  obtain ⟨w, freeOld, inImage⟩ := free_of_free_subst free
  rcases Subst.occurs_image inImage with ⟨_, put⟩ | ⟨same, _⟩
  · exact untouched (.inr put)
  · exact absent (same ▸ freeOld)

theorem Generalizes.subst (general : env.Generalizes t scheme) (clear : env.NoCapture s)
    (untouched : ∀ b ∈ scheme.bound, ¬ s.Touches b) :
    Generalizes (env.subst s) (s.apply t) (scheme.subst s) := by
  obtain ⟨rfl, quantified⟩ := general
  constructor
  · rw [Scheme.type_subst]
    refine Subst.apply_congr fun v _ => ?_
    rw [Subst.image_without]
    split
    · rename_i bound
      exact (Subst.image_of_not_binds fun binds => untouched v bound (.inl binds)).symm
    · rfl
  · intro v
    rw [Scheme.bound_subst]
    constructor
    · intro bound
      obtain ⟨inside, absent⟩ := (quantified v).1 bound
      exact ⟨(Subst.occurs_apply_of_not_touches (untouched v bound)).2 inside,
        not_free_subst (untouched v bound) absent⟩
    · rintro ⟨inside, absent⟩
      obtain ⟨w, inType, inImage⟩ := (Subst.occurs_apply _ _ _).1 inside
      by_cases bound : w ∈ scheme.bound
      · rw [Subst.image_of_not_binds fun binds => untouched w bound (.inl binds), Ty.occurs_var] at inImage
        exact inImage ▸ bound
      · -- A variable that is not quantified is free in the environment, and so is its image.
        have free : env.Free w := Decidable.not_not.1 fun absentW => bound ((quantified w).2 ⟨inType, absentW⟩)
        exact absurd ((free_subst clear).2 ⟨w, free, inImage⟩) absent

end Env

theorem Scheme.Instance.subst {s : Subst} {scheme : Scheme} {t : Ty} (found : scheme.Instance t)
    (clear : NoCapture s scheme) : (scheme.subst s).Instance (s.apply t) := by
  obtain ⟨r, fixed, rfl⟩ := found
  refine instance_iff.2 ((instanceUnder_subst clear).2
    ⟨r.compose s, fun v free => ?_, (Subst.apply_compose r s _).symm⟩)
  rw [Subst.image_compose, fixed v free, Subst.apply_var, Subst.image_compose, Subst.apply_empty]

/-- The types assigned to the nodes follow the rules of the type system, and local definitions
quantify over generic names only. -/
inductive Derives (generic : String → Prop) : Env → Expr → Prop where
  | lit {env : Env} {kind : LiteralKind} {text : String} {mark : Mark} :
      kind.type = .ok mark.type → Derives generic env (.lit kind text mark)
  | var {env : Env} {name : String} {mark : Mark} {scheme : Scheme} :
      env.find? name = some scheme → scheme.Instance mark.type → mark.type.isComplete = true →
      Derives generic env (.var name mark)
  | func {env : Env} {param : String} {body : Expr} {mark : Mark} {domain : Ty} :
      domain.isComplete = true → Derives generic (env.declare param domain) body →
      mark.type = .arrow domain body.type → Derives generic env (.func param body mark)
  | call {env : Env} {fn arg : Expr} {mark : Mark} :
      Derives generic env fn → Derives generic env arg → fn.type = .arrow arg.type mark.type →
      Derives generic env (.call fn arg mark)
  | letIn {env : Env} {name : String} {value body : Expr} {pos : Position} {scheme : Scheme} :
      Derives generic env value → env.Generalizes value.type scheme → (∀ b ∈ scheme.bound, generic b) →
      Derives generic (env.extend name scheme) body → Derives generic env (.letIn name value body pos)

namespace Derives

variable {generic wider : String → Prop} {env : Env} {tree : Expr} {s : Subst}

theorem mono (derived : Derives generic env tree) (widens : ∀ v, generic v → wider v) :
    Derives wider env tree := by
  induction derived with
  | lit base => exact .lit base
  | var lookup found whole => exact .var lookup found whole
  | func whole _ type ih => exact .func whole ih type
  | call _ _ type ihFn ihArg => exact .call ihFn ihArg type
  | letIn _ general names _ ihValue ihBody =>
    exact .letIn ihValue general (fun b bound => widens b (names b bound)) ihBody

theorem hasType (derived : Derives generic env tree) : HasType env tree tree.type := by
  induction derived with
  | lit base => exact .lit base
  | var lookup found whole => exact .var lookup found whole
  | @func env param body mark domain whole _ type ih =>
    unfold Expr.type
    rw [type]
    exact .func whole ih
  | @call env fn arg mark _ _ type ihFn ihArg =>
    rw [type] at ihFn
    exact .call ihFn ihArg
  | letIn _ general _ _ ihValue ihBody => exact .letIn ihValue general ihBody

/-- A derivation is stable under a substitution that leaves the generic names alone. -/
theorem subst (derived : Derives generic env tree) (whole : s.IsComplete) (clear : env.NoCapture s)
    (untouched : ∀ v, generic v → ¬ s.Touches v) :
    Derives generic (env.subst s) (tree.mapTypes s.apply) := by
  induction derived with
  | @lit env kind text mark base =>
    have closed : s.apply mark.type = mark.type :=
      Subst.apply_eq_self fun v inside => absurd inside (LiteralKind.not_occurs_type base v)
    refine .lit ?_
    dsimp only
    rw [closed]
    exact base
  | @var env name mark scheme lookup found wholeType =>
    have lookupAfter : NameMap.find? (env.subst s) name = some (scheme.subst s) := by
      rw [Env.find?_subst, lookup]
      rfl
    exact .var lookupAfter (found.subst (clear name scheme lookup)) (whole.apply wholeType)
  | @func env param body mark domain wholeDomain _ type ih =>
    have inner := ih (clear.extend (Scheme.noCapture_mono s domain))
    rw [Env.subst_declare] at inner
    refine .func (whole.apply wholeDomain) inner ?_
    dsimp only
    rw [type, Subst.apply_arrow, Expr.type_mapTypes_apply]
  | @call env fn arg mark _ _ type ihFn ihArg =>
    refine .call (ihFn clear) (ihArg clear) ?_
    rw [Expr.type_mapTypes_apply, Expr.type_mapTypes_apply, type, Subst.apply_arrow]
  | @letIn env name value body pos scheme _ general names _ ihValue ihBody =>
    -- The quantified names are generic, so neither capture nor renaming is an issue.
    have free (b : String) (bound : b ∈ scheme.bound) : ¬ s.Touches b := untouched b (names b bound)
    have inner := ihBody (clear.extend (Scheme.noCapture_of_not_mentions fun b bound put => free b bound (.inr put)))
    rw [Env.subst_extend] at inner
    have generalAfter := general.subst clear free
    rw [← Expr.type_mapTypes_apply] at generalAfter
    exact .letIn (ihValue clear) generalAfter names inner

end Derives

theorem hasType_mapTypes {env : Env} {expr : Expr} {t : Ty} (f : Ty → Ty) :
    HasType env (expr.mapTypes f) t ↔ HasType env expr t := by
  induction expr generalizing env t with
  | absent => exact Iff.rfl
  | lit kind text mark => exact ⟨fun | .lit base => .lit base, fun | .lit base => .lit base⟩
  | var name mark =>
    exact ⟨fun | .var lookup found whole => .var lookup found whole,
      fun | .var lookup found whole => .var lookup found whole⟩
  | call fn arg mark ihFn ihArg =>
    exact ⟨fun | .call typedFn typedArg => .call (ihFn.1 typedFn) (ihArg.1 typedArg),
      fun | .call typedFn typedArg => .call (ihFn.2 typedFn) (ihArg.2 typedArg)⟩
  | func param body mark ih =>
    exact ⟨fun | .func whole typed => .func whole (ih.1 typed),
      fun | .func whole typed => .func whole (ih.2 typed)⟩
  | letIn name value body pos ihValue ihBody =>
    exact ⟨fun | .letIn typed general typedBody => .letIn (ihValue.1 typed) general (ihBody.1 typedBody),
      fun | .letIn typed general typedBody => .letIn (ihValue.2 typed) general (ihBody.2 typedBody)⟩

theorem HasType.of_shape {env : Env} {expr other : Expr} {t : Ty} (typed : HasType env expr t)
    (same : expr.shape = other.shape) : HasType env other t := by
  have bare : HasType env expr.shape t := (hasType_mapTypes _).2 typed
  rw [same] at bare
  exact (hasType_mapTypes _).1 bare

end HindleyMilner
