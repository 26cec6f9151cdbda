import HindleyMilner.Expr
import HindleyMilner.Proofs.FreeVariables

/-! The declarative type system.

A variable has every instance of its scheme, a parameter has one type, and the type of a local
definition is generalized over the variables that are not free in the environment. Substitution
into a scheme is here done without capture: quantified names are renamed first where need be. -/

set_option autoImplicit false

namespace HindleyMilner

namespace Subst

/-- The listed entries count before those of the substitution. -/
def patch (entries : List (String × Ty)) (s : Subst) : Subst := (NameMap.ofList entries).union s

variable {entries : List (String × Ty)} {s : Subst} {v : String} {t : Ty}

theorem image_patch_of_mem (mem : (v, t) ∈ entries) (only : ∀ other, (v, other) ∈ entries → other = t) :
    (patch entries s).image v = t := by
  unfold patch
  apply image_of_find
  rw [NameMap.find?_union, NameMap.find?_ofList_of_mem mem only]
  rfl

theorem image_patch_of_not_mem (absent : ∀ other, (v, other) ∉ entries) :
    (patch entries s).image v = s.image v := by
  unfold patch image
  rw [NameMap.find?_union, NameMap.find?_ofList_eq_none absent]
  rfl

theorem image_patch_map (names : List String) (f : String → Ty) (s : Subst) (v : String) :
    (patch (names.map fun name => (name, f name)) s).image v = if v ∈ names then f v else s.image v := by
  split
  · rename_i mem
    refine image_patch_of_mem (List.mem_map.2 ⟨v, mem, rfl⟩) fun other inside => ?_
    obtain ⟨name, _, same⟩ := List.mem_map.1 inside
    cases same
    rfl
  · rename_i outside
    refine image_patch_of_not_mem fun other inside => ?_
    obtain ⟨name, mem, same⟩ := List.mem_map.1 inside
    cases same
    exact outside mem

end Subst

namespace Scheme

variable {s r : Subst} {scheme : Scheme} {t : Ty} {v b : String}

/-- Types are put in for the quantified names, and the free variables stay as they are. -/
def Instance (scheme : Scheme) (t : Ty) : Prop :=
  ∃ r : Subst, (∀ v, scheme.Free v → r.image v = .var v) ∧ t = r.apply scheme.type

/-- Types are put in for the quantified names, and `s` is put in for the free variables. All of it
is done at once, so nothing is captured. -/
def InstanceUnder (s : Subst) (scheme : Scheme) (t : Ty) : Prop :=
  ∃ r : Subst, (∀ v, scheme.Free v → r.image v = s.image v) ∧ t = r.apply scheme.type

theorem instance_iff : scheme.Instance t ↔ scheme.InstanceUnder ∅ t := Iff.rfl

theorem instance_mono {u : Ty} : (mono t).Instance u ↔ u = t := by
  constructor
  · rintro ⟨r, fixed, rfl⟩
    exact Subst.apply_eq_self_iff.2 fun v inside => fixed v (free_mono.2 inside)
  · rintro rfl
    exact ⟨∅, fun _ _ => rfl, (Subst.apply_empty u).symm⟩

theorem InstanceUnder.congr (same : ∀ v, scheme.Free v → s.image v = r.image v)
    (found : scheme.InstanceUnder s t) : scheme.InstanceUnder r t := by
  obtain ⟨q, agrees, rfl⟩ := found
  exact ⟨q, fun v free => (agrees v free).trans (same v free), rfl⟩

/-- Where nothing is captured, the instances after a substitution are those under it. -/
theorem instanceUnder_subst (clear : NoCapture s scheme) :
    (scheme.subst s).InstanceUnder r t ↔ scheme.InstanceUnder (s.compose r) t := by
  constructor
  · rintro ⟨q, agrees, rfl⟩
    refine ⟨(s.without scheme.bound).compose q, fun v free => ?_, ?_⟩
    · rw [Subst.image_compose, Subst.image_compose, Subst.image_without, if_neg free.2]
      exact Subst.apply_congr fun w inImage => agrees w ((free_subst clear).2 ⟨v, free, inImage⟩)
    · rw [Subst.apply_compose]
      rfl
  · rintro ⟨q, agrees, rfl⟩
    -- What is put in for the quantified names must win over what `r` does to names of that text.
    refine ⟨Subst.patch (scheme.bound.map fun b => (b, q.image b)) r, fun v free => ?_, ?_⟩
    · have unbound : v ∉ scheme.bound := free.2
      rw [Subst.image_patch_map, if_neg unbound]
    · rw [type_subst, ← Subst.apply_compose]
      refine Subst.apply_congr fun v inside => ?_
      rw [Subst.image_compose, Subst.image_without]
      split
      · rename_i bound
        rw [Subst.apply_var, Subst.image_patch_map, if_pos bound]
      · rename_i unbound
        have free : scheme.Free v := ⟨inside, unbound⟩
        rw [agrees v free, Subst.image_compose]
        refine Subst.apply_congr fun w inImage => ?_
        rw [Subst.image_patch_map, if_neg fun bound => clear v free w bound inImage]

section Renaming

def padding (names : List String) : String := names.foldr (· ++ ·) "a"

theorem length_lt_padding {names : List String} (mem : v ∈ names) : v.length < (padding names).length := by
  have nonempty (rest : List String) : 0 < (padding rest).length := by
    induction rest with
    | nil => decide
    | cons name rest ih =>
      rw [padding, List.foldr_cons, String.length_append]
      exact Nat.lt_of_lt_of_le ih (Nat.le_add_left _ _)
  induction names with
  | nil => exact absurd mem List.not_mem_nil
  | cons name rest ih =>
    rw [padding, List.foldr_cons, String.length_append]
    rcases List.mem_cons.1 mem with rfl | inRest
    · exact Nat.lt_add_of_pos_right (nonempty rest)
    · exact Nat.lt_of_lt_of_le (ih inRest) (Nat.le_add_left _ _)

theorem padding_append_not_mem (names : List String) (b : String) : padding names ++ b ∉ names := by
  intro mem
  have longer := length_lt_padding mem
  rw [String.length_append] at longer
  omega

def renamed (front : String) (scheme : Scheme) : Scheme :=
  ⟨scheme.bound.map (front ++ ·),
    (Subst.patch (scheme.bound.map fun b => (b, .var (front ++ b))) ∅).apply scheme.type⟩

/-- Rename the quantified names if one of them is to be avoided. -/
def avoiding (names : List String) (scheme : Scheme) : Scheme :=
  if ∃ b ∈ scheme.bound, b ∈ names then scheme.renamed (padding names) else scheme

/-- The variables that must not be captured: those that are free, and those that are put in. -/
def exposed (s : Subst) (scheme : Scheme) : List String :=
  scheme.freeVars ++ scheme.freeVars.flatMap fun v => (s.image v).vars

/-- Put types in for the free variables without capture. -/
def substAvoiding (s : Subst) (scheme : Scheme) : Scheme :=
  (scheme.avoiding (scheme.exposed s)).subst s

theorem free_renamed {front : String} (apart : ∀ v, scheme.Free v → ∀ b, v ≠ front ++ b) :
    (scheme.renamed front).Free v ↔ scheme.Free v := by
  unfold renamed
  constructor
  · rintro ⟨inside, outside⟩
    obtain ⟨w, inType, inImage⟩ := (Subst.occurs_apply _ _ _).1 inside
    rw [Subst.image_patch_map] at inImage
    split at inImage
    · rename_i bound
      rw [Ty.occurs_var] at inImage
      exact absurd (List.mem_map.2 ⟨w, bound, inImage.symm⟩) outside
    · rename_i unbound
      rw [Subst.image_empty, Ty.occurs_var] at inImage
      exact inImage ▸ ⟨inType, unbound⟩
  · intro free
    refine ⟨Subst.occurs_apply_of_image free.1 ?_, fun bound => ?_⟩
    · rw [Subst.image_patch_map, if_neg free.2, Subst.image_empty, Ty.occurs_var]
    · obtain ⟨b, _, same⟩ := List.mem_map.1 bound
      exact apart v free b same.symm

/-- Renaming the quantified names does not change the instances. -/
theorem instanceUnder_renamed {front : String} (apart : ∀ v, scheme.Free v → ∀ b, v ≠ front ++ b) :
    (scheme.renamed front).InstanceUnder s t ↔ scheme.InstanceUnder s t := by
  constructor
  · rintro ⟨q, agrees, rfl⟩
    refine ⟨(Subst.patch (scheme.bound.map fun b => (b, .var (front ++ b))) ∅).compose q,
      fun v free => ?_, (Subst.apply_compose _ _ _).symm⟩
    rw [Subst.image_compose, Subst.image_patch_map, if_neg free.2, Subst.image_empty, Subst.apply_var]
    exact agrees v ((free_renamed apart).2 free)
  · rintro ⟨q, agrees, rfl⟩
    -- The new names take the values of the old ones; no free variable is a new name.
    refine ⟨Subst.patch (scheme.bound.map fun b => (front ++ b, q.image b)) s, fun v free => ?_, ?_⟩
    · refine Subst.image_patch_of_not_mem fun other inside => ?_
      obtain ⟨b, _, same⟩ := List.mem_map.1 inside
      exact apart v ((free_renamed apart).1 free) b (congrArg Prod.fst same).symm
    · unfold renamed
      rw [← Subst.apply_compose]
      refine Subst.apply_congr fun v inside => ?_
      rw [Subst.image_compose, Subst.image_patch_map]
      split
      · rename_i bound
        rw [Subst.apply_var]
        refine (Subst.image_patch_of_mem (List.mem_map.2 ⟨v, bound, rfl⟩) fun other inside => ?_).symm
        obtain ⟨b, _, same⟩ := List.mem_map.1 inside
        obtain ⟨sameName, sameType⟩ := Prod.mk.inj same
        rw [← sameType, (String.append_right_inj front).1 sameName]
      · rename_i unbound
        have free : scheme.Free v := ⟨inside, unbound⟩
        rw [agrees v free, Subst.image_empty, Subst.apply_var]
        refine (Subst.image_patch_of_not_mem fun other inside => ?_).symm
        obtain ⟨b, _, same⟩ := List.mem_map.1 inside
        exact apart v free b (congrArg Prod.fst same).symm

theorem not_free_padding (s : Subst) (free : scheme.Free v) (b : String) :
    v ≠ padding (scheme.exposed s) ++ b := by
  intro same
  refine padding_append_not_mem (scheme.exposed s) b ?_
  rw [← same]
  exact List.mem_append_left _ (mem_freeVars.2 free)

theorem free_avoiding (s : Subst) : (scheme.avoiding (scheme.exposed s)).Free v ↔ scheme.Free v := by
  unfold avoiding
  split
  · exact free_renamed fun v free b => not_free_padding s free b
  · exact Iff.rfl

theorem noCapture_avoiding (s : Subst) : NoCapture s (scheme.avoiding (scheme.exposed s)) := by
  intro v free b mem inImage
  have exposed : b ∈ scheme.exposed s :=
    List.mem_append_right _ (List.mem_flatMap.2
      ⟨v, mem_freeVars.2 ((free_avoiding s).1 free), Ty.mem_vars.2 inImage⟩)
  unfold avoiding at mem
  split at mem
  · obtain ⟨old, _, rfl⟩ := List.mem_map.1 mem
    exact padding_append_not_mem _ _ exposed
  · rename_i distinct
    exact distinct ⟨b, mem, exposed⟩

/-- The capture-avoiding substitution has exactly the instances that it should have. -/
theorem instance_substAvoiding : (scheme.substAvoiding s).Instance t ↔ scheme.InstanceUnder s t := by
  have composed : ∀ v, (s.compose ∅).image v = s.image v := by
    intro v
    rw [Subst.image_compose, Subst.apply_empty]
  rw [instance_iff, substAvoiding, instanceUnder_subst (noCapture_avoiding s)]
  have alike : (scheme.avoiding (scheme.exposed s)).InstanceUnder (s.compose ∅) t ↔
      scheme.InstanceUnder (s.compose ∅) t := by
    unfold avoiding
    split
    · exact instanceUnder_renamed fun v free b => not_free_padding s free b
    · exact Iff.rfl
  rw [alike]
  exact ⟨.congr fun v _ => composed v, .congr fun v _ => (composed v).symm⟩

end Renaming

end Scheme

namespace Env

def substAvoiding (s : Subst) (env : Env) : Env := env.map (Scheme.substAvoiding s)

@[simp] theorem find?_substAvoiding (s : Subst) (env : Env) (name : String) :
    NameMap.find? (env.substAvoiding s) name = (env.find? name).map (Scheme.substAvoiding s) :=
  NameMap.find?_map _ _ _

/-- The scheme quantifies over the variables of the type that are not free in the environment. -/
def Generalizes (env : Env) (t : Ty) (scheme : Scheme) : Prop :=
  scheme.type = t ∧ ∀ v, v ∈ scheme.bound ↔ t.occurs v = true ∧ ¬ env.Free v

theorem generalizes_generalize (env : Env) (t : Ty) : env.Generalizes t (env.generalize t) :=
  ⟨rfl, fun _ => mem_bound_generalize⟩

end Env

/-- An expression has a type in an environment. All types are complete. -/
inductive HasType : Env → Expr → Ty → Prop where
  | lit {env : Env} {kind : LiteralKind} {text : String} {mark : Mark} {t : Ty} :
      kind.type = .ok t → HasType env (.lit kind text mark) t
  | var {env : Env} {name : String} {mark : Mark} {scheme : Scheme} {t : Ty} :
      env.find? name = some scheme → scheme.Instance t → t.isComplete = true →
      HasType env (.var name mark) t
  | func {env : Env} {param : String} {body : Expr} {mark : Mark} {domain codomain : Ty} :
      domain.isComplete = true → HasType (env.declare param domain) body codomain →
      HasType env (.func param body mark) (.arrow domain codomain)
  | call {env : Env} {fn arg : Expr} {mark : Mark} {domain codomain : Ty} :
      HasType env fn (.arrow domain codomain) → HasType env arg domain →
      HasType env (.call fn arg mark) codomain
  | letIn {env : Env} {name : String} {value body : Expr} {pos : Position} {scheme : Scheme} {t u : Ty} :
      HasType env value t → env.Generalizes t scheme → HasType (env.extend name scheme) body u →
      HasType env (.letIn name value body pos) u

theorem LiteralKind.isComplete_type {kind : LiteralKind} {t : Ty} (base : kind.type = .ok t) :
    t.isComplete = true := by
  cases kind <;> cases base <;> rfl

theorem LiteralKind.not_occurs_type {kind : LiteralKind} {t : Ty} (base : kind.type = .ok t)
    (v : String) : ¬ t.occurs v = true := by
  cases kind <;> cases base <;> exact Bool.false_ne_true

theorem HasType.isComplete {env : Env} {expr : Expr} {t : Ty} (typed : HasType env expr t) :
    t.isComplete = true := by
  induction typed with
  | lit base => exact LiteralKind.isComplete_type base
  | var _ _ whole => exact whole
  | func wholeDomain _ ih => exact Ty.isComplete_arrow.2 ⟨wholeDomain, ih⟩
  | call _ _ ihFn _ => exact (Ty.isComplete_arrow.1 ihFn).2
  | letIn _ _ _ _ ihBody => exact ihBody

end HindleyMilner
