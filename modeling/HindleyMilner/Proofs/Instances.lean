import HindleyMilner.Proofs.Allocation

/-! Instances of schemes, one after the other.

Each instance is the type of its scheme with the variables that were allocated for its quantifiers, all
put in at once. So it does not matter that quantified names look like allocated ones, and no two
instances share a variable that was allocated. A type that is generalized and instantiated is the same
type, but for the names of its variables. -/

set_option autoImplicit false

namespace HindleyMilner

/-- The type of the scheme with one of the names for each quantifier, the outermost first. A quantified name is
replaced by the one for its innermost quantifier, every other name is left alone, and all is done at once. -/
def Scheme.InstanceBy (scheme : Scheme) (names : List String) (t : Ty) : Prop :=
  names.length = scheme.bound.length ∧
  ∃ f : String → String, t = scheme.type.rename f ∧ (∀ v, v ∉ scheme.bound → f v = v) ∧
    ∀ (i : Nat) (v : String), scheme.bound[i]? = some v → (∀ j, i < j → scheme.bound[j]? ≠ some v) →
      names[i]? = some (f v)

/-- If the names are different, and none is free in the scheme, the instance is the type but for the names. -/
theorem Scheme.InstanceBy.alphaEquals_of_apart {scheme : Scheme} {names : List String} {t : Ty}
    (made : scheme.InstanceBy names t) (distinct : names.Nodup) (whole : scheme.type.isComplete = true)
    (apart : ∀ v, scheme.Free v → v ∉ names) : t.alphaEquals scheme.type = true := by
  obtain ⟨lengths, f, rfl, kept, replaced⟩ := made
  have mem_names {v : String} (bound : v ∈ scheme.bound) : f v ∈ names := by
    obtain ⟨i, place, last⟩ := Supply.exists_innermost bound
    exact List.mem_of_getElem? (replaced i v place last)
  refine Ty.rename_alphaEquals whole fun v w inV inW same => ?_
  by_cases boundV : v ∈ scheme.bound <;> by_cases boundW : w ∈ scheme.bound
  · -- Variables with the same new name have one innermost quantifier, so they are the same.
    obtain ⟨i, placeV, lastV⟩ := Supply.exists_innermost boundV
    obtain ⟨j, placeW, lastW⟩ := Supply.exists_innermost boundW
    have nameV := replaced i v placeV lastV
    have nameW := replaced j w placeW lastW
    have inside : i < names.length := (List.getElem?_eq_some_iff.1 nameV).1
    have samePlace : i = j := (List.getElem?_inj inside distinct).1 (by rw [nameV, nameW, same])
    rw [samePlace, placeW] at placeV
    exact (Option.some.inj placeV).symm
  · rw [kept w boundW] at same
    exact absurd (same ▸ mem_names boundV) (apart w ⟨inW, boundW⟩)
  · rw [kept v boundV] at same
    exact absurd (same ▸ mem_names boundW) (apart v ⟨inV, boundV⟩)
  · rwa [kept v boundV, kept w boundW] at same

theorem Scheme.InstanceBy.alphaEquals {scheme : Scheme} {names : List String} {t : Ty} (made : scheme.InstanceBy names t)
    (distinct : names.Nodup) (whole : scheme.type.isComplete = true)
    (closed : ∀ v, scheme.type.occurs v = true → v ∈ scheme.bound) : t.alphaEquals scheme.type = true :=
  made.alphaEquals_of_apart distinct whole fun v free => absurd (closed v free.1) free.2

namespace Supply

variable {supply : Supply} {scheme : Scheme} {bound : List String} {count i : Nat} {v : String}

theorem getElem?_freshList (inside : i < count) :
    (freshList count supply).1[i]? = some (nameOf (supply.next + .ofNat i)) := by
  induction count generalizing supply i with
  | zero => exact absurd inside (Nat.not_lt_zero i)
  | succ count ih =>
    rw [freshList]
    dsimp only
    cases i with
    | zero => exact congrArg (fun number => some (nameOf number)) (Int64.add_zero _).symm
    | succ i =>
      rw [List.getElem?_cons_succ, ih (Nat.lt_of_succ_lt_succ inside), fresh, ← next_succ, Int64.add_comm (.ofNat i),
        ← Int64.add_assoc]

/-- No more variables are given out than the counter has values, so no two are the same. -/
theorem nodup_freshList (few : count ≤ cycle) : (freshList count supply).1.Nodup := by
  rw [List.nodup_iff_getElem?_ne_getElem?]
  intro i j before inside same
  rw [length_freshList] at inside
  rw [getElem?_freshList (before.trans inside), getElem?_freshList inside] at same
  have equal := eq_of_nameOf_eq (by omega) (by omega) (Option.some.inj same)
  omega

theorem instantiate_fst (idle : supply.chosen = ∅) :
    (instantiate scheme supply).1 = (choose scheme.bound supply).chosen.apply scheme.type := by
  unfold instantiate
  split
  · rename_i plain
    rw [List.isEmpty_iff.1 plain, choose, idle, Subst.apply_empty]
  · rfl

theorem exists_image_choose (idle : supply.chosen = ∅) (v : String) :
    ∃ w, (choose bound supply).chosen.image v = .var w := by
  by_cases mem : v ∈ bound
  · obtain ⟨i, _, image⟩ := image_choose_of_mem mem
    exact ⟨_, image⟩
  · exact ⟨v, by rw [image_choose_of_not_mem mem, idle, Subst.image_empty]⟩

/-- An instantiation replaces the quantified names by the next variables of the supply. -/
theorem instanceBy_instantiate (scheme : Scheme) (idle : supply.chosen = ∅) :
    scheme.InstanceBy (freshList scheme.bound.length supply).1 (instantiate scheme supply).1 := by
  have images (v : String) : ∃ w, (choose scheme.bound supply).chosen.image v = .var w := exists_image_choose idle v
  choose f image using images
  refine ⟨length_freshList _ _, f, ?_, fun v outside => ?_, fun i v place last => ?_⟩
  · rw [instantiate_fst idle, Ty.apply_eq_rename fun v _ => image v]
  · have same := image v
    rw [image_choose_of_not_mem outside, idle, Subst.image_empty] at same
    exact (Ty.var.inj same).symm
  · have same := image v
    rw [image_choose_of_innermost place last] at same
    rw [getElem?_freshList (List.getElem?_eq_some_iff.1 place).1, Ty.var.inj same]

/-- Instantiate schemes one after the other. With each instance stand the variables that were allocated for the
quantifiers of its scheme, the outermost first. -/
def instantiateAll : List Scheme → Supply → List (Ty × List String) × Supply
  | [], supply => ([], supply)
  | scheme :: rest, supply =>
    let names := (freshList scheme.bound.length supply).1
    let (t, supply) := supply.instantiate scheme
    let (others, supply) := instantiateAll rest supply
    ((t, names) :: others, supply)

def quantifiers (schemes : List Scheme) : Nat := (schemes.map fun scheme => scheme.bound.length).sum

theorem idle_instantiate (scheme : Scheme) (idle : supply.chosen = ∅) : (instantiate scheme supply).2.chosen = ∅ := by
  rw [instantiate_snd idle, freshList_snd, idle]

theorem supply_instantiateAll (schemes : List Scheme) (idle : supply.chosen = ∅) :
    (instantiateAll schemes supply).2 = (freshList (quantifiers schemes) supply).2 := by
  induction schemes generalizing supply with
  | nil => rfl
  | cons scheme rest ih =>
    have later := ih (idle_instantiate scheme idle)
    rw [instantiate_snd idle] at later
    rw [quantifiers, List.map_cons, List.sum_cons, freshList_add, ← quantifiers, ← later, ← instantiate_snd idle]
    rfl

/-- Instantiations take the variables of the supply in their order. -/
theorem names_instantiateAll (schemes : List Scheme) (idle : supply.chosen = ∅) :
    (instantiateAll schemes supply).1.flatMap Prod.snd = (freshList (quantifiers schemes) supply).1 := by
  induction schemes generalizing supply with
  | nil => rfl
  | cons scheme rest ih =>
    have later := ih (idle_instantiate scheme idle)
    rw [instantiate_snd idle] at later
    rw [quantifiers, List.map_cons, List.sum_cons, names_freshList_add, ← quantifiers, ← later, instantiateAll]
    dsimp only
    rw [List.flatMap_cons, instantiate_snd idle]

theorem instanceBy_instantiateAll (schemes : List Scheme) (idle : supply.chosen = ∅) :
    List.Forall₂ (fun scheme made => scheme.InstanceBy made.2 made.1) schemes (instantiateAll schemes supply).1 := by
  induction schemes generalizing supply with
  | nil => exact .nil
  | cons scheme rest ih => exact .cons (instanceBy_instantiate scheme idle) (ih (idle_instantiate scheme idle))

/-- Generalized in an environment that has none of its variables free and then instantiated, a type is the same
but for the names of its variables. One after the other, instances of schemes have the variables that were
allocated for them in place of the quantified names, and no two share one of these. -/
theorem instantiate_independent (supply : Supply) (idle : supply.chosen = ∅) :
    (∀ (t : Ty) (env : Env), t.isComplete = true → (∀ v, t.occurs v = true → ¬ env.Free v) → t.vars.length ≤ cycle →
      (instantiate (env.generalize t) supply).1.alphaEquals t = true ∧
      t.alphaEquals (instantiate (env.generalize t) supply).1 = true ∧
      (instantiate (env.generalize t) supply).2.chosen = ∅) ∧
    ∀ schemes, quantifiers schemes ≤ cycle →
      List.Forall₂ (fun scheme made => scheme.InstanceBy made.2 made.1) schemes (instantiateAll schemes supply).1 ∧
      ((instantiateAll schemes supply).1.flatMap Prod.snd).Nodup ∧
      (instantiateAll schemes supply).2 = (freshList (quantifiers schemes) supply).2 := by
  constructor
  · intro t env whole apart few
    have closed (v : String) (inside : t.occurs v = true) : v ∈ (env.generalize t).bound :=
      Env.mem_bound_generalize.2 ⟨inside, apart v inside⟩
    have fewer : (env.generalize t).bound.length ≤ cycle := (List.length_filter_le _ _).trans few
    have made := instanceBy_instantiate (env.generalize t) idle
    exact ⟨made.alphaEquals (nodup_freshList fewer) whole closed, alphaEquals_instantiate whole closed fewer,
      idle_instantiate _ idle⟩
  · intro schemes few
    refine ⟨instanceBy_instantiateAll schemes idle, ?_, supply_instantiateAll schemes idle⟩
    rw [names_instantiateAll schemes idle]
    exact nodup_freshList few

/-- The variables of the type have the names that are allocated next, in another order. The first scheme quantifies
over one name twice, and the second one over a name that the first one has taken and beside a free variable. -/
theorem instantiate_independent_colliding :
    let t : Ty := .arrow (.var "t1") (.arrow (.var "t0") (.var "t1"))
    let first : Scheme := ⟨["a", "b", "a"], .arrow (.var "a") (.arrow (.var "b") (.var "c"))⟩
    let second : Scheme := ⟨["t1"], .arrow (.var "t1") (.var "t0")⟩
    (instantiate (Env.generalize ∅ t) {}).1 = .arrow (.var "t0") (.arrow (.var "t1") (.var "t0")) ∧
    (instantiate (Env.generalize ∅ t) {}).1.alphaEquals t = true ∧
    (instantiateAll [first, second] {}).1 =
      [(.arrow (.var "t2") (.arrow (.var "t1") (.var "c")), ["t0", "t1", "t2"]),
        (.arrow (.var "t3") (.var "t0"), ["t3"])] ∧
    first.InstanceBy ["t0", "t1", "t2"] (.arrow (.var "t2") (.arrow (.var "t1") (.var "c"))) ∧
    ["t0", "t1", "t2", "t3"].Nodup := by
  intro t first second
  obtain ⟨again, sequence⟩ := instantiate_independent {} rfl
  obtain ⟨alpha, _, _⟩ := again t ∅ (by decide) (fun v _ free => by obtain ⟨_, _, found, _⟩ := free; cases found) (by decide)
  have ran : (instantiateAll [first, second] {}).1 =
      [(.arrow (.var "t2") (.arrow (.var "t1") (.var "c")), ["t0", "t1", "t2"]),
        (.arrow (.var "t3") (.var "t0"), ["t3"])] := by cbv
  obtain ⟨made, distinct, _⟩ := sequence [first, second] (by decide)
  rw [ran] at made distinct
  exact ⟨by cbv, alpha, ran, (List.forall₂_cons.1 made).1, distinct⟩

end Supply

end HindleyMilner
