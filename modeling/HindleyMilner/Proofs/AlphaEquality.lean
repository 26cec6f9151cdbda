import HindleyMilner.Proofs.Declarative
import HindleyMilner.Proofs.Renaming

/-! Equality up to the names of variables is renaming.

The walk that compares two types pairs their variables. The pairs stay one to one all along the walk,
and the pairs at its end are a renaming of the first type that gives the second. -/

set_option autoImplicit false

namespace HindleyMilner

namespace Ty

variable {f : String → String} {a b : Ty} {v w : String} {pairing next : Pairing}

namespace Pairing

/-- No variable on either side is paired with two. -/
def OneToOne (pairing : Pairing) : Prop := ∀ pair ∈ pairing, ∀ other ∈ pairing, pair.1 = other.1 ↔ pair.2 = other.2

theorem oneToOne_nil : OneToOne [] := nofun

def Obeys (f : String → String) (pairing : Pairing) : Prop := ∀ pair ∈ pairing, f pair.1 = pair.2

theorem add_eq_some (added : pairing.add v w = some next) (oneToOne : pairing.OneToOne) :
    next.OneToOne ∧ pairing ⊆ next ∧ (v, w) ∈ next := by
  unfold add at added
  cases earlier : pairing.find? (·.1 == v) with
  | some pair =>
    simp only [earlier] at added
    split at added
    · rename_i same
      cases added
      have first : pair.1 = v := by simpa using List.find?_some earlier
      have mem := List.mem_of_find?_eq_some earlier
      rw [show pair = (v, w) from Prod.ext first same] at mem
      exact ⟨oneToOne, List.Subset.refl _, mem⟩
    · cases added
  | none =>
    simp only [earlier] at added
    split at added
    · cases added
    · rename_i unused
      cases added
      have newFirst : ∀ pair ∈ pairing, pair.1 ≠ v := by simpa using earlier
      have newSecond : ∀ pair ∈ pairing, pair.2 ≠ w := fun pair mem same =>
        unused (List.any_eq_true.2 ⟨pair, mem, by simpa using same⟩)
      refine ⟨?_, List.subset_cons_self _ _, List.mem_cons_self⟩
      intro pair mem other memOther
      rcases List.mem_cons.1 mem with rfl | old <;> rcases List.mem_cons.1 memOther with rfl | oldOther
      · exact iff_of_true rfl rfl
      · exact iff_of_false (newFirst other oldOther).symm (newSecond other oldOther).symm
      · exact iff_of_false (newFirst pair old) (newSecond pair old)
      · exact oneToOne pair old other oldOther

theorem OneToOne.exists_obeys (oneToOne : pairing.OneToOne) : ∃ f, pairing.Obeys f := by
  refine ⟨fun v => ((pairing.find? (·.1 == v)).map Prod.snd).getD v, fun pair mem => ?_⟩
  cases found : pairing.find? (·.1 == pair.1) with
  | none => exact absurd (beq_self_eq_true pair.1) (List.find?_eq_none.1 found pair mem)
  | some other =>
    have first : other.1 = pair.1 := by simpa using List.find?_some found
    simp only [found, Option.map_some, Option.getD_some]
    exact (oneToOne other (List.mem_of_find?_eq_some found) pair mem).1 first

end Pairing

/-- What a successful walk has done: it kept the pairs one to one, it added to them, and whatever obeys
the pairs at its end renames the one type to the other. -/
structure Walked (a b : Ty) (pairing next : Pairing) : Prop where
  oneToOne : next.OneToOne
  keeps : pairing ⊆ next
  covers : ∀ v, a.occurs v = true → ∃ w, (v, w) ∈ next
  renames : ∀ f, next.Obeys f → a.rename f = b

/-- One more argument in front, from where the walk over the others starts. -/
theorem Walked.cons {con : String} {arg first : Ty} {rest others : List Ty} {middle : Pairing}
    (walkedArg : Walked arg first pairing middle) (walkedRest : Walked (.app con rest) (.app con others) middle next) :
    Walked (.app con (arg :: rest)) (.app con (first :: others)) pairing next where
  oneToOne := walkedRest.oneToOne
  keeps := List.Subset.trans walkedArg.keeps walkedRest.keeps
  covers v inside := by
    obtain ⟨t, mem, inArg⟩ := occurs_app_iff.1 inside
    rcases List.mem_cons.1 mem with rfl | inRest
    · obtain ⟨w, paired⟩ := walkedArg.covers v inArg
      exact ⟨w, walkedRest.keeps paired⟩
    · exact walkedRest.covers v (occurs_app_iff.2 ⟨t, inRest, inArg⟩)
  renames f obeys := by
    have renamedRest := walkedRest.renames f obeys
    have renamedArg := walkedArg.renames f fun pair mem => obeys pair (walkedRest.keeps mem)
    rw [rename_app, app.injEq] at renamedRest
    rw [rename_app, List.map_cons, renamedArg, renamedRest.2]

theorem walked_of_pairVars (paired : pairVars a b pairing = some next) (oneToOne : pairing.OneToOne) :
    Walked a b pairing next := by
  induction a using argsInduction generalizing b pairing next with
  | absent => simp [pairVars] at paired
  | var name =>
    cases b with
    | var other =>
      rw [pairVars] at paired
      obtain ⟨kept, longer, mem⟩ := Pairing.add_eq_some paired oneToOne
      exact ⟨kept, longer, fun v inside => ⟨other, occurs_var.1 inside ▸ mem⟩, fun f obeys => by
        rw [rename_var, obeys _ mem]⟩
    | _ => simp [pairVars] at paired
  | app con args ih =>
    cases b with
    | app other others =>
      rw [pairVars] at paired
      split at paired
      · rename_i same
        subst same
        -- The arguments are walked with one pairing, each from where the one before it ended.
        induction args generalizing others pairing with
        | nil =>
          cases others with
          | nil =>
            rw [pairVarsAll] at paired
            cases paired
            exact ⟨oneToOne, List.Subset.refl _, fun v inside => by simp [occurs_app_iff] at inside, fun f _ => by simp⟩
          | cons => simp [pairVarsAll] at paired
        | cons arg rest ihRest =>
          cases others with
          | nil => simp [pairVarsAll] at paired
          | cons first others =>
            rw [pairVarsAll, Option.bind_eq_some_iff] at paired
            obtain ⟨middle, pairedArg, pairedRest⟩ := paired
            have walkedArg := ih arg List.mem_cons_self pairedArg oneToOne
            have walkedRest := ihRest (fun t mem => ih t (List.mem_cons_of_mem _ mem)) walkedArg.oneToOne others pairedRest
            exact walkedArg.cons walkedRest
      · cases paired
    | _ => simp [pairVars] at paired

def KeepsApart (f : String → String) (t : Ty) : Prop :=
  ∀ v w, t.occurs v = true → t.occurs w = true → f v = f w → v = w

theorem exists_rename_of_alphaEquals (alike : a.alphaEquals b = true) : ∃ f, KeepsApart f a ∧ a.rename f = b := by
  obtain ⟨next, paired⟩ := Option.isSome_iff_exists.1 alike
  have walked := walked_of_pairVars paired Pairing.oneToOne_nil
  obtain ⟨f, obeys⟩ := walked.oneToOne.exists_obeys
  refine ⟨f, fun v w inV inW same => ?_, walked.renames f obeys⟩
  obtain ⟨partner, mem⟩ := walked.covers v inV
  obtain ⟨partnerOther, memOther⟩ := walked.covers w inW
  refine (walked.oneToOne _ mem _ memOther).2 ?_
  rw [← obeys _ mem, ← obeys _ memOther]
  exact same

theorem alphaEquals_iff (whole : a.isComplete = true) :
    a.alphaEquals b = true ↔ ∃ f, KeepsApart f a ∧ a.rename f = b := by
  constructor
  · exact exists_rename_of_alphaEquals
  · rintro ⟨f, apart, rfl⟩
    exact alphaEquals_rename whole apart

theorem alphaEquals_symm (whole : a.isComplete = true) (alike : a.alphaEquals b = true) : b.alphaEquals a = true := by
  obtain ⟨f, apart, rfl⟩ := exists_rename_of_alphaEquals alike
  exact rename_alphaEquals whole apart

theorem alphaEquals_trans {c : Ty} (whole : a.isComplete = true) (first : a.alphaEquals b = true)
    (second : b.alphaEquals c = true) : a.alphaEquals c = true := by
  obtain ⟨f, apart, rfl⟩ := exists_rename_of_alphaEquals first
  obtain ⟨g, apartNext, rfl⟩ := exists_rename_of_alphaEquals second
  rw [rename_rename]
  refine alphaEquals_rename whole fun v w inV inW same => apart v w inV inW ?_
  exact apartNext _ _ (occurs_rename_iff.2 ⟨v, inV, rfl⟩) (occurs_rename_iff.2 ⟨w, inW, rfl⟩) same

theorem exists_apply_eq_rename (f : String → String) (t : Ty) : ∃ s : Subst, s.apply t = t.rename f := by
  refine ⟨Subst.patch (t.vars.map fun v => (v, .var (f v))) ∅, apply_eq_rename fun v inside => ?_⟩
  rw [Subst.image_patch_map t.vars fun v => .var (f v), if_pos (mem_vars.2 inside)]

theorem exists_apply_of_alphaEquals (alike : a.alphaEquals b = true) : ∃ s : Subst, s.apply a = b := by
  obtain ⟨f, _, rfl⟩ := exists_rename_of_alphaEquals alike
  exact exists_apply_eq_rename f a

/-- Types are equal up to the names of variables exactly if a function that keeps the variables of the
first apart renames it to the second. Each is then an instance of the other, and among types without
absent parts this is an equivalence. -/
theorem alphaEquals_renames :
    (∀ a b : Ty, a.isComplete = true → b.isComplete = true →
      (a.alphaEquals b = true ↔
        ∃ f : String → String, (∀ v w, a.occurs v = true → a.occurs w = true → f v = f w → v = w) ∧ a.rename f = b) ∧
      (a.alphaEquals b = true → (∃ s : Subst, s.apply a = b) ∧ ∃ s : Subst, s.apply b = a)) ∧
    Equivalence fun a b : { t : Ty // t.isComplete = true } => a.val.alphaEquals b.val = true := by
  refine ⟨fun a b whole _ => ⟨alphaEquals_iff whole, fun alike => ?_⟩, ?_, ?_, ?_⟩
  · exact ⟨exists_apply_of_alphaEquals alike, exists_apply_of_alphaEquals (alphaEquals_symm whole alike)⟩
  · exact fun a => (alphaEquals_iff a.property).2 ⟨id, fun _ _ _ _ same => same, rename_eq_self fun _ _ => rfl⟩
  · exact fun {a _} alike => alphaEquals_symm a.property alike
  · exact fun {a _ _} first second => alphaEquals_trans a.property first second

/-- Two variables exchanged is a renaming, though each type has the names of the other; two variables
made one is none, in either order. -/
theorem alphaEquals_renames_exchanged :
    let exchanged : Ty := .arrow (.var "b") (.arrow (.var "a") (.var "b"))
    let merged : Ty := .arrow (.var "a") (.arrow (.var "a") (.var "a"))
    let t : Ty := .arrow (.var "a") (.arrow (.var "b") (.var "a"))
    t.isComplete = true ∧ exchanged.isComplete = true ∧ merged.isComplete = true ∧
    (∃ f : String → String, (∀ v w, t.occurs v = true → t.occurs w = true → f v = f w → v = w) ∧ t.rename f = exchanged) ∧
    (∃ s : Subst, s.apply t = exchanged) ∧ (∃ s : Subst, s.apply exchanged = t) ∧
    ¬ (∃ f : String → String, (∀ v w, t.occurs v = true → t.occurs w = true → f v = f w → v = w) ∧ t.rename f = merged) ∧
    merged.alphaEquals t = false := by
  intro exchanged merged t
  obtain ⟨decides, _⟩ := alphaEquals_renames
  have alike : t.alphaEquals exchanged = true := by decide
  obtain ⟨renames, instances⟩ := decides t exchanged (by decide) (by decide)
  obtain ⟨forth, back⟩ := instances alike
  obtain ⟨mergedRenames, _⟩ := decides t merged (by decide) (by decide)
  exact ⟨by decide, by decide, by decide, renames.1 alike, forth, back,
    fun renamed => absurd (mergedRenames.2 renamed) (by decide), by decide⟩

end Ty

end HindleyMilner
