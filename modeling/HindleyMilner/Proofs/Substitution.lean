import HindleyMilner.Subst

/-! Substitution in types.

A substitution binds the names of its domain and mentions the variables of its values. Application
is determined by the images of the variables that occur, composition applies one substitution after
the other, and what a substitution neither binds nor mentions passes through it unchanged. -/

set_option autoImplicit false

namespace HindleyMilner

namespace Ty

theorem allComplete_eq_all (ts : List Ty) : allComplete ts = ts.all isComplete := by
  induction ts with
  | nil => rfl
  | cons t rest ih => simp [allComplete, ih]

@[simp] theorem isComplete_var (name : String) : (Ty.var name).isComplete = true := by rw [isComplete]

@[simp] theorem isComplete_app {con : String} {args : List Ty} :
    (Ty.app con args).isComplete = true ↔ ∀ t ∈ args, t.isComplete = true := by
  rw [isComplete, allComplete_eq_all, List.all_eq_true]

@[simp] theorem not_isComplete_absent : ¬ Ty.absent.isComplete = true := by
  rw [isComplete]
  exact Bool.false_ne_true

@[simp] theorem occurs_var {name other : String} : (Ty.var other).occurs name = true ↔ name = other := by
  rw [occurs, beq_iff_eq, eq_comm]

theorem occurs_app_iff {name con : String} {args : List Ty} :
    (Ty.app con args).occurs name = true ↔ ∃ t ∈ args, t.occurs name = true := by
  rw [occurs_app, List.any_eq_true]

@[simp] theorem occurs_arrow {name : String} {domain codomain : Ty} :
    (arrow domain codomain).occurs name = true ↔
      domain.occurs name = true ∨ codomain.occurs name = true := by
  simp [arrow, occurs_app_iff]

@[simp] theorem isComplete_arrow {domain codomain : Ty} :
    (arrow domain codomain).isComplete = true ↔
      domain.isComplete = true ∧ codomain.isComplete = true := by
  simp [arrow]

theorem size_le_sizeAll {t : Ty} {ts : List Ty} (mem : t ∈ ts) : t.size ≤ sizeAll ts := by
  induction ts with
  | nil => exact absurd mem List.not_mem_nil
  | cons head rest ih =>
    rw [sizeAll]
    rcases List.mem_cons.1 mem with rfl | inRest
    · omega
    · have := ih inRest
      omega

theorem equalsAll_iff {as : List Ty} (bs : List Ty)
    (each : ∀ a ∈ as, ∀ b, a.equals b = true ↔ a = b ∧ a.isComplete = true) :
    equalsAll as bs = true ↔ as = bs ∧ ∀ a ∈ as, a.isComplete = true := by
  induction as generalizing bs with
  | nil => cases bs <;> simp [equalsAll]
  | cons a rest ih =>
    cases bs with
    | nil => simp [equalsAll]
    | cons b others =>
      have head := each a List.mem_cons_self b
      have tail := ih others fun t mem => each t (List.mem_cons_of_mem _ mem)
      simp only [equalsAll, Bool.and_eq_true, head, tail, List.cons.injEq, List.forall_mem_cons]
      constructor
      · rintro ⟨⟨same, whole⟩, sameRest, wholeRest⟩
        exact ⟨⟨same, sameRest⟩, whole, wholeRest⟩
      · rintro ⟨⟨same, sameRest⟩, whole, wholeRest⟩
        exact ⟨⟨same, whole⟩, sameRest, wholeRest⟩

/-- Structural equality is identity of types without absent parts. -/
theorem equals_iff {a b : Ty} : a.equals b = true ↔ a = b ∧ a.isComplete = true := by
  induction a using argsInduction generalizing b with
  | absent => cases b <;> simp [equals]
  | var name => cases b <;> simp [equals]
  | app con args ih =>
    cases b with
    | absent => simp [equals]
    | var name => simp [equals]
    | app other others =>
      have sameArgs := equalsAll_iff others fun t mem _ => ih t mem
      simp [equals, sameArgs, and_assoc]

end Ty

namespace Subst

variable {s r next : Subst} {t : Ty} {v w : String}

def Binds (s : Subst) (v : String) : Prop := ∃ t, s.find? v = some t

def Mentions (s : Subst) (v : String) : Prop := ∃ w t, s.find? w = some t ∧ t.occurs v = true

theorem mentions_iff : s.Mentions v ↔ ∃ entry ∈ s.entries, entry.2.occurs v = true := by
  constructor
  · rintro ⟨w, t, found, inside⟩
    exact ⟨(w, t), NameMap.mem_entries.2 found, inside⟩
  · rintro ⟨⟨w, t⟩, mem, inside⟩
    exact ⟨w, t, NameMap.mem_entries.1 mem, inside⟩

instance (s : Subst) (v : String) : Decidable (s.Mentions v) := decidable_of_iff _ mentions_iff.symm

def Touches (s : Subst) (v : String) : Prop := s.Binds v ∨ s.Mentions v

def IsComplete (s : Subst) : Prop := ∀ w t, s.find? w = some t → t.isComplete = true

/-- No name of the domain occurs in a value. -/
def Idempotent (s : Subst) : Prop := ∀ v, s.Binds v → ¬ s.Mentions v

theorem image_of_find (found : s.find? v = some t) : s.image v = t := by
  rw [image, found]
  rfl

theorem image_of_not_binds (free : ¬ s.Binds v) : s.image v = .var v := by
  unfold image
  cases found : s.find? v with
  | none => rfl
  | some t => exact absurd ⟨t, found⟩ free

@[simp] theorem image_empty (v : String) : image ∅ v = .var v := rfl

theorem not_binds_empty : ¬ Binds ∅ v := nofun

theorem not_mentions_empty : ¬ Mentions ∅ v := nofun

theorem exists_binds (nonempty : s ≠ ∅) : ∃ v, s.Binds v := by
  refine Classical.byContradiction fun none => nonempty (NameMap.ext_find? fun v => ?_)
  cases found : s.find? v with
  | none => rfl
  | some t => exact absurd ⟨v, t, found⟩ none

theorem image_insert (s : Subst) (v : String) (t : Ty) (w : String) :
    image (s.insert v t) w = if w = v then t else s.image w := by
  simp only [image, NameMap.find?_insert]
  split <;> rfl

theorem apply_arrow (s : Subst) (domain codomain : Ty) :
    s.apply (.arrow domain codomain) = .arrow (s.apply domain) (s.apply codomain) := by
  simp [Ty.arrow]

/-- Application is determined by the images of the variables that occur. -/
theorem apply_eq_iff : s.apply t = r.apply t ↔ ∀ v, t.occurs v = true → s.image v = r.image v := by
  induction t using Ty.argsInduction with
  | absent => simp [Ty.occurs]
  | var name => simp
  | app con args ih =>
    simp only [apply_app, Ty.app.injEq, true_and, List.map_inj_left, Ty.occurs_app_iff]
    constructor
    · rintro same v ⟨arg, mem, inside⟩
      exact (ih arg mem).1 (same arg mem) v inside
    · intro same arg mem
      exact (ih arg mem).2 fun v inside => same v ⟨arg, mem, inside⟩

theorem apply_congr (same : ∀ v, t.occurs v = true → s.image v = r.image v) : s.apply t = r.apply t :=
  apply_eq_iff.2 same

@[simp] theorem apply_empty (t : Ty) : apply ∅ t = t := by
  induction t using Ty.argsInduction with
  | absent => simp
  | var name => simp
  | app con args ih =>
    rw [apply_app]
    congr 1
    exact (List.map_congr_left ih).trans (List.map_id args)

theorem apply_eq_self_iff : s.apply t = t ↔ ∀ v, t.occurs v = true → s.image v = .var v := by
  have fixed := apply_eq_iff (s := s) (r := ∅) (t := t)
  simpa using fixed

theorem apply_eq_self (free : ∀ v, t.occurs v = true → ¬ s.Binds v) : s.apply t = t :=
  apply_eq_self_iff.2 fun v inside => image_of_not_binds (free v inside)

theorem image_compose (s next : Subst) (v : String) :
    (s.compose next).image v = next.apply (s.image v) := by
  unfold compose image
  rw [NameMap.find?_union, NameMap.find?_map]
  cases s.find? v with
  | none => simp [image]
  | some t => simp

@[simp] theorem apply_compose (s next : Subst) (t : Ty) :
    (s.compose next).apply t = next.apply (s.apply t) := by
  induction t using Ty.argsInduction with
  | absent => simp
  | var name => simp [image_compose]
  | app con args ih => simpa using ih

theorem find?_compose (s next : Subst) (v : String) :
    (s.compose next).find? v = ((s.find? v).map next.apply).or (next.find? v) := by
  rw [compose, NameMap.find?_union, NameMap.find?_map]

@[simp] theorem empty_compose (s : Subst) : compose ∅ s = s := by
  refine NameMap.ext_find? fun v => ?_
  rw [find?_compose]
  rfl

@[simp] theorem compose_empty (s : Subst) : s.compose ∅ = s := by
  refine NameMap.ext_find? fun v => ?_
  rw [find?_compose]
  cases s.find? v with
  | none => rfl
  | some t => exact congrArg some (apply_empty t)

/-- Composition is associative, and not only up to application: the same names have entries. -/
theorem compose_assoc (s next last : Subst) : (s.compose next).compose last = s.compose (next.compose last) := by
  refine NameMap.ext_find? fun v => ?_
  simp only [find?_compose]
  cases s.find? v with
  | none => simp
  | some t => simp

theorem binds_compose : (s.compose next).Binds v ↔ s.Binds v ∨ next.Binds v := by
  simp only [Binds, find?_compose]
  cases s.find? v <;> simp

theorem occurs_image (inside : (s.image w).occurs v = true) :
    (s.Binds w ∧ s.Mentions v) ∨ (v = w ∧ ¬ s.Binds w) := by
  by_cases bound : s.Binds w
  · obtain ⟨t, found⟩ := bound
    rw [image_of_find found] at inside
    exact .inl ⟨⟨t, found⟩, w, t, found, inside⟩
  · rw [image_of_not_binds bound, Ty.occurs_var] at inside
    exact .inr ⟨inside, bound⟩

/-- A variable of the result was put in, or was there and is not bound. -/
theorem occurs_apply_cases (inside : (s.apply t).occurs v = true) :
    s.Mentions v ∨ (t.occurs v = true ∧ ¬ s.Binds v) := by
  obtain ⟨source, inSource, inImage⟩ := (occurs_apply s t v).1 inside
  rcases occurs_image inImage with ⟨_, put⟩ | ⟨rfl, free⟩
  · exact .inl put
  · exact .inr ⟨inSource, free⟩

theorem occurs_apply_of_image (inSource : t.occurs w = true) (inImage : (s.image w).occurs v = true) :
    (s.apply t).occurs v = true := (occurs_apply s t v).2 ⟨w, inSource, inImage⟩

theorem mentions_compose (inside : (s.compose next).Mentions v) :
    next.Mentions v ∨ (s.Mentions v ∧ ¬ next.Binds v) := by
  obtain ⟨w, t, found, inValue⟩ := inside
  rw [find?_compose] at found
  cases first : s.find? w with
  | none =>
    rw [first] at found
    exact .inl ⟨w, t, by simpa using found, inValue⟩
  | some value =>
    rw [first] at found
    have same : next.apply value = t := by simpa using found
    rw [← same] at inValue
    exact (occurs_apply_cases inValue).imp_right fun old => ⟨⟨w, value, first, old.1⟩, old.2⟩

theorem touches_compose (touched : (s.compose next).Touches v) : s.Touches v ∨ next.Touches v := by
  rcases touched with bound | put
  · exact (binds_compose.1 bound).imp .inl .inl
  · rcases mentions_compose put with later | ⟨first, _⟩
    · exact .inr (.inr later)
    · exact .inl (.inr first)

/-- What a substitution does not touch occurs afterwards exactly where it occurred before. -/
theorem occurs_apply_of_not_touches (free : ¬ s.Touches v) :
    (s.apply t).occurs v = true ↔ t.occurs v = true := by
  constructor
  · intro inside
    rcases occurs_apply_cases inside with put | ⟨old, _⟩
    · exact absurd (.inr put) free
    · exact old
  · intro inside
    refine occurs_apply_of_image inside ?_
    rw [image_of_not_binds fun bound => free (.inl bound), Ty.occurs_var]

theorem isComplete_apply :
    (s.apply t).isComplete = true ↔
      t.isComplete = true ∧ ∀ v, t.occurs v = true → (s.image v).isComplete = true := by
  induction t using Ty.argsInduction with
  | absent => simp
  | var name => simp
  | app con args ih =>
    simp only [apply_app, Ty.isComplete_app, List.forall_mem_map, Ty.occurs_app_iff]
    constructor
    · intro whole
      refine ⟨fun arg mem => ((ih arg mem).1 (whole arg mem)).1, ?_⟩
      rintro v ⟨arg, mem, inside⟩
      exact ((ih arg mem).1 (whole arg mem)).2 v inside
    · rintro ⟨whole, images⟩ arg mem
      exact (ih arg mem).2 ⟨whole arg mem, fun v inside => images v ⟨arg, mem, inside⟩⟩

theorem IsComplete.image (whole : s.IsComplete) (v : String) : (s.image v).isComplete = true := by
  by_cases bound : s.Binds v
  · obtain ⟨t, found⟩ := bound
    rw [image_of_find found]
    exact whole v t found
  · rw [image_of_not_binds bound]
    exact Ty.isComplete_var v

theorem IsComplete.apply (whole : s.IsComplete) (wholeType : t.isComplete = true) :
    (s.apply t).isComplete = true :=
  isComplete_apply.2 ⟨wholeType, fun v _ => whole.image v⟩

theorem isComplete_empty : IsComplete ∅ := nofun

theorem IsComplete.compose (whole : s.IsComplete) (wholeNext : next.IsComplete) :
    (s.compose next).IsComplete := by
  intro w t found
  rw [find?_compose] at found
  cases first : s.find? w with
  | none =>
    rw [first] at found
    exact wholeNext w t (by simpa using found)
  | some value =>
    rw [first] at found
    have same : next.apply value = t := by simpa using found
    exact same ▸ wholeNext.apply (whole w value first)

theorem IsComplete.insert (whole : s.IsComplete) (wholeType : t.isComplete = true) :
    IsComplete (s.insert v t) := by
  intro w u found
  rw [NameMap.find?_insert] at found
  split at found
  · cases found
    exact wholeType
  · exact whole w u found

/-- A type that an idempotent substitution leaves alone has no variable of its domain. -/
theorem Idempotent.not_binds_of_settled (idempotent : s.Idempotent) (settled : s.apply t = t)
    (inside : t.occurs v = true) : ¬ s.Binds v := by
  rintro ⟨u, found⟩
  have fixed := apply_eq_self_iff.1 settled v inside
  rw [image_of_find found] at fixed
  exact idempotent v ⟨u, found⟩ ⟨v, u, found, by rw [fixed, Ty.occurs_var]⟩

theorem Idempotent.not_binds_of_occurs_apply (idempotent : s.Idempotent)
    (inside : (s.apply t).occurs v = true) : ¬ s.Binds v := by
  rcases occurs_apply_cases inside with put | ⟨_, free⟩
  · exact fun bound => idempotent v bound put
  · exact free

theorem Idempotent.apply_apply (idempotent : s.Idempotent) (t : Ty) :
    s.apply (s.apply t) = s.apply t :=
  apply_eq_self fun _ inside => idempotent.not_binds_of_occurs_apply inside

theorem Idempotent.compose (idempotent : s.Idempotent) (idempotentNext : next.Idempotent)
    (apart : ∀ v, s.Binds v → ¬ next.Touches v) : (s.compose next).Idempotent := by
  intro v bound put
  rcases mentions_compose put with later | ⟨first, kept⟩
  · rcases binds_compose.1 bound with here | there
    · exact apart v here (.inr later)
    · exact idempotentNext v there later
  · rcases binds_compose.1 bound with here | there
    · exact idempotent v here first
    · exact kept there

theorem find?_without (s : Subst) (names : List String) (v : String) :
    (s.without names).find? v = if v ∈ names then none else s.find? v := by
  unfold without
  induction names generalizing s with
  | nil => simp
  | cons name rest ih =>
    rw [List.foldl_cons, ih, NameMap.find?_erase]
    by_cases inRest : v ∈ rest <;> by_cases same : v = name <;> simp [inRest, same]

theorem image_without (s : Subst) (names : List String) (v : String) :
    (s.without names).image v = if v ∈ names then .var v else s.image v := by
  unfold image
  rw [find?_without]
  split <;> rfl

end Subst

end HindleyMilner
