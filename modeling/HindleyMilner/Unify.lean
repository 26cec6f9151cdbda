import HindleyMilner.Subst

/-! Unification: a most general substitution that makes two types equal.

Equations between types are worked off from left to right. An equation between a variable and a
type binds the variable and disappears from the equations after it; an equation between two
applications of one constructor is replaced by the equations between their arguments. Each step
leaves fewer variables, or as many variables and smaller equations.

A type that is missing can only be what a variable stands for: any other equation with it is a
fault. -/

set_option autoImplicit false

namespace HindleyMilner

inductive Mismatch where
  /-- Different constructors meet. -/
  | constructors (first second : String)
  /-- One constructor meets itself with another number of arguments. -/
  | arity (first second : Ty)
  /-- A variable would have to stand for a type that contains it. -/
  | infinite (name : String) (type : Ty)
  deriving DecidableEq, Repr

def Mismatch.message : Mismatch → Except Fault String
  | .constructors first second => .ok ("mismatched type constructors: " ++ first ++ " and " ++ second)
  | .arity first second => .ok ("mismatched arity: " ++ first.describe ++ " and " ++ second.describe)
  | .infinite name type => do
    return "infinite type: " ++ name ++ " occurs in " ++ (← type.render)

inductive Impasse where
  | mismatch (reason : Mismatch)
  | fault (fault : Fault)
  deriving DecidableEq, Repr

namespace Unify

abbrev Equation := Ty × Ty

def substAll (s : Subst) (equations : List Equation) : List Equation :=
  equations.map fun (a, b) => (s.apply a, s.apply b)

def Mentions (equations : List Equation) (name : String) : Prop :=
  ∃ e ∈ equations, e.1.occurs name = true ∨ e.2.occurs name = true

theorem Mentions.cons {equations : List Equation} {name : String} (found : Mentions equations name) (first : Equation) :
    Mentions (first :: equations) name := by
  obtain ⟨e, mem, inside⟩ := found
  exact ⟨e, List.mem_cons_of_mem _ mem, inside⟩

def vars (equations : List Equation) : List String :=
  equations.foldl (fun found e => e.2.collect [] (e.1.collect [] found)) []

def size : List Equation → Nat
  | [] => 0
  | (a, b) :: rest => a.size + b.size + size rest

theorem mem_vars_foldl {equations : List Equation} {found : List String} {name : String} :
    name ∈ equations.foldl (fun found e => e.2.collect [] (e.1.collect [] found)) found ↔
      name ∈ found ∨ Mentions equations name := by
  induction equations generalizing found with
  | nil => simp [Mentions]
  | cons e rest ih =>
    rw [List.foldl_cons, ih, Ty.mem_collect, Ty.mem_collect]
    simp only [Mentions, List.mem_cons]
    grind

theorem mem_vars {equations : List Equation} {name : String} :
    name ∈ vars equations ↔ Mentions equations name := by
  simp [vars, mem_vars_foldl]

theorem nodup_vars (equations : List Equation) : (vars equations).Nodup := by
  suffices step : ∀ found : List String, found.Nodup →
      (equations.foldl (fun found e => e.2.collect [] (e.1.collect [] found)) found).Nodup from
    step [] List.nodup_nil
  induction equations with
  | nil => exact fun _ distinct => distinct
  | cons e rest ih => exact fun _ distinct => ih _ (Ty.nodup_collect (Ty.nodup_collect distinct))

theorem vars_length_le {smaller larger : List Equation}
    (sub : ∀ name, Mentions smaller name → Mentions larger name) :
    (vars smaller).length ≤ (vars larger).length :=
  (nodup_vars smaller).length_le_of_subset fun name mem => mem_vars.2 (sub name (mem_vars.1 mem))

theorem vars_length_lt {smaller larger : List Equation} (name : String)
    (sub : ∀ other, Mentions smaller other → Mentions larger other)
    (here : Mentions larger name) (gone : ¬ Mentions smaller name) :
    (vars smaller).length < (vars larger).length := by
  have distinct : (name :: vars smaller).Nodup :=
    List.nodup_cons.2 ⟨fun mem => gone (mem_vars.1 mem), nodup_vars smaller⟩
  have within : name :: vars smaller ⊆ vars larger := fun other mem => by
    rcases List.mem_cons.1 mem with same | inRest
    · exact mem_vars.2 (same ▸ here)
    · exact mem_vars.2 (sub other (mem_vars.1 inRest))
  exact distinct.length_le_of_subset within

theorem image_single (name : String) (t : Ty) (query : String) :
    Subst.image (NameMap.single name t) query = if query = name then t else .var query := by
  simp only [Subst.image, NameMap.find?_single]
  split <;> rfl

/-- Binding a variable to a type without it removes the variable and adds none. -/
theorem mentions_substAll_single {name : String} {t : Ty} {equations : List Equation}
    {query : String} (fresh : t.occurs name = false)
    (found : Mentions (substAll (NameMap.single name t) equations) query) :
    query ≠ name ∧ (Mentions equations query ∨ t.occurs query = true) := by
  have step (u : Ty) (inside : (Subst.apply (NameMap.single name t) u).occurs query = true) :
      query ≠ name ∧ (u.occurs query = true ∨ t.occurs query = true) := by
    obtain ⟨source, inSource, inImage⟩ := (Subst.occurs_apply _ u query).1 inside
    rw [image_single] at inImage
    split at inImage
    · refine ⟨fun same => ?_, .inr inImage⟩
      rw [same, fresh] at inImage
      exact Bool.noConfusion inImage
    · rename_i other
      simp only [Ty.occurs, beq_iff_eq] at inImage
      exact ⟨inImage ▸ other, .inl (inImage ▸ inSource)⟩
  obtain ⟨e, mem, inside⟩ := found
  obtain ⟨⟨a, b⟩, memOld, rfl⟩ := List.mem_map.1 mem
  rcases inside with inside | inside <;> obtain ⟨other, source⟩ := step _ inside
  · exact ⟨other, source.imp_left fun inA => ⟨(a, b), memOld, .inl inA⟩⟩
  · exact ⟨other, source.imp_left fun inB => ⟨(a, b), memOld, .inr inB⟩⟩

/-- Working off an equation by binding its variable leaves no other variables than before. -/
theorem mentions_of_bound {name : String} {t : Ty} {first : Equation} {rest : List Equation} {query : String}
    (fresh : t.occurs name = false) (sides : first = (.var name, t) ∨ first = (t, .var name))
    (found : Mentions (substAll (NameMap.single name t) rest) query) : Mentions (first :: rest) query := by
  obtain ⟨_, inRest | inType⟩ := mentions_substAll_single fresh found
  · exact inRest.cons first
  · refine ⟨first, List.mem_cons_self, ?_⟩
    rcases sides with rfl | rfl
    · exact .inr inType
    · exact .inl inType

theorem vars_substAll_single_lt {name : String} {t : Ty} {first : Equation}
    {rest : List Equation} (fresh : t.occurs name = false)
    (sides : first = (.var name, t) ∨ first = (t, .var name)) :
    (vars (substAll (NameMap.single name t) rest)).length < (vars (first :: rest)).length := by
  refine vars_length_lt name (fun other found => mentions_of_bound fresh sides found) ?_ fun found => ?_
  · refine ⟨first, List.mem_cons_self, ?_⟩
    rcases sides with rfl | rfl <;> simp [Ty.occurs]
  · exact (mentions_substAll_single fresh found).1 rfl

theorem mentions_zip {as bs : List Ty} {rest : List Equation} {c d : String} {query : String}
    (found : Mentions (as.zip bs ++ rest) query) :
    Mentions ((Ty.app c as, Ty.app d bs) :: rest) query := by
  obtain ⟨e, mem, inside⟩ := found
  rcases List.mem_append.1 mem with inArgs | inRest
  · refine ⟨_, List.mem_cons_self, ?_⟩
    simp only [Ty.occurs_app, List.any_eq_true]
    obtain ⟨inLeft, inRight⟩ := List.of_mem_zip inArgs
    exact inside.imp (fun inA => ⟨e.1, inLeft, inA⟩) fun inB => ⟨e.2, inRight, inB⟩
  · exact ⟨e, List.mem_cons_of_mem _ inRest, inside⟩

theorem size_append (first second : List Equation) : size (first ++ second) = size first + size second := by
  induction first with
  | nil => simp [size]
  | cons e rest ih => simp only [List.cons_append, size, ih]; omega

theorem size_zip_le (as bs : List Ty) : size (as.zip bs) ≤ Ty.sizeAll as + Ty.sizeAll bs := by
  induction as generalizing bs with
  | nil => simp [size]
  | cons a rest ih =>
    cases bs with
    | nil => simp [size]
    | cons b others =>
      have := ih others
      simp only [List.zip_cons_cons, size, Ty.sizeAll]
      omega

theorem size_zip_lt (c d : String) (as bs : List Ty) (rest : List Equation) :
    size (as.zip bs ++ rest) < size ((Ty.app c as, Ty.app d bs) :: rest) := by
  have := size_zip_le as bs
  simp only [size_append, size, Ty.size]
  omega

theorem lex_of_le_of_lt {a b c d : Nat} (le : a ≤ b) (lt : c < d) :
    Prod.Lex (· < ·) (· < ·) (a, c) (b, d) := by
  rcases Nat.lt_or_eq_of_le le with below | same
  · exact .left _ _ below
  · exact same ▸ .right _ lt

theorem size_pos (t : Ty) : 0 < t.size := by
  cases t <;> simp only [Ty.size] <;> omega

/-- The unifier of all equations at once. What is bound first is substituted into the equations
after it, so that no variable is bound twice. -/
def solve (equations : List Equation) : Except Impasse Subst :=
  match equations with
  | [] => .ok ∅
  | (.var name, t) :: rest =>
    if t = .var name then solve rest
    else if t.occurs name then .error (.mismatch (.infinite name t))
    else do
      let s ← solve (substAll (NameMap.single name t) rest)
      return Subst.compose (NameMap.single name t) s
  | (.app c as, .var name) :: rest =>
    if (Ty.app c as).occurs name then .error (.mismatch (.infinite name (.app c as)))
    else do
      let s ← solve (substAll (NameMap.single name (.app c as)) rest)
      return Subst.compose (NameMap.single name (.app c as)) s
  | (.app c as, .app d bs) :: rest =>
    if c ≠ d then .error (.mismatch (.constructors c d))
    else if as.length ≠ bs.length then .error (.mismatch (.arity (.app c as) (.app d bs)))
    else solve (as.zip bs ++ rest)
  | (.absent, _) :: _ | (.app _ _, .absent) :: _ => .error (.fault .missingType)
termination_by ((vars equations).length, size equations)
decreasing_by
  · refine lex_of_le_of_lt (vars_length_le fun name found => found.cons _) ?_
    have := size_pos t
    simp only [size]
    omega
  · rename_i fresh
    exact Prod.Lex.left _ _ (vars_substAll_single_lt (by simpa using fresh) (.inl rfl))
  · rename_i fresh
    exact Prod.Lex.left _ _ (vars_substAll_single_lt (by simpa using fresh) (.inr rfl))
  · exact lex_of_le_of_lt (vars_length_le fun name found => mentions_zip found) (size_zip_lt c d as bs rest)

end Unify

def unify (a b : Ty) : Except Impasse Subst := Unify.solve [(a, b)]

end HindleyMilner
