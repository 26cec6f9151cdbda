import HindleyMilner.Proofs.Declarative
import HindleyMilner.Proofs.Marks
import HindleyMilner.Proofs.Run
import HindleyMilner.Proofs.Unification

/-! What inference leaves behind: freshness, and a settled answer.

An environment is safe for a number if no variable free in it, and no name quantified beside a free
variable, can be taken for one of the variables numbered from there on. A run in a safe environment
touches only variables that are free in the environment or numbered by the run itself, its
substitution is idempotent, and the type it finds is left alone by that substitution. -/

set_option autoImplicit false

namespace HindleyMilner

namespace Supply

variable {n m k : Nat} {v : String}

def Old (n : Nat) (v : String) : Prop := ∀ k, n ≤ k → v ≠ numbered k

def New (n m : Nat) (v : String) : Prop := ∃ k, n ≤ k ∧ k < m ∧ v = numbered k

theorem Old.mono (old : Old n v) (le : n ≤ m) : Old m v := fun k above => old k (Nat.le_trans le above)

theorem New.mono (new : New n m v) {n' m' : Nat} (lower : n' ≤ n) (upper : m ≤ m') : New n' m' v := by
  obtain ⟨k, above, below, same⟩ := new
  exact ⟨k, Nat.le_trans lower above, Nat.lt_of_lt_of_le below upper, same⟩

theorem New.not_old (new : New n m v) : ¬ Old n v := by
  obtain ⟨k, above, _, same⟩ := new
  exact fun old => old k above same

theorem New.old (new : New n m v) : Old m v := by
  obtain ⟨k, _, below, rfl⟩ := new
  intro j above same
  have := numbered_injective same
  omega

theorem new_numbered (above : n ≤ k) (below : k < m) : New n m (numbered k) := ⟨k, above, below, rfl⟩

theorem not_old_numbered (above : n ≤ k) : ¬ Old n (numbered k) := fun old => old k above rfl

theorem old_of_head {v : String} (n : Nat) (other : v.toList.head? ≠ some 't') : Old n v := by
  intro k _ same
  rw [same, numbered, String.toList_append] at other
  exact other rfl

end Supply

open Supply (Old New numbered)

namespace Env

variable {env : Env} {n m : Nat} {s : Subst} {name v w : String} {t : Ty}

/-- Fresh variables numbered from `n` on cannot be mistaken for variables of the environment. -/
structure Safe (n : Nat) (env : Env) : Prop where
  complete : env.IsComplete
  free : ∀ v, env.Free v → Old n v
  /-- Only a scheme with a free variable is at risk. -/
  bound : ∀ name scheme, env.find? name = some scheme → (∃ v, scheme.Free v) →
    ∀ b ∈ scheme.bound, ¬ env.Free b ∧ Old n b

def Known (env : Env) (n m : Nat) (v : String) : Prop := env.Free v ∨ New n m v

theorem safe_of_isClosed (complete : env.IsComplete) (closed : env.IsClosed) (n : Nat) : env.Safe n where
  complete := complete
  free v free := absurd free (closed v)
  bound name scheme found := fun ⟨v, free⟩ => absurd ⟨name, scheme, found, free⟩ (closed v)

theorem Known.mono (known : env.Known n m v) {n' m' : Nat} (lower : n' ≤ n) (upper : m ≤ m') :
    env.Known n' m' v := known.imp_right fun new => new.mono lower upper

theorem Safe.old_of_known (safe : env.Safe n) (le : n ≤ m) (known : env.Known n m v) : Old m v := by
  rcases known with free | new
  · exact (safe.free v free).mono le
  · exact new.old

theorem Safe.not_known_bound (safe : env.Safe n) {scheme : Scheme} (found : env.find? name = some scheme)
    (free : scheme.Free w) (mem : v ∈ scheme.bound) : ¬ env.Known n m v := by
  obtain ⟨notFree, old⟩ := safe.bound name scheme found ⟨w, free⟩ v mem
  rintro (freeV | new)
  · exact notFree freeV
  · exact new.not_old old

/-- Nothing is captured by the schemes of a safe environment, nor after a substitution into them. -/
theorem Safe.noCapture_subst (safe : env.Safe n) (first : Subst)
    (mentions : ∀ v, s.Mentions v → env.Known n m v) : NoCapture s (env.subst first) := by
  intro name scheme found v free b mem inImage
  obtain ⟨old, lookup, rfl⟩ := find?_subst_some found
  obtain ⟨w, freeOld, _⟩ := Scheme.free_of_free_subst free
  -- The quantified names are those of before, and so is the free variable that puts them at risk.
  rcases Subst.occurs_image inImage with ⟨_, put⟩ | ⟨same, _⟩
  · exact safe.not_known_bound lookup freeOld mem (mentions b put)
  · exact free.2 (same ▸ mem)

theorem Safe.noCapture (safe : env.Safe n) (mentions : ∀ v, s.Mentions v → env.Known n m v) :
    NoCapture s env := by
  have clear := safe.noCapture_subst ∅ mentions
  rwa [subst_empty] at clear

theorem known_of_free_subst (mentions : ∀ v, s.Mentions v → env.Known n m v)
    (free : Free (env.subst s) v) : env.Known n m v := by
  obtain ⟨w, freeOld, inImage⟩ := free_of_free_subst free
  rcases Subst.occurs_image inImage with ⟨_, put⟩ | ⟨same, _⟩
  · exact mentions v put
  · exact .inl (same ▸ freeOld)

theorem Safe.subst (safe : env.Safe n) (le : n ≤ m) (whole : s.IsComplete)
    (mentions : ∀ v, s.Mentions v → env.Known n m v) : Safe m (env.subst s) where
  complete := safe.complete.subst whole
  free v free := safe.old_of_known le (known_of_free_subst mentions free)
  bound name scheme found := by
    rintro ⟨v, free⟩ b mem
    obtain ⟨old, lookup, rfl⟩ := find?_subst_some found
    obtain ⟨w, freeOld, _⟩ := Scheme.free_of_free_subst free
    refine ⟨fun freeB => ?_, (safe.bound name old lookup ⟨w, freeOld⟩ b mem).2.mono le⟩
    exact safe.not_known_bound lookup freeOld mem (known_of_free_subst mentions freeB)

theorem free_declare {t : Ty} (free : Free (env.declare name t) v) : t.occurs v = true ∨ env.Free v :=
  (free_of_free_extend free).imp_left Scheme.free_mono.1

theorem Safe.declare (safe : env.Safe n) (name : String) :
    Safe (n + 1) (env.declare name (.var (numbered n))) where
  complete := safe.complete.extend (Ty.isComplete_var _)
  free v free := by
    rcases free_declare free with inside | free
    · rw [Ty.occurs_var.1 inside]
      exact (Supply.new_numbered (Nat.le_refl n) (Nat.lt_succ_self n)).old
    · exact (safe.free v free).mono (Nat.le_succ n)
  bound query scheme found := by
    rintro ⟨v, free⟩ b mem
    unfold Env.declare at found
    rw [find?_extend] at found
    split at found
    · cases found
      exact absurd mem List.not_mem_nil
    · obtain ⟨notFree, old⟩ := safe.bound query scheme found ⟨v, free⟩ b mem
      refine ⟨fun freeB => ?_, old.mono (Nat.le_succ n)⟩
      rcases free_declare freeB with inside | freeB
      · exact old n (Nat.le_refl n) (Ty.occurs_var.1 inside)
      · exact notFree freeB

theorem free_of_free_generalized (free : Free (env.extend name (env.generalize t)) v) : env.Free v := by
  rcases free_of_free_extend free with inScheme | free
  · exact (free_generalize.1 inScheme).2
  · exact free

theorem Safe.generalized (safe : env.Safe m) (name : String) (whole : t.isComplete = true)
    (known : ∀ v, t.occurs v = true → env.Known n m v) : Safe m (env.extend name (env.generalize t)) where
  complete := safe.complete.extend whole
  free v free := safe.free v (free_of_free_generalized free)
  bound query scheme found := by
    rintro ⟨v, free⟩ b mem
    rw [find?_extend] at found
    split at found
    · cases found
      obtain ⟨inside, notFree⟩ := mem_bound_generalize.1 mem
      refine ⟨fun freeB => notFree (free_of_free_generalized freeB), ?_⟩
      exact ((known b inside).resolve_left notFree).old
    · obtain ⟨notFree, old⟩ := safe.bound query scheme found ⟨v, free⟩ b mem
      exact ⟨fun freeB => notFree (free_of_free_generalized freeB), old⟩

/-- A scheme that has a free variable beside a quantified one, and a name of unknown type. -/
def opened : Env :=
  declare (extend ∅ "k" ⟨["b"], .arrow (.var "b") (.var "c")⟩) "y" (.var "a")

theorem find?_opened {name : String} {scheme : Scheme} (found : opened.find? name = some scheme) :
    scheme = .mono (.var "a") ∨ scheme = ⟨["b"], .arrow (.var "b") (.var "c")⟩ := by
  unfold opened declare at found
  rw [find?_extend, find?_extend] at found
  split at found
  · cases found
    exact .inl rfl
  · split at found
    · cases found
      exact .inr rfl
    · cases found

theorem free_opened {v : String} (free : opened.Free v) : v = "a" ∨ v = "c" := by
  obtain ⟨name, scheme, found, free⟩ := free
  rcases find?_opened found with rfl | rfl
  · exact .inl (Ty.occurs_var.1 (Scheme.free_mono.1 free))
  · obtain ⟨inside, outside⟩ := free
    rcases Ty.occurs_arrow.1 inside with inDomain | inCodomain
    · exact absurd (Ty.occurs_var.1 inDomain ▸ List.mem_cons_self) outside
    · exact .inr (Ty.occurs_var.1 inCodomain)

theorem safe_opened (n : Nat) : opened.Safe n where
  complete name scheme found := by
    rcases find?_opened found with rfl | rfl <;> cbv
  free v free := by
    rcases free_opened free with rfl | rfl <;> exact Supply.old_of_head n (by decide)
  bound name scheme found := by
    rintro ⟨v, free⟩ b mem
    rcases find?_opened found with rfl | rfl
    · exact absurd mem List.not_mem_nil
    · obtain rfl := List.mem_singleton.1 mem
      refine ⟨fun freeB => ?_, Supply.old_of_head n (by decide)⟩
      rcases free_opened freeB with same | same <;> exact absurd same (by decide)

end Env

/-- A local function that reads both names of the open environment, and a call of one of them. -/
def Expr.mixed : Expr :=
  .letIn "f" (.func "x" (.call (.var "k" {}) (.var "y" {}) {}) {})
    (.call (.var "y" {}) (.call (.var "f" {}) (.lit .int "1" {}) {}) {}) {}

theorem Infer.fits_mixed : Fits Env.opened 0 [] .mixed := by
  unfold Fits
  cbv

namespace Infer

variable {env : Env} {n m k : Nat} {expr : Expr} {found : Typing} {v : String}

/-- What holds of the answer of a run from `n` to `m`. -/
structure Settled (env : Env) (n : Nat) (found : Typing) (m : Nat) : Prop where
  le : n ≤ m
  touches : ∀ v, found.subst.Touches v → env.Known n m v
  idempotent : found.subst.Idempotent
  settled : found.subst.apply found.type = found.type
  type : ∀ v, found.type.occurs v = true → env.Known n m v
  tree : ∀ t ∈ found.tree.types, ∀ v, t.occurs v = true → env.Known n m v
  completeSubst : found.subst.IsComplete
  completeType : found.type.isComplete = true

namespace Settled

theorem mentions (settled : Settled env n found m) : ∀ v, found.subst.Mentions v → env.Known n m v :=
  fun v put => settled.touches v (.inr put)

theorem safe (settled : Settled env n found m) (safe : env.Safe n) : Env.Safe m (env.subst found.subst) :=
  safe.subst settled.le settled.completeSubst settled.mentions

theorem noCapture (settled : Settled env n found m) (safe : env.Safe n) : env.NoCapture found.subst :=
  safe.noCapture settled.mentions

/-- A variable of the type is still free once the substitution is applied, or is a new one. -/
theorem known_after (settled : Settled env n found m) (safe : env.Safe n)
    (inside : found.type.occurs v = true) : Env.Known (env.subst found.subst) n m v := by
  rcases settled.type v inside with free | new
  · have unbound := settled.idempotent.not_binds_of_settled settled.settled inside
    refine .inl ((Env.free_subst (settled.noCapture safe)).2 ⟨v, free, ?_⟩)
    rw [Subst.image_of_not_binds unbound, Ty.occurs_var]
  · exact .inr new

/-- What a later run knows, an earlier one together with it knows too. -/
theorem known_of_later (settled : Settled env n found m) (le : m ≤ k)
    (known : Env.Known (env.subst found.subst) m k v) : env.Known n k v := by
  rcases known with free | new
  · exact (Env.known_of_free_subst settled.mentions free).mono (Nat.le_refl n) le
  · exact .inr (new.mono settled.le (Nat.le_refl k))

/-- What a later run knows is not bound by an earlier one. -/
theorem not_binds_of_later (settled : Settled env n found m) (safe : env.Safe n)
    (known : Env.Known (env.subst found.subst) m k v) : ¬ found.subst.Binds v := by
  rcases known with free | new
  · obtain ⟨w, _, inImage⟩ := Env.free_of_free_subst free
    exact settled.idempotent.not_binds_of_occurs_apply (t := .var w) (by rwa [Subst.apply_var])
  · intro bound
    -- Numbers are given out once.
    exact new.not_old (safe.old_of_known settled.le (settled.touches v (.inl bound)))

end Settled

theorem settled_of_no_subst {t : Ty} {tree : Expr} (le : n ≤ m) (whole : t.isComplete = true)
    (known : ∀ v, t.occurs v = true → env.Known n m v) (assigned : tree.types = [t]) :
    Settled env n ⟨∅, t, tree⟩ m where
  le := le
  touches v touched := touched.elim (absurd · Subst.not_binds_empty) (absurd · Subst.not_mentions_empty)
  idempotent v bound := absurd bound Subst.not_binds_empty
  settled := Subst.apply_empty t
  type := known
  tree u mem := by
    rw [assigned, List.mem_singleton] at mem
    exact mem ▸ known
  completeSubst := Subst.isComplete_empty
  completeType := whole

theorem settled_func {param : String} {t : Ty}
    (inner : Settled (env.declare param (.var (numbered n))) (n + 1) found m)
    (type : t = found.subst.apply (.arrow (.var (numbered n)) found.type)) (mark : Mark) :
    Settled env n ⟨found.subst, t, .func param found.tree { mark with type := t }⟩ m := by
  have le : n + 1 ≤ m := inner.le
  -- The variable of the parameter is free inside and new outside.
  have known (v : String) (known : Env.Known (env.declare param (.var (numbered n))) (n + 1) m v) :
      env.Known n m v := by
    rcases known with free | new
    · rcases Env.free_declare free with inside | free
      · exact .inr (Ty.occurs_var.1 inside ▸ Supply.new_numbered (Nat.le_refl n) le)
      · exact .inl free
    · exact .inr (new.mono (Nat.le_succ n) (Nat.le_refl m))
  have knownType (v : String) (inside : t.occurs v = true) : env.Known n m v := by
    rw [type] at inside
    rcases Subst.occurs_apply_cases inside with put | ⟨inside, _⟩
    · exact known v (inner.mentions v put)
    · rcases Ty.occurs_arrow.1 inside with inDomain | inCodomain
      · exact .inr (Ty.occurs_var.1 inDomain ▸ Supply.new_numbered (Nat.le_refl n) le)
      · exact known v (inner.type v inCodomain)
  constructor
  case le => exact Nat.le_of_succ_le le
  case touches => exact fun v touched => known v (inner.touches v touched)
  case idempotent => exact inner.idempotent
  case settled =>
    subst type
    exact inner.idempotent.apply_apply _
  case type => exact knownType
  case tree =>
    intro u mem v inside
    rcases List.mem_cons.1 mem with rfl | inBody
    · exact knownType v inside
    · exact known v (inner.tree u inBody v inside)
  case completeSubst => exact inner.completeSubst
  case completeType =>
    rw [type]
    exact inner.completeSubst.apply (Ty.isComplete_arrow.2 ⟨Ty.isComplete_var _, inner.completeType⟩)

theorem touches_of_unify_call {function argument : Typing} {s : Subst}
    (unified : unify (argument.subst.apply function.type) (.arrow argument.type (.var (numbered k))) = .ok s)
    (touched : s.Touches v) :
    (argument.subst.apply function.type).occurs v = true ∨ argument.type.occurs v = true ∨ v = numbered k := by
  rcases occurs_of_unify unified touched with inFunction | inNeeded
  · exact .inl inFunction
  · exact .inr ((Ty.occurs_arrow.1 inNeeded).imp_right Ty.occurs_var.1)

/-- A variable of the result was put in by the unifier, or is the one taken for the result. -/
theorem occurs_result {s : Subst} {t : Ty} (type : t = s.apply (.var (numbered k)))
    (inside : t.occurs v = true) : s.Mentions v ∨ v = numbered k := by
  rw [type] at inside
  exact (Subst.occurs_apply_cases inside).imp_right fun kept => Ty.occurs_var.1 kept.1

section Call

variable {function argument : Typing} {s : Subst} {t : Ty}
  (first : Settled env n function m) (second : Settled (env.subst function.subst) m argument k)

include first second

theorem not_binds_result (safe : env.Safe n) :
    ¬ function.subst.Binds (numbered k) ∧ ¬ argument.subst.Binds (numbered k) := by
  constructor
  · intro bound
    exact Supply.not_old_numbered second.le (safe.old_of_known first.le (first.touches _ (.inl bound)))
  · intro bound
    exact Supply.not_old_numbered (Nat.le_refl k)
      ((first.safe safe).old_of_known second.le (second.touches _ (.inl bound)))

variable
  (unified : unify (argument.subst.apply function.type) (.arrow argument.type (.var (numbered k))) = .ok s)

include unified

theorem known_of_unify_call (touched : s.Touches v) : env.Known n (k + 1) v := by
  have earlier (known : Env.Known (env.subst function.subst) m k v) : env.Known n (k + 1) v :=
    (first.known_of_later second.le known).mono (Nat.le_refl n) (Nat.le_succ k)
  rcases touches_of_unify_call unified touched with inFunction | inArgument | rfl
  · rcases Subst.occurs_apply_cases inFunction with put | ⟨inside, _⟩
    · exact earlier (second.mentions v put)
    · exact (first.type v inside).mono (Nat.le_refl n) (Nat.le_trans second.le (Nat.le_succ k))
  · exact earlier (second.type v inArgument)
  · exact .inr (Supply.new_numbered (Nat.le_trans first.le second.le) (Nat.lt_succ_self k))

theorem isComplete_of_unify_call : s.IsComplete :=
  isComplete_of_unify unified (second.completeSubst.apply first.completeType)
    (Ty.isComplete_arrow.2 ⟨second.completeType, Ty.isComplete_var _⟩)

theorem known_of_occurs_result (type : t = s.apply (.var (numbered k))) (inside : t.occurs v = true) :
    env.Known n (k + 1) v := by
  rcases occurs_result type inside with put | rfl
  · exact known_of_unify_call first second unified (.inr put)
  · exact .inr (Supply.new_numbered (Nat.le_trans first.le second.le) (Nat.lt_succ_self k))

variable (safe : env.Safe n)

include safe

/-- What the unifier of a call touches, neither of the substitutions before it binds. -/
theorem not_binds_of_unify_call (touched : s.Touches v) :
    ¬ function.subst.Binds v ∧ ¬ argument.subst.Binds v := by
  have later (known : Env.Known (env.subst function.subst) m k v) : ¬ function.subst.Binds v :=
    first.not_binds_of_later safe known
  rcases touches_of_unify_call unified touched with inFunction | inArgument | rfl
  · refine ⟨?_, second.idempotent.not_binds_of_occurs_apply inFunction⟩
    rcases Subst.occurs_apply_cases inFunction with put | ⟨inside, _⟩
    · exact later (second.mentions v put)
    · exact first.idempotent.not_binds_of_settled first.settled inside
  · exact ⟨later (second.type v inArgument),
      second.idempotent.not_binds_of_settled second.settled inArgument⟩
  · exact not_binds_result first second safe

theorem idempotent_call : (function.subst.compose (argument.subst.compose s)).Idempotent := by
  have idempotentLater : (argument.subst.compose s).Idempotent :=
    second.idempotent.compose (idempotent_of_unify unified) fun v bound touched =>
      (not_binds_of_unify_call first second unified safe touched).2 bound
  -- Nothing learned first is touched by what is learned later.
  refine first.idempotent.compose idempotentLater fun v bound touched => ?_
  rcases Subst.touches_compose touched with middle | last
  · exact first.not_binds_of_later safe (second.touches v middle) bound
  · exact (not_binds_of_unify_call first second unified safe last).1 bound

theorem not_binds_of_occurs_result (type : t = s.apply (.var (numbered k))) (inside : t.occurs v = true) :
    ¬ (function.subst.compose (argument.subst.compose s)).Binds v := by
  have early : ¬ function.subst.Binds v ∧ ¬ argument.subst.Binds v := by
    rcases occurs_result type inside with put | rfl
    · exact not_binds_of_unify_call first second unified safe (.inr put)
    · exact not_binds_result first second safe
  intro bound
  rcases Subst.binds_compose.1 bound with here | there
  · exact early.1 here
  · rcases Subst.binds_compose.1 there with middle | last
    · exact early.2 middle
    · exact (idempotent_of_unify unified).not_binds_of_occurs_apply (type ▸ inside) last

theorem settled_call (type : t = s.apply (.var (numbered k))) (mark : Mark) :
    Settled env n ⟨function.subst.compose (argument.subst.compose s), t,
      .call function.tree argument.tree { mark with type := t }⟩ (k + 1) := by
  have knownSecond (v : String) (known : Env.Known (env.subst function.subst) m k v) :
      env.Known n (k + 1) v :=
    (first.known_of_later second.le known).mono (Nat.le_refl n) (Nat.le_succ k)
  have knownFirst (v : String) (known : env.Known n m v) : env.Known n (k + 1) v :=
    known.mono (Nat.le_refl n) (Nat.le_trans second.le (Nat.le_succ k))
  have wholeUnifier : s.IsComplete := isComplete_of_unify_call first second unified
  constructor
  case le => exact Nat.le_succ_of_le (Nat.le_trans first.le second.le)
  case touches =>
    intro v touched
    rcases Subst.touches_compose touched with early | late
    · exact knownFirst v (first.touches v early)
    · rcases Subst.touches_compose late with middle | last
      · exact knownSecond v (second.touches v middle)
      · exact known_of_unify_call first second unified last
  case idempotent => exact idempotent_call first second unified safe
  case settled =>
    exact Subst.apply_eq_self fun v inside => not_binds_of_occurs_result first second unified safe type inside
  case type => exact fun v inside => known_of_occurs_result first second unified type inside
  case tree =>
    intro u mem v inside
    rcases List.mem_cons.1 mem with rfl | inParts
    · exact known_of_occurs_result first second unified type inside
    · rcases List.mem_append.1 inParts with inFunction | inArgument
      · exact knownFirst v (first.tree u inFunction v inside)
      · exact knownSecond v (second.tree u inArgument v inside)
  case completeSubst => exact first.completeSubst.compose (second.completeSubst.compose wholeUnifier)
  case completeType =>
    rw [type]
    exact wholeUnifier.apply (Ty.isComplete_var _)

end Call

/-- The body of a local definition knows nothing beyond what was known before it. -/
theorem known_of_known_bodyEnv {name : String} {definition : Typing}
    (known : Env.Known (bodyEnv env name definition) m k v) :
    Env.Known (env.subst definition.subst) m k v := known.imp_left Env.free_of_free_generalized

theorem Settled.safe_bodyEnv {definition : Typing} (first : Settled env n definition m)
    (safe : env.Safe n) (name : String) : Env.Safe m (bodyEnv env name definition) :=
  (first.safe safe).generalized name first.completeType fun _ inside => first.known_after safe inside

theorem settled_letIn {name : String} {definition : Typing} (safe : env.Safe n)
    (first : Settled env n definition m) (second : Settled (bodyEnv env name definition) m found k)
    (pos : Position) :
    Settled env n ⟨definition.subst.compose found.subst, found.type,
      .letIn name definition.tree found.tree pos⟩ k := by
  have known (v : String) (known : Env.Known (bodyEnv env name definition) m k v) : env.Known n k v :=
    first.known_of_later second.le (known_of_known_bodyEnv known)
  have unbound (v : String) (known : Env.Known (bodyEnv env name definition) m k v) :
      ¬ definition.subst.Binds v := first.not_binds_of_later safe (known_of_known_bodyEnv known)
  constructor
  case le => exact Nat.le_trans first.le second.le
  case touches =>
    intro v touched
    rcases Subst.touches_compose touched with early | late
    · exact (first.touches v early).mono (Nat.le_refl n) second.le
    · exact known v (second.touches v late)
  case idempotent =>
    exact first.idempotent.compose second.idempotent fun v bound touched =>
      unbound v (second.touches v touched) bound
  case settled =>
    rw [Subst.apply_compose, Subst.apply_eq_self fun v inside => unbound v (second.type v inside)]
    exact second.settled
  case type => exact fun v inside => known v (second.type v inside)
  case tree =>
    intro u mem v inside
    rcases List.mem_append.1 mem with inValue | inBody
    · exact (first.tree u inValue v inside).mono (Nat.le_refl n) second.le
    · exact known v (second.tree u inBody v inside)
  case completeSubst => exact first.completeSubst.compose second.completeSubst
  case completeType => exact second.completeType

/-- A run in a safe environment leaves a settled answer. -/
theorem Run.settled (run : Run env n expr found m) (safe : env.Safe n) : Settled env n found m := by
  induction run with
  | lit base =>
    exact settled_of_no_subst (Nat.le_refl _) (LiteralKind.isComplete_type base)
      (fun v inside => absurd inside (LiteralKind.not_occurs_type base v)) rfl
  | @var env n name mark scheme lookup =>
    refine settled_of_no_subst (Nat.le_add_right _ _) ?_ (fun v inside => ?_) rfl
    · exact (Supply.isComplete_renewal Subst.isComplete_empty).apply (safe.complete name scheme lookup)
    · rcases Supply.occurs_renewed inside with free | new
      · exact .inl ⟨name, scheme, lookup, free⟩
      · exact .inr new
  | @func env n m param body mark found t _ type ih => exact settled_func (ih (safe.declare param)) type mark
  | call _ _ unified type ihFn ihArg =>
    have first := ihFn safe
    exact settled_call first (ihArg (first.safe safe)) unified safe type _
  | letIn _ _ ihValue ihBody =>
    have first := ihValue safe
    exact settled_letIn safe first (ihBody (first.safe_bodyEnv safe _)) _

/-- A run that succeeds in a safe environment concerns only variables that are free in it or numbered
by the run, binds no variable that it still mentions, and leaves a safe environment behind. -/
theorem typing_settled (env : Env) (n : Nat) (events : List Event) (expr : Expr) (found : Typing)
    (after : Progress) (safe : env.Safe n) (fits : Fits env n events expr)
    (went : (typing env expr).run.run ⟨.starting n, events⟩ = (.ok found, after)) :
    ∃ m, after.supply = .starting m ∧ m < Supply.limit ∧ n ≤ m ∧
      (∀ v, found.subst.Touches v → env.Known n m v) ∧ found.subst.Idempotent ∧
      found.subst.apply found.type = found.type ∧
      (∀ v, found.type.occurs v = true → Env.Known (env.subst found.subst) n m v) ∧
      Env.Safe m (env.subst found.subst) := by
  obtain ⟨m, run, supply, total⟩ := run_of_typing fits went
  have settled := run.settled safe
  exact ⟨m, supply, total ▸ fits, settled.le, settled.touches, settled.idempotent, settled.settled,
    fun v inside => settled.known_after safe inside, settled.safe safe⟩

/-- The free variable `a` is bound to a function between new variables, which the environment then
has in place of it. -/
theorem typing_settled_opened :
    ∃ found after,
      (typing Env.opened Expr.mixed).run.run ⟨.starting 0, []⟩ = (.ok found, after) ∧
      after.supply.next = 6 ∧ found.subst.names = ["a", "c", "t1", "t2", "t3"] ∧
      ∃ m, after.supply = .starting m ∧ m < Supply.limit ∧ 0 ≤ m ∧
        (∀ v, found.subst.Touches v → Env.opened.Known 0 m v) ∧ found.subst.Idempotent ∧
        found.subst.apply found.type = found.type ∧
        (∀ v, found.type.occurs v = true → Env.Known (Env.opened.subst found.subst) 0 m v) ∧
        Env.Safe m (Env.opened.subst found.subst) := by
  have computed : ((typing Env.opened Expr.mixed).run.run ⟨.starting 0, []⟩).2.supply.next = 6 := by cbv
  have names : ((typing Env.opened Expr.mixed).run.run ⟨.starting 0, []⟩).1.toOption.map
      (fun found => found.subst.names) = some ["a", "c", "t1", "t2", "t3"] := by cbv
  rcases went : (typing Env.opened Expr.mixed).run.run ⟨.starting 0, []⟩ with ⟨outcome, after⟩
  rw [went] at computed names
  cases outcome with
  | error stop => cases names
  | ok found =>
    exact ⟨found, after, rfl, computed, Option.some.inj names,
      typing_settled Env.opened 0 [] Expr.mixed found after (Env.safe_opened 0) fits_mixed went⟩

end Infer

end HindleyMilner
