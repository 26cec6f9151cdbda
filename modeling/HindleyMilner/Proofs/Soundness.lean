import HindleyMilner.Proofs.Derivation
import HindleyMilner.Proofs.Freshness

/-! Soundness of inference.

The types assigned by a run form a derivation once the substitution is applied to them. A variable
is spent by a run if the run numbered it and the answer shows it neither in the environment nor in
the type. Local definitions quantify over spent variables only, so whatever is learned later leaves
the derivations of the parts intact. -/

set_option autoImplicit false

namespace HindleyMilner

open Supply (Old New numbered)

namespace Env

variable {env inner : Env} {n m k : Nat} {s : Subst} {v : String}

theorem not_known_later (new : New n m v) (absent : ¬ env.Free v) : ¬ env.Known m k v := by
  rintro (free | later)
  · exact absent free
  · exact later.not_old new.old

/-- A new variable that is put into the environment around a scope is put into the scope too: the
scope may hide a name, but then the variable would not have been touched inside. -/
theorem free_subst_of_around (binds : ∀ w, s.Binds w → inner.Known n m w) (clear : inner.NoCapture s)
    (old : ∀ w, env.Free w → Old n w) (new : New n m v) (free : Free (env.subst s) v) :
    Free (inner.subst s) v := by
  obtain ⟨w, freeOld, inImage⟩ := free_of_free_subst free
  rcases Subst.occurs_image inImage with ⟨bound, _⟩ | ⟨same, _⟩
  · rcases binds w bound with freeInner | newW
    · exact (free_subst clear).2 ⟨w, freeInner, inImage⟩
    · exact absurd (old w freeOld) newW.not_old
  · exact absurd (old w freeOld) (same ▸ new.not_old)

end Env

namespace Infer

variable {env : Env} {n m k : Nat} {expr : Expr} {found : Typing} {v : String}

theorem Run.shape_tree (run : Run env n expr found m) : found.tree.shape = expr.shape := by
  unfold Expr.shape
  induction run with
  | lit _ => rfl
  | var _ => rfl
  | func _ _ ih => simp only [Expr.mapTypes, ih]
  | call _ _ _ _ ihFn ihArg => simp only [Expr.mapTypes, ihFn, ihArg]
  | letIn _ _ ihValue ihBody => simp only [Expr.mapTypes, ihValue, ihBody]

/-- The variable was numbered by the run, and the answer does not show it. -/
def Spent (env : Env) (n m : Nat) (s : Subst) (t : Ty) (v : String) : Prop :=
  New n m v ∧ ¬ Env.Free (env.subst s) v ∧ ¬ t.occurs v = true

/-- The assigned types are a derivation of the type, after the substitution is applied. -/
structure Sound (env : Env) (n : Nat) (found : Typing) (m : Nat) : Prop where
  assigned : found.tree.type = found.type
  derives : Derives (Spent env n m found.subst found.type) (env.subst found.subst)
    (found.tree.mapTypes found.subst.apply)

/-- The types of a part are not changed by what was learned before it. -/
theorem Settled.mapTypes_of_later (settled : Settled env n found m) (safe : env.Safe n) {tree : Expr}
    (known : ∀ t ∈ tree.types, ∀ v, t.occurs v = true → Env.Known (env.subst found.subst) m k v) (s : Subst) :
    tree.mapTypes (found.subst.compose s).apply = tree.mapTypes s.apply := by
  refine Expr.mapTypes_congr fun t mem => ?_
  have fixed : found.subst.apply t = t :=
    Subst.apply_eq_self fun v inside => settled.not_binds_of_later safe (known t mem v inside)
  rw [Subst.apply_compose, fixed]

theorem sound_func {param : String} {t : Ty} (safe : env.Safe n)
    (settled : Settled (env.declare param (.var (numbered n))) (n + 1) found m)
    (inner : Sound (env.declare param (.var (numbered n))) (n + 1) found m)
    (type : t = found.subst.apply (.arrow (.var (numbered n)) found.type)) (mark : Mark) :
    Sound env n ⟨found.subst, t, .func param found.tree { mark with type := t }⟩ m := by
  refine ⟨rfl, ?_⟩
  have clear := settled.noCapture (safe.declare param)
  have spent (v : String)
      (spent : Spent (env.declare param (.var (numbered n))) (n + 1) m found.subst found.type v) :
      Spent env n m found.subst t v := by
    obtain ⟨new, absent, outside⟩ := spent
    refine ⟨new.mono (Nat.le_succ n) (Nat.le_refl m), fun free => absent ?_, fun inside => ?_⟩
    · exact Env.free_subst_of_around (fun w bound => settled.touches w (.inl bound)) clear
        (fun w freeW => (safe.free w freeW).mono (Nat.le_succ n)) new free
    · rw [type, Subst.apply_arrow, settled.settled] at inside
      rcases Ty.occurs_arrow.1 inside with inDomain | inCodomain
      · rw [Env.subst_declare] at absent
        exact absent (Env.free_extend_of_scheme (Scheme.free_mono.2 inDomain))
      · exact outside inCodomain
  -- What the body spends stays spent: the binding it hides brings nothing new into view.
  have body := inner.derives.mono spent
  rw [Env.subst_declare] at body
  refine .func (settled.completeSubst.apply (Ty.isComplete_var _)) body ?_
  dsimp only
  rw [type, settled.idempotent.apply_apply, Subst.apply_arrow, Expr.type_mapTypes_apply, inner.assigned]

section Call

variable {function argument : Typing} {s : Subst} {t : Ty}

/-- What the function part has spent is not touched again. -/
theorem not_touches_of_spent_function (second : Settled (env.subst function.subst) m argument k)
    (unified : unify (argument.subst.apply function.type) (.arrow argument.type (.var (numbered k))) = .ok s)
    (spent : Spent env n m function.subst function.type v) : ¬ argument.subst.Touches v ∧ ¬ s.Touches v := by
  obtain ⟨new, absent, outside⟩ := spent
  have later : ¬ Env.Known (env.subst function.subst) m k v := Env.not_known_later new absent
  refine ⟨fun touched => later (second.touches v touched), fun touched => ?_⟩
  rcases touches_of_unify_call unified touched with inFunction | inArgument | rfl
  · rcases Subst.occurs_apply_cases inFunction with put | ⟨inside, _⟩
    · exact later (second.mentions v put)
    · exact outside inside
  · exact later (second.type v inArgument)
  · exact Supply.not_old_numbered second.le new.old

theorem not_occurs_result (type : t = s.apply (.var (numbered k))) (new : New n k v)
    (untouched : ¬ s.Touches v) : ¬ t.occurs v = true := by
  intro inside
  rcases occurs_result type inside with put | rfl
  · exact untouched (.inr put)
  · exact Supply.not_old_numbered (Nat.le_refl k) new.old

variable (first : Settled env n function m) (second : Settled (env.subst function.subst) m argument k)
  (unified : unify (argument.subst.apply function.type) (.arrow argument.type (.var (numbered k))) = .ok s)
  (safe : env.Safe n) (type : t = s.apply (.var (numbered k)))

include first second unified safe

/-- What the argument part has spent is not touched by the unifier. -/
theorem not_touches_of_spent_argument
    (spent : Spent (env.subst function.subst) m k argument.subst argument.type v) : ¬ s.Touches v := by
  obtain ⟨new, absent, outside⟩ := spent
  intro touched
  rcases touches_of_unify_call unified touched with inFunction | inArgument | rfl
  · -- A variable of the function's type that the argument part touches is free in its environment.
    obtain ⟨w, inType, inImage⟩ := (Subst.occurs_apply _ _ _).1 inFunction
    have old : Old m w := safe.old_of_known first.le (first.type w inType)
    rcases Subst.occurs_image inImage with ⟨bound, _⟩ | ⟨same, _⟩
    · have free := (second.touches w (.inl bound)).resolve_right fun newW => newW.not_old old
      exact absent ((Env.free_subst (second.noCapture (first.safe safe))).2 ⟨w, free, inImage⟩)
    · exact new.not_old (same ▸ old)
  · exact outside inArgument
  · exact Supply.not_old_numbered (Nat.le_refl k) new.old

include type

theorem derives_function (sound : Sound env n function m) :
    Derives (Spent env n (k + 1) (function.subst.compose (argument.subst.compose s)) t)
      (env.subst (function.subst.compose (argument.subst.compose s)))
      (function.tree.mapTypes (function.subst.compose (argument.subst.compose s)).apply) := by
  have mentions (v : String) (put : (argument.subst.compose s).Mentions v) : env.Known n (k + 1) v := by
    rcases Subst.mentions_compose put with late | ⟨early, _⟩
    · exact known_of_unify_call first second unified (.inr late)
    · exact (first.known_of_later second.le (second.mentions v early)).mono (Nat.le_refl n) (Nat.le_succ k)
  have untouched (v : String) (spent : Spent env n m function.subst function.type v) :
      ¬ (argument.subst.compose s).Touches v := by
    have apart := not_touches_of_spent_function second unified spent
    exact fun touched => (Subst.touches_compose touched).elim apart.1 apart.2
  have whole : (argument.subst.compose s).IsComplete :=
    second.completeSubst.compose (isComplete_of_unify_call first second unified)
  have part := sound.derives.subst whole (safe.noCapture_subst function.subst mentions) untouched
  rw [Expr.mapTypes_apply_apply] at part
  rw [← Env.subst_subst (first.noCapture safe)]
  refine part.mono fun v spent => ⟨?_, ?_, ?_⟩
  · exact spent.1.mono (Nat.le_refl n) (Nat.le_succ_of_le second.le)
  · rw [← Env.subst_subst (first.noCapture safe)]
    exact Env.not_free_subst (untouched v spent) spent.2.1
  · exact not_occurs_result type (spent.1.mono (Nat.le_refl n) second.le)
      (not_touches_of_spent_function second unified spent).2

theorem derives_argument (sound : Sound (env.subst function.subst) m argument k) :
    Derives (Spent env n (k + 1) (function.subst.compose (argument.subst.compose s)) t)
      (env.subst (function.subst.compose (argument.subst.compose s)))
      (argument.tree.mapTypes (function.subst.compose (argument.subst.compose s)).apply) := by
  have composed : env.subst (function.subst.compose (argument.subst.compose s)) =
      Env.subst s (Env.subst argument.subst (env.subst function.subst)) := by
    rw [← Env.subst_subst (first.noCapture safe), Env.subst_subst (second.noCapture (first.safe safe))]
  have clear : Env.NoCapture s (Env.subst argument.subst (env.subst function.subst)) := by
    rw [Env.subst_subst (first.noCapture safe)]
    exact safe.noCapture_subst _ fun v put => known_of_unify_call first second unified (.inr put)
  have untouched (v : String)
      (spent : Spent (env.subst function.subst) m k argument.subst argument.type v) : ¬ s.Touches v :=
    not_touches_of_spent_argument first second unified safe spent
  have part := sound.derives.subst (isComplete_of_unify_call first second unified) clear untouched
  rw [Expr.mapTypes_apply_apply] at part
  -- The tree of the argument was made after the first substitution, which no longer concerns it.
  rw [first.mapTypes_of_later safe second.tree, composed]
  refine part.mono fun v spent => ⟨?_, ?_, ?_⟩
  · exact spent.1.mono first.le (Nat.le_succ k)
  · rw [composed]
    exact Env.not_free_subst (untouched v spent) spent.2.1
  · exact not_occurs_result type spent.1 (untouched v spent)

theorem sound_call (soundFn : Sound env n function m)
    (soundArg : Sound (env.subst function.subst) m argument k) (mark : Mark) :
    Sound env n ⟨function.subst.compose (argument.subst.compose s), t,
      .call function.tree argument.tree { mark with type := t }⟩ (k + 1) := by
  have own := (settled_call first second unified safe type mark).settled
  have fixed : function.subst.apply argument.type = argument.type :=
    Subst.apply_eq_self fun v inside => first.not_binds_of_later safe (second.type v inside)
  refine ⟨rfl, .call (derives_function first second unified safe type soundFn)
    (derives_argument first second unified safe type soundArg) ?_⟩
  -- Both parts get their final types, which the unifier has made to fit.
  dsimp only at own ⊢
  rw [own, type, Expr.type_mapTypes_apply, Expr.type_mapTypes_apply, soundFn.assigned, soundArg.assigned]
  simp only [Subst.apply_compose]
  rw [first.settled, fixed, second.settled, apply_eq_of_unify unified, Subst.apply_arrow]

end Call

section Let

variable {name : String} {definition : Typing}

/-- What the definition has spent, and what is generalized in it, is not touched by the body. -/
theorem not_touches_bodyEnv (second : Settled (bodyEnv env name definition) m found k) (new : New n m v)
    (absent : ¬ Env.Free (env.subst definition.subst) v) : ¬ found.subst.Touches v :=
  fun touched => Env.not_known_later new absent (known_of_known_bodyEnv (second.touches v touched))

variable (safe : env.Safe n) (first : Settled env n definition m)
  (second : Settled (bodyEnv env name definition) m found k)

include safe first

theorem subst_letIn : env.subst (definition.subst.compose found.subst) =
    Env.subst found.subst (env.subst definition.subst) := (Env.subst_subst (first.noCapture safe)).symm

theorem new_of_generalized {b : String}
    (bound : b ∈ (Env.generalize (env.subst definition.subst) definition.type).bound) :
    New n m b ∧ ¬ Env.Free (env.subst definition.subst) b := by
  obtain ⟨inside, absent⟩ := Env.mem_bound_generalize.1 bound
  exact ⟨(first.known_after safe inside).resolve_left absent, absent⟩

include second

theorem noCapture_letIn : Env.NoCapture found.subst (env.subst definition.subst) :=
  safe.noCapture_subst definition.subst fun v put =>
    first.known_of_later second.le (known_of_known_bodyEnv (second.mentions v put))

/-- What the definition numbers and does not leave free, the body does not show. -/
theorem spent_of_definition (new : New n m v) (absent : ¬ Env.Free (env.subst definition.subst) v) :
    Spent env n k (definition.subst.compose found.subst) found.type v := by
  refine ⟨new.mono (Nat.le_refl n) second.le, ?_, fun inside => ?_⟩
  · rw [subst_letIn safe first]
    exact Env.not_free_subst (not_touches_bodyEnv second new absent) absent
  · exact Env.not_known_later new absent (known_of_known_bodyEnv (second.type v inside))

theorem derives_definition (sound : Sound env n definition m) :
    Derives (Spent env n k (definition.subst.compose found.subst) found.type)
      (env.subst (definition.subst.compose found.subst))
      (definition.tree.mapTypes (definition.subst.compose found.subst).apply) := by
  have part := sound.derives.subst second.completeSubst (noCapture_letIn safe first second)
    fun v spent => not_touches_bodyEnv second spent.1 spent.2.1
  rw [Expr.mapTypes_apply_apply] at part
  rw [subst_letIn safe first]
  exact part.mono fun v spent => spent_of_definition safe first second spent.1 spent.2.1

theorem derives_body (sound : Sound (bodyEnv env name definition) m found k) :
    Derives (Spent env n k (definition.subst.compose found.subst) found.type)
      (Env.extend (env.subst (definition.subst.compose found.subst)) name
        ((Env.generalize (env.subst definition.subst) definition.type).subst found.subst))
      (found.tree.mapTypes (definition.subst.compose found.subst).apply) := by
  have known (t : Ty) (mem : t ∈ found.tree.types) (v : String) (inside : t.occurs v = true) :
      Env.Known (env.subst definition.subst) m k v := known_of_known_bodyEnv (second.tree t mem v inside)
  rw [first.mapTypes_of_later safe known, subst_letIn safe first, ← Env.subst_extend]
  refine sound.derives.mono fun v spent => ⟨spent.1.mono first.le (Nat.le_refl k), ?_, spent.2.2⟩
  rw [subst_letIn safe first]
  exact fun free => spent.2.1 (Env.free_subst_of_around (fun w bound => second.touches w (.inl bound))
    (second.noCapture (first.safe_bodyEnv safe name)) (first.safe safe).free spent.1 free)

theorem sound_letIn (soundValue : Sound env n definition m)
    (soundBody : Sound (bodyEnv env name definition) m found k) (pos : Position) :
    Sound env n ⟨definition.subst.compose found.subst, found.type,
      .letIn name definition.tree found.tree pos⟩ k := by
  -- The scheme was made before the body was looked at, and goes through what the body learns.
  have general := (Env.generalizes_generalize (env.subst definition.subst) definition.type).subst
    (noCapture_letIn safe first second) fun b bound =>
      not_touches_bodyEnv second (new_of_generalized safe first bound).1 (new_of_generalized safe first bound).2
  refine ⟨soundBody.assigned, .letIn (derives_definition safe first second soundValue) ?_ (fun b bound => ?_)
    (derives_body safe first second soundBody)⟩
  · rw [Expr.type_mapTypes_apply, soundValue.assigned, Subst.apply_compose, first.settled,
      subst_letIn safe first]
    exact general
  · obtain ⟨new, absent⟩ := new_of_generalized safe first bound
    exact spent_of_definition safe first second new absent

end Let

/-- The types that a run in a safe environment assigns form a derivation. -/
theorem Run.sound (run : Run env n expr found m) (safe : env.Safe n) : Sound env n found m := by
  induction run with
  | lit base =>
    refine ⟨rfl, .lit ?_⟩
    dsimp only
    rw [Subst.apply_empty, base]
  | @var env n name mark scheme lookup =>
    have run : Run env n (.var name mark) _ _ := .var lookup
    have whole := (run.settled safe).completeType
    refine ⟨rfl, ?_⟩
    dsimp only [Expr.mapTypes]
    rw [Env.subst_empty]
    refine .var lookup ?_ ?_
    · dsimp only
      rw [Subst.apply_empty]
      exact ⟨_, fun v free => Supply.image_renewal_of_not_mem free.2, rfl⟩
    · dsimp only
      rw [Subst.apply_empty]
      exact whole
  | @func env n m param body mark found t runBody type ih =>
    have safeBody := safe.declare param
    exact sound_func safe (runBody.settled safeBody) (ih safeBody) type mark
  | @call env n m k fn arg mark function argument s t runFn runArg unified type ihFn ihArg =>
    have first := runFn.settled safe
    have safeArg := first.safe safe
    exact sound_call first (runArg.settled safeArg) unified safe type (ihFn safe) (ihArg safeArg) mark
  | @letIn env n m k name value body pos definition found runValue runBody ihValue ihBody =>
    have first := runValue.settled safe
    have safeBody := first.safe_bodyEnv safe name
    exact sound_letIn safe first (runBody.settled safeBody) (ihValue safe) (ihBody safeBody) pos

theorem Run.hasType (run : Run env n expr found m) (safe : env.Safe n) :
    HasType (env.subst found.subst) expr found.type := by
  have sound := run.sound safe
  have typed := sound.derives.hasType
  rw [Expr.type_mapTypes_apply, sound.assigned, (run.settled safe).settled] at typed
  exact typed.of_shape ((Expr.shape_mapTypes _ _).trans run.shape_tree)

/-- Every environment of closed schemes is safe, and in a safe environment inference is sound: a type
that it finds is a type of the expression in the environment refined by the substitution it found. -/
theorem typing_hasType (env : Env) (n : Nat) :
    (env.IsComplete → env.IsClosed → env.Safe n) ∧
    ∀ (expr : Expr) (events : List Event) (found : Typing) (after : Progress),
      env.Safe n → Fits env n events expr →
      (typing env expr).run.run ⟨.starting n, events⟩ = (.ok found, after) →
      HasType (env.subst found.subst) expr found.type := by
  refine ⟨fun whole closed => Env.safe_of_isClosed whole closed n, ?_⟩
  intro expr events found after safe fits went
  obtain ⟨m, run, _, _⟩ := run_of_typing fits went
  exact run.hasType safe

/-- The definition is generalized over the variable of its parameter alone, and what the body learns
about the free variables refines the environment. -/
theorem typing_hasType_opened :
    ∃ found after,
      (typing Env.opened Expr.mixed).run.run ⟨.starting 0, []⟩ = (.ok found, after) ∧
      found.type = .var "t5" ∧ found.subst.image "a" = .arrow (.var "t4") (.var "t5") ∧
      HasType (Env.opened.subst found.subst) Expr.mixed found.type := by
  have computed : ((typing Env.opened Expr.mixed).run.run ⟨.starting 0, []⟩).1.toOption.map
      (fun found => (found.type, found.subst.image "a")) =
        some (.var "t5", .arrow (.var "t4") (.var "t5")) := by cbv
  rcases went : (typing Env.opened Expr.mixed).run.run ⟨.starting 0, []⟩ with ⟨outcome, after⟩
  rw [went] at computed
  cases outcome with
  | error stop => cases computed
  | ok found =>
    obtain ⟨type, image⟩ := Prod.mk.inj (Option.some.inj computed)
    exact ⟨found, after, rfl, type, image,
      (typing_hasType Env.opened 0).2 Expr.mixed [] found after (Env.safe_opened 0) fits_mixed went⟩

end Infer

end HindleyMilner
