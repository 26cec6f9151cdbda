import HindleyMilner.Proofs.Printing

/-! Which mismatches can be reported.

The text of an infinite type shows the type in full, and that of every other mismatch gets by without.
So a mismatch has no text exactly if a type would have to contain itself that has a function type in it
without exactly two arguments. -/

set_option autoImplicit false

namespace HindleyMilner

namespace Ty

variable {t : Ty} {args : List Ty} {place : Place} {text : String}

theorem exists_renderAt_of_renderArgs (rendered : renderArgs args = .ok text) :
    ∀ t ∈ args, ∃ text, renderAt .argument t = .ok text := by
  induction args generalizing text with
  | nil => exact List.forall_mem_nil _
  | cons t rest ih =>
    have made : ∃ text, renderArgs (t :: rest) = .ok text := ⟨text, rendered⟩
    rw [renderArgs, exists_ok_bind] at made
    obtain ⟨first, renderedFirst, made⟩ := made
    obtain ⟨others, renderedRest⟩ := exists_ok_map.1 made
    exact List.forall_mem_cons.2 ⟨⟨first, renderedFirst⟩, ih renderedRest⟩

theorem within_functions_of_renderAt (whole : t.isComplete = true) (rendered : renderAt place t = .ok text) :
    t.Within .functions := by
  induction t using argsInduction generalizing place text with
  | absent => exact absurd whole not_isComplete_absent
  | var name => exact within_var.2 trivial
  | app con args ih =>
    rw [isComplete_app] at whole
    rw [within_app]
    have made : ∃ text, renderAt place (.app con args) = .ok text := ⟨text, rendered⟩
    unfold renderAt at made
    by_cases isArrow : con = arrowName
    · -- An arrow stands between two arguments. There is no text for it with more or fewer.
      rw [if_pos isArrow] at made
      split at made
      · rename_i domain codomain
        rw [exists_ok_bind] at made
        obtain ⟨left, renderedDomain, made⟩ := made
        obtain ⟨right, renderedCodomain⟩ := exists_ok_map.1 made
        have withinDomain := ih domain (by simp) (whole domain (by simp)) renderedDomain
        have withinCodomain := ih codomain (by simp) (whole codomain (by simp)) renderedCodomain
        exact ⟨fun _ => rfl, by simp [withinDomain, withinCodomain]⟩
      · obtain ⟨_, failed⟩ := made
        cases failed
    · rw [if_neg isArrow] at made
      refine ⟨fun same => absurd same isArrow, fun t mem => ?_⟩
      split at made
      · exact absurd mem List.not_mem_nil
      · obtain ⟨_, renderedArgs⟩ := exists_ok_map.1 made
        obtain ⟨_, renderedArg⟩ := exists_renderAt_of_renderArgs renderedArgs t mem
        exact ih t mem (whole t mem) renderedArg

/-- A type without absent parts can be printed exactly if every function type in it has two arguments. -/
theorem isPrintable_iff (whole : t.isComplete = true) : t.IsPrintable ↔ t.Within .functions :=
  ⟨fun ⟨_, rendered⟩ => within_functions_of_renderAt whole rendered,
    fun within => within.isPrintable Signature.arrows_functions⟩

end Ty

namespace Mismatch

variable {reason : Mismatch}

/-- If a type would have to contain itself, all function types in it have two arguments. -/
def IsReportable (reason : Mismatch) : Prop := ∀ name t, reason = .infinite name t → t.Within .functions

theorem isReportable_iff (whole : ∀ t ∈ reason.types, t.isComplete = true) :
    reason.IsReportable ↔ ∀ t ∈ reason.shown, t.IsPrintable := by
  unfold IsReportable
  cases reason with
  | infinite name t =>
    rw [shown, List.forall_mem_singleton, Ty.isPrintable_iff (whole t (by simp [types]))]
    constructor
    · exact fun reportable => reportable name t rfl
    · rintro within _ _ ⟨⟩
      exact within
  | constructors first second => simp [shown]
  | arity first second => simp [shown]

end Mismatch

namespace Error

/-- The error while the things were being done that the contexts say, the first one around all others. -/
def inContexts (contexts : List String) (error : Error) : Error := contexts.foldr within error

theorem shown_inContexts (contexts : List String) (error : Error) : (inContexts contexts error).shown = error.shown := by
  induction contexts with
  | nil => rfl
  | cons context rest ih => exact ih

theorem exists_formatted_iff {error : Error} : (∃ text, error.formatted = .ok text) ↔ ∀ t ∈ error.shown, t.IsPrintable :=
  exists_ok_map.trans exists_message_iff

end Error

section
variable {a b : Ty} {impasse : Impasse} {reason : Mismatch}

theorem isComplete_of_unify_eq_error (wholeA : a.isComplete = true) (wholeB : b.isComplete = true)
    (failed : unify a b = .error impasse) : ∃ reason, impasse = .mismatch reason ∧ ∀ t ∈ reason.types, t.isComplete = true := by
  obtain ⟨reason, same, arises⟩ := arises_of_unify failed (Ty.within_any wholeA) (Ty.within_any wholeB)
  exact ⟨reason, same, fun t mem => (arises.within t mem).isComplete⟩

theorem isReportable_of_within (withinA : a.Within .functions) (withinB : b.Within .functions)
    (failed : unify a b = .error (.mismatch reason)) : reason.IsReportable := by
  obtain ⟨_, ⟨⟩, arises⟩ := arises_of_unify failed withinA withinB
  rintro name t rfl
  exact arises.within t (by simp [Mismatch.types])

end

/-- A failure to unify types is reported, with its code and in whatever contexts, exactly if it has a text of its
own. It has one unless a type would have to contain itself and a function type in it does not have two arguments,
which is not the case if all function types in the two types have two arguments. -/
theorem unify_reportable_iff (a b : Ty) (wholeA : a.isComplete = true) (wholeB : b.isComplete = true) (impasse : Impasse)
    (failed : unify a b = .error impasse) : ∃ reason, impasse = .mismatch reason ∧
    ((∃ text, reason.message = .ok text) ↔ reason.IsReportable) ∧
    (∀ contexts, (∃ text, (Error.inContexts contexts (.mismatch reason)).message = .ok text) ↔ reason.IsReportable) ∧
    (∀ contexts, (∃ text, (Error.inContexts contexts (.mismatch reason)).formatted = .ok text) ↔ reason.IsReportable) ∧
    (a.Within .functions → b.Within .functions → reason.IsReportable) := by
  obtain ⟨reason, rfl, whole⟩ := isComplete_of_unify_eq_error wholeA wholeB failed
  refine ⟨reason, rfl, ?_, fun contexts => ?_, fun contexts => ?_,
    fun withinA withinB => isReportable_of_within withinA withinB failed⟩
  · rw [Mismatch.exists_message_iff, Mismatch.isReportable_iff whole]
  · rw [Error.exists_message_iff, Error.shown_inContexts, Mismatch.isReportable_iff whole]
    rfl
  · rw [Error.exists_formatted_iff, Error.shown_inContexts, Mismatch.isReportable_iff whole]
    rfl

/-- A function type without a codomain can be told from one with two arguments in a report, but a variable that
would have to stand for a function type of itself cannot be reported in any context. -/
theorem unify_reportable_iff_malformed :
    let malformed (t : Ty) : Ty := .app Ty.arrowName [t]
    unify (malformed .int) (.arrow .int .int) = .error (.mismatch (.arity (malformed .int) (.arrow .int .int))) ∧
    (∃ text, (Error.inContexts ["f"] (.mismatch (.arity (malformed .int) (.arrow .int .int)))).formatted = .ok text) ∧
    unify (.app "F" [.var "a", .var "b"]) (.app "F" [malformed (.var "b"), .var "a"]) =
      .error (.mismatch (.infinite "b" (malformed (.var "b")))) ∧
    ¬ ∃ text, (Error.inContexts ["f"] (.mismatch (.infinite "b" (malformed (.var "b"))))).formatted = .ok text := by
  intro malformed
  have arity : unify (malformed .int) (.arrow .int .int) =
      .error (.mismatch (.arity (malformed .int) (.arrow .int .int))) := by cbv
  have infinite : unify (.app "F" [.var "a", .var "b"]) (.app "F" [malformed (.var "b"), .var "a"]) =
      .error (.mismatch (.infinite "b" (malformed (.var "b")))) := by cbv
  obtain ⟨_, ⟨⟩, _, _, formatted, _⟩ := unify_reportable_iff _ _ (by decide) (by decide) _ arity
  obtain ⟨_, ⟨⟩, _, _, unformatted, _⟩ := unify_reportable_iff _ _ (by decide) (by decide) _ infinite
  have reportable : (Mismatch.arity (malformed .int) (.arrow .int .int)).IsReportable := by
    rintro _ _ ⟨⟩
  refine ⟨arity, (formatted ["f"]).2 reportable, infinite, fun found => ?_⟩
  have within : (malformed (.var "b")).Within .functions := (unformatted ["f"]).1 found _ _ rfl
  have two : 1 = 2 := (Ty.within_app.1 within).1 rfl
  cases two

/-- The report of a variable that would have to stand for a function type of itself stops the program. -/
theorem not_reportable_malformed :
    ¬ ∀ a b : Ty, a.isComplete = true → b.isComplete = true → ∀ reason, unify a b = .error (.mismatch reason) →
      (∃ text, reason.message = .ok text) ∧
        ∀ contexts, ∃ text, (Error.inContexts contexts (.mismatch reason)).formatted = .ok text := by
  intro reports
  have failed : unify (.var "a") (.app Ty.arrowName [.var "a"]) =
      .error (.mismatch (.infinite "a" (.app Ty.arrowName [.var "a"]))) := by cbv
  obtain ⟨⟨text, reported⟩, _⟩ := reports _ _ (by decide) (by decide) _ failed
  have stopped : (Mismatch.infinite "a" (.app Ty.arrowName [.var "a"])).message = .error (.malformedArrow 1) := by cbv
  rw [stopped] at reported
  cases reported

end HindleyMilner
