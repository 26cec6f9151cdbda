import HindleyMilner.Proofs.Printing

/-! What a log changes.

A log shows the types that inference meets. So the outcome under two configurations is the same, except
that a function type without exactly two arguments stops the run where debug records are logged. -/

set_option autoImplicit false

namespace HindleyMilner

namespace Answer

variable {α β : Type} {answer : Answer α} {config first second : Log.Config}

/-- What is left of an answer without its log: the outcome and the session after it, or nothing if a
fault stopped the request. -/
def seen (config : Log.Config) (answer : Answer α) : Option (Except Halt α × Session) :=
  (answer.logged config).toOption.map fun result => (result.1, answer.session)

def MeetsFault (answer : Answer α) : Prop := ∃ reason, answer.outcome = .error (.fault reason)

def ShowsPrintable (answer : Answer α) : Prop := ∀ event ∈ answer.events, ∀ t ∈ event.shown, t.IsPrintable

/-- A fault stops the request, in inference or in writing the log. -/
def IsStopped (config : Log.Config) (answer : Answer α) : Prop :=
  answer.MeetsFault ∨ config.enables Log.Level.debug = true ∧ ¬ answer.ShowsPrintable

theorem exists_log_iff : (∃ log, Event.log config answer.events = .ok log) ↔
    (config.enables Log.Level.debug = true → answer.ShowsPrintable) := by
  cases debug : config.enables Log.Level.debug with
  | false => exact ⟨nofun, fun _ => Event.exists_log_of_silent debug _⟩
  | true => exact (Event.exists_log_iff debug _).trans ⟨fun printable _ => printable, fun printable => printable rfl⟩

theorem exists_logged_iff : (∃ log, answer.logged config = .ok (answer.outcome, log)) ↔ ¬ answer.IsStopped config := by
  unfold IsStopped MeetsFault
  simp only [logged_eq_ok_iff, true_and, exists_and_right, exists_log_iff, not_or, not_exists, not_and, not_not]
  exact and_comm

theorem seen_of_not_stopped (runs : ¬ answer.IsStopped config) :
    answer.seen config = some (answer.outcome, answer.session) := by
  obtain ⟨log, logged⟩ := exists_logged_iff.2 runs
  unfold seen
  rw [logged]
  rfl

theorem seen_of_stopped (stopped : answer.IsStopped config) : answer.seen config = none := by
  unfold seen
  rcases logged : answer.logged config with fault | ⟨outcome, log⟩
  · rfl
  · obtain ⟨_, rfl, _⟩ := logged_eq_ok_iff.1 logged
    exact absurd stopped (exists_logged_iff.1 ⟨log, logged⟩)

theorem seen_eq_seen_iff :
    answer.seen first = answer.seen second ↔ (answer.IsStopped first ↔ answer.IsStopped second) := by
  by_cases stopsFirst : answer.IsStopped first <;> by_cases stopsSecond : answer.IsStopped second <;>
    simp [seen_of_stopped, seen_of_not_stopped, stopsFirst, stopsSecond]

theorem isStopped_map {f : α → β} : (answer.map f).IsStopped config ↔ answer.IsStopped config := by
  unfold IsStopped MeetsFault
  simp only [map_eq_error]
  exact Iff.rfl

theorem isStopped_iff_isStopped : (answer.IsStopped first ↔ answer.IsStopped second) ↔
    first.enables Log.Level.debug = second.enables Log.Level.debug ∨ answer.MeetsFault ∨ answer.ShowsPrintable := by
  unfold IsStopped
  by_cases faulty : answer.MeetsFault
  · simp [faulty]
  · by_cases printable : answer.ShowsPrintable
    · simp [printable]
    · cases first.enables Log.Level.debug <;> cases second.enables Log.Level.debug <;> simp [faulty, printable]

end Answer

namespace Session

open Answer

variable {session : Session} {env : Env} {expr : Expr} {first second : Log.Config}

def Each (session : Session) (env : Env) (expr : Expr) (P : ∀ {α : Type}, Answer α → Prop) : Prop :=
  P (session.infer env expr) ∧ P (session.inferScheme env expr) ∧ P (session.annotate env expr)

/-- Each request gives the same outcome and leaves the same session under both configurations, or a fault
stops it under both. -/
def LogsAlike (session : Session) (env : Env) (expr : Expr) (first second : Log.Config) : Prop :=
  session.Each env expr fun answer => answer.seen first = answer.seen second

variable {config : Log.Config}

theorem isStopped_inferScheme : (session.inferScheme env expr).IsStopped config ↔ (session.infer env expr).IsStopped config :=
  isStopped_map

theorem isStopped_annotate : (session.annotate env expr).IsStopped config ↔ (session.infer env expr).IsStopped config := by
  obtain ⟨outcome, _, events⟩ := session.request_node Spot.annotated Spot.given env expr
  refine isStopped_map.trans ?_
  unfold IsStopped MeetsFault ShowsPrintable infer
  rw [outcome, events]

theorem logsAlike_iff_stopped : LogsAlike session env expr first second ↔
    ((session.infer env expr).IsStopped first ↔ (session.infer env expr).IsStopped second) := by
  unfold LogsAlike Each
  simp only [seen_eq_seen_iff, isStopped_inferScheme, isStopped_annotate, and_self]

theorem each_seen (stopped : (session.infer env expr).IsStopped first)
    (runs : ¬ (session.infer env expr).IsStopped second) :
    session.Each env expr fun answer =>
      answer.seen first = none ∧ answer.seen second = some (answer.outcome, answer.session) := by
  refine ⟨⟨seen_of_stopped stopped, seen_of_not_stopped runs⟩, ?_, ?_⟩
  · exact ⟨seen_of_stopped (isStopped_inferScheme.2 stopped), seen_of_not_stopped (mt isStopped_inferScheme.1 runs)⟩
  · exact ⟨seen_of_stopped (isStopped_annotate.2 stopped), seen_of_not_stopped (mt isStopped_annotate.1 runs)⟩

theorem showsPrintable_infer (within : env.Within .functions)
    (idle : session.supply.chosen = ∅) (expr : Expr) : (session.infer env expr).ShowsPrintable := by
  have answers := within_answer_infer Signature.basic_functions (fun _ => trivial) within idle expr
  exact answers.isPrintable_shown Signature.arrows_functions

/-- Only whether debug records are logged matters, and it matters only if inference itself meets no fault
but some type that a log would show cannot be printed: then the requests stop where debug records are
logged. This does not happen if the environment gives function types two arguments. -/
theorem logsAlike_iff_printable (session : Session) (env : Env) (expr : Expr) (first second : Log.Config) :
    (LogsAlike session env expr first second ↔
      first.enables Log.Level.debug = second.enables Log.Level.debug ∨
      (session.infer env expr).MeetsFault ∨ (session.infer env expr).ShowsPrintable) ∧
    (¬ LogsAlike session env expr first second → first.enables Log.Level.debug = true →
      session.Each env expr fun answer =>
        answer.seen first = none ∧ answer.seen second = some (answer.outcome, answer.session)) ∧
    (session.supply.chosen = ∅ → env.Within .functions → LogsAlike session env expr first second) := by
  have alike : LogsAlike session env expr first second ↔ first.enables Log.Level.debug = second.enables Log.Level.debug ∨
      (session.infer env expr).MeetsFault ∨ (session.infer env expr).ShowsPrintable :=
    logsAlike_iff_stopped.trans isStopped_iff_isStopped
  refine ⟨alike, fun different debug => ?_, fun idle within => alike.2 (.inr (.inr (showsPrintable_infer within idle expr)))⟩
  obtain ⟨silent, faultless, unprintable⟩ : _ ∧ _ ∧ _ := by simpa only [not_or] using mt alike.2 different
  rw [debug] at silent
  refine each_seen (.inr ⟨debug, unprintable⟩) fun stopped => ?_
  rcases stopped with faulty | ⟨debugSecond, _⟩
  · exact faultless faulty
  · exact silent debugSecond.symm

/-- A log of debug records shows the application that fails and the failure; the outcome is the same
without it. -/
theorem logsAlike_iff_printable_application :
    let env : Env := Env.declare ∅ "inc" (.arrow .int .int)
    let expr : Expr := .call (.var "inc" {}) (.lit .bool "true" {}) {}
    (infer {} env expr).events.length = 2 ∧ LogsAlike {} env expr {} { level := Log.Level.debug } := by
  intro env expr
  have within : env.Within .functions := Env.Within.extend (fun name scheme found => by cases found) <|
    Ty.Within.arrow Signature.basic_functions (Ty.within_app.2 ⟨by decide, nofun⟩) (Ty.within_app.2 ⟨by decide, nofun⟩)
  exact ⟨by cbv, (logsAlike_iff_printable {} env expr {} _).2.2 rfl within⟩

/-- A function type with one argument in the environment is no obstacle to inference, but it stops a run
that logs debug records, even if no section is enabled. -/
theorem not_logsAlike_malformed :
    let env : Env := Env.declare ∅ "y" (.app Ty.arrowName [.int])
    let expr : Expr := .letIn "f" (.var "y" {}) (.lit .int "1" {}) {}
    ¬ LogsAlike {} env expr {} { level := Log.Level.debug, sections := [] } := by
  intro env expr alike
  have silent : ((infer {} env expr).seen {}).isSome = true := by cbv
  have logged : ((infer {} env expr).seen { level := Log.Level.debug, sections := [] }).isSome = false := by cbv
  have same := congrArg Option.isSome alike.1
  rw [silent, logged] at same
  cases same

end Session

end HindleyMilner
