import HindleyMilner.Proofs.Reports
import HindleyMilner.Session

/-! Which texts can be made.

Only a function type without exactly two arguments has no text. So a text that is put together from
types can be made exactly if all of these can be printed, and what keeps to a signature that gives
function types two arguments can be printed. -/

set_option autoImplicit false

namespace HindleyMilner

section Faults

variable {α β : Type} {step : Except Fault α}

theorem pure_eq_ok {value other : α} : (pure value : Except Fault α) = .ok other ↔ value = other :=
  ⟨Except.ok.inj, congrArg Except.ok⟩

theorem exists_ok_bind {next : α → Except Fault β} :
    (∃ value, (step >>= next) = .ok value) ↔ ∃ first, step = .ok first ∧ ∃ value, next first = .ok value := by
  cases step with
  | error fault => exact ⟨nofun, nofun⟩
  | ok first => exact ⟨fun found => ⟨first, rfl, found⟩, fun ⟨_, same, found⟩ => Except.ok.inj same ▸ found⟩

theorem exists_ok_map {f : α → β} : (∃ value, (do return f (← step)) = Except.ok value) ↔ ∃ first, step = .ok first := by
  rw [exists_ok_bind]
  exact exists_congr fun first => and_iff_left ⟨f first, rfl⟩

theorem exists_ok_mapM {f : α → Except Fault β} {items : List α} :
    (∃ values, items.mapM f = .ok values) ↔ ∀ item ∈ items, ∃ value, f item = .ok value := by
  induction items with
  | nil => exact ⟨fun _ => List.forall_mem_nil _, fun _ => ⟨[], rfl⟩⟩
  | cons item items ih =>
    rw [List.mapM_cons, exists_ok_bind, List.forall_mem_cons, ← ih]
    simp only [exists_ok_map, exists_and_right]

end Faults

namespace Ty

def IsPrintable (t : Ty) : Prop := ∃ text, t.render = .ok text

variable {sig : Signature}

theorem exists_renderArgs_of_renderAt {args : List Ty} (prints : ∀ t ∈ args, ∀ place, ∃ text, renderAt place t = .ok text) :
    ∃ text, renderArgs args = .ok text := by
  induction args with
  | nil => exact ⟨"", by rw [renderArgs]⟩
  | cons t args ih =>
    obtain ⟨first, others⟩ := List.forall_mem_cons.1 prints
    rw [renderArgs, exists_ok_bind]
    obtain ⟨text, rendered⟩ := first .argument
    exact ⟨text, rendered, exists_ok_map.2 (ih others)⟩

theorem Within.exists_renderAt {t : Ty} (within : t.Within sig) (arrows : ∀ count, sig.app arrowName count → count = 2) :
    ∀ place, ∃ text, renderAt place t = .ok text := by
  induction t using argsInduction with
  | absent => exact absurd within not_within_absent
  | var name => exact fun place => ⟨name, by rw [renderAt]⟩
  | app con args ih =>
    obtain ⟨applied, withinArgs⟩ := within_app.1 within
    have prints (t : Ty) (mem : t ∈ args) := ih t mem (withinArgs t mem)
    intro place
    by_cases isArrow : con = arrowName
    · subst isArrow
      obtain ⟨domain, codomain, rfl⟩ := List.length_eq_two.1 (arrows _ applied)
      rw [renderAt, if_pos rfl, exists_ok_bind]
      obtain ⟨left, rendered⟩ := prints domain (by simp) .domain
      exact ⟨left, rendered, exists_ok_map.2 (prints codomain (by simp) .top)⟩
    · unfold renderAt
      rw [if_neg isArrow]
      split
      · exact ⟨con, rfl⟩
      · exact exists_ok_map.2 (exists_renderArgs_of_renderAt prints)

theorem Within.isPrintable {t : Ty} (within : t.Within sig) (arrows : ∀ count, sig.app arrowName count → count = 2) :
    t.IsPrintable := within.exists_renderAt arrows .top

end Ty

theorem Scheme.exists_render_iff {scheme : Scheme} : (∃ text, scheme.render = .ok text) ↔ scheme.type.IsPrintable :=
  exists_ok_map

theorem Subst.exists_render_iff {s : Subst} :
    (∃ text, s.render = .ok text) ↔ ∀ t ∈ s.entries.map Prod.snd, t.IsPrintable := by
  unfold render
  rw [exists_ok_map, exists_ok_mapM, List.forall_mem_map]
  exact forall₂_congr fun entry _ => exists_ok_map

theorem Mismatch.exists_message_iff {reason : Mismatch} :
    (∃ text, reason.message = .ok text) ↔ ∀ t ∈ reason.shown, t.IsPrintable := by
  cases reason with
  | infinite name t =>
    rw [shown, List.forall_mem_singleton]
    exact exists_ok_map
  | constructors first second => exact ⟨fun _ => List.forall_mem_nil _, fun _ => ⟨_, rfl⟩⟩
  | arity first second => exact ⟨fun _ => List.forall_mem_nil _, fun _ => ⟨_, rfl⟩⟩

theorem Env.exists_render_iff {env : Env} :
    (∃ text, env.render = .ok text) ↔ ∀ entry ∈ env.entries, entry.2.type.IsPrintable := by
  unfold render
  rw [exists_ok_map, exists_ok_mapM]
  exact forall₂_congr fun entry _ => exists_ok_map.trans Scheme.exists_render_iff

namespace Error

variable {error : Error}

theorem exists_message_iff : (∃ text, error.message = .ok text) ↔ ∀ t ∈ error.shown, t.IsPrintable := by
  induction error with
  | mismatch reason => exact Mismatch.exists_message_iff
  | within context cause ih => exact exists_ok_map.trans ih
  | malformed error => exact ⟨fun _ => List.forall_mem_nil _, fun _ => ⟨_, rfl⟩⟩
  | undefined name pos => exact ⟨fun _ => List.forall_mem_nil _, fun _ => ⟨_, rfl⟩⟩
  | plain text => exact ⟨fun _ => List.forall_mem_nil _, fun _ => ⟨_, rfl⟩⟩

theorem exists_report_iff : (∃ text, error.report = .ok text) ↔ ∀ t ∈ error.shown, t.IsPrintable :=
  exists_ok_map.trans exists_message_iff

theorem exists_logText_iff : (∃ text, error.logText = .ok text) ↔ ∀ t ∈ error.shown, t.IsPrintable := by
  induction error with
  | mismatch reason => exact exists_message_iff
  | within context cause ih => exact exists_ok_map.trans ih
  | malformed error => exact exists_message_iff
  | undefined name pos => exact exists_message_iff
  | plain text => exact exists_message_iff

end Error

namespace Event

variable {config : Log.Config}

/-- What a log shows of an event is made as soon as debug records are logged at all. -/
theorem exists_line_iff (debug : config.enables Log.Level.debug = true) (event : Event) :
    (∃ text, event.line config = .ok text) ↔ ∀ t ∈ event.shown, t.IsPrintable := by
  unfold line
  rw [if_pos debug]
  cases event with
  | generalized name scheme =>
    rw [shown, List.forall_mem_singleton, ← Scheme.exists_render_iff]
    exact exists_ok_map
  | failed expr error =>
    rw [shown, ← Error.exists_logText_iff]
    exact exists_ok_map
  | unified first second outcome =>
    cases outcome with
    | ok s =>
      rw [shown, List.forall_mem_cons, List.forall_mem_cons]
      simp only [exists_ok_bind, pure_eq_ok, exists_eq', and_true, exists_and_right]
      exact and_congr_right fun _ => and_congr_right fun _ => Subst.exists_render_iff
    | error reason =>
      rw [shown, List.forall_mem_cons, List.forall_mem_cons]
      simp only [exists_ok_bind, pure_eq_ok, exists_eq', and_true, exists_and_right]
      exact and_congr_right fun _ => and_congr_right fun _ => Mismatch.exists_message_iff

theorem line_of_silent (silent : config.enables Log.Level.debug = false) (event : Event) : event.line config = .ok "" := by
  unfold line
  rw [silent]
  rfl

theorem exists_log_iff (debug : config.enables Log.Level.debug = true) (events : List Event) :
    (∃ text, log config events = .ok text) ↔ ∀ event ∈ events, ∀ t ∈ event.shown, t.IsPrintable := by
  unfold log
  rw [exists_ok_map, exists_ok_mapM]
  exact forall₂_congr fun event _ => exists_line_iff debug event

theorem exists_log_of_silent (silent : config.enables Log.Level.debug = false) (events : List Event) :
    ∃ text, log config events = .ok text := by
  unfold log
  rw [exists_ok_map, exists_ok_mapM]
  exact fun event _ => ⟨"", line_of_silent silent event⟩

end Event

namespace Answer

variable {α : Type} {config : Log.Config} {answer : Answer α}

/-- An answer comes with its log if the texts in the log can be made and no fault came before. -/
theorem logged_eq_ok_iff {outcome : Except Halt α} {log : String} : answer.logged config = .ok (outcome, log) ↔
    Event.log config answer.events = .ok log ∧ answer.outcome = outcome ∧ ∀ reason, outcome ≠ .error (.fault reason) := by
  unfold logged
  cases Event.log config answer.events with
  | error fault => exact ⟨nofun, nofun⟩
  | ok written =>
    rcases answer.outcome with ((error | reason) | value)
    · constructor
      · rintro ⟨⟩
        exact ⟨rfl, rfl, nofun⟩
      · rintro ⟨⟨⟩, rfl, _⟩
        rfl
    · exact ⟨nofun, fun ⟨_, same, noFault⟩ => absurd same.symm (noFault reason)⟩
    · constructor
      · rintro ⟨⟩
        exact ⟨rfl, rfl, nofun⟩
      · rintro ⟨⟨⟩, rfl, _⟩
        rfl

end Answer

section Bounded

variable {α : Type} {sig : Signature} (arrows : ∀ count, sig.app Ty.arrowName count → count = 2)

include arrows

theorem Error.Arises.isPrintable_shown {error : Error} (arises : error.Arises sig) : ∀ t ∈ error.shown, t.IsPrintable :=
  fun t mem => (arises.within t (error.shown_subset mem)).isPrintable arrows

namespace Answer

variable {answer : Answer α} {types : α → List Ty}

theorem Within.isPrintable_shown (within : answer.Within sig types) :
    ∀ event ∈ answer.events, ∀ t ∈ event.shown, t.IsPrintable :=
  fun event mem t inEvent => (within.events event mem t inEvent).isPrintable arrows

theorem Within.exists_logged (within : answer.Within sig types)
    (faultless : ∀ reason, answer.outcome ≠ .error (.fault reason)) (config : Log.Config) :
    ∃ log, answer.logged config = .ok (answer.outcome, log) := by
  have written : ∃ log, Event.log config answer.events = .ok log := by
    cases debug : config.enables Log.Level.debug with
    | true => exact (Event.exists_log_iff debug _).2 (within.isPrintable_shown arrows)
    | false => exact Event.exists_log_of_silent debug _
  obtain ⟨log, written⟩ := written
  exact ⟨log, logged_eq_ok_iff.2 ⟨written, rfl, faultless⟩⟩

end Answer

end Bounded

def Signature.functions : Signature := ⟨fun _ => True, fun con count => con = Ty.arrowName → count = 2⟩

instance (con : String) (count : Nat) : Decidable (Signature.functions.app con count) :=
  inferInstanceAs (Decidable (con = Ty.arrowName → count = 2))

theorem Signature.basic_functions : functions.Basic := ⟨fun _ => rfl, by decide, by decide⟩

theorem Signature.arrows_functions : ∀ count, functions.app Ty.arrowName count → count = 2 := fun _ applied => applied rfl

end HindleyMilner
