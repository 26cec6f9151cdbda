import HindleyMilner.Command
import HindleyMilner.Proofs.Preludes
import HindleyMilner.Proofs.PrintedExpressions
import HindleyMilner.Proofs.Printing

/-! Lines that are answered one after the other.

Under an accepted prelude every line is answered. An expression leaves variables taken and perhaps a
failure behind, but after the answer the session is as it was at the start. So the answers to many lines
are those to each line alone, and a line that is an expression is answered as the command for one
expression answers it. -/

set_option autoImplicit false

namespace HindleyMilner

theorem Expr.IsWritable.isProper {expr : Expr} (writable : expr.IsWritable) : expr.isProper = true := by
  induction expr with
  | absent => exact writable.elim
  | lit kind text mark =>
    cases kind with
    | unknown code => exact writable.elim
    | _ => rfl
  | var name mark => rfl
  | call fn arg mark ihFn ihArg => exact Bool.and_eq_true_iff.2 ⟨ihFn writable.1, ihArg writable.2⟩
  | func param body mark ih => exact ih writable.2
  | letIn name value body pos ihValue ihBody => exact Bool.and_eq_true_iff.2 ⟨ihValue writable.2.1, ihBody writable.2.2⟩

theorem Signature.reads_functions : functions.Reads where
  arrow _ := rfl
  con name isCon count isArrow := by
    rw [isArrow] at isCon
    exact absurd isCon (by decide)

theorem Prelude.within_env {path : String} {entries : List Entry} {prelude : Prelude}
    (accepted : (check path entries).outcome = .ok prelude) : prelude.env.Within .functions := by
  intro name scheme found
  have admits := admits_of_check accepted
  obtain ⟨binding, mem, _, rfl⟩ := admits.find?_env.1 found
  obtain ⟨parsed, isParsed, same⟩ := admits.closed binding mem
  rw [same]
  change parsed.type.Within .functions
  exact Scheme.within_of_parse Signature.reads_functions isParsed fun _ _ => trivial

/-- A request for a parsed expression is answered and its answer can be printed, whatever is logged. -/
theorem Session.exists_logged_infer {session : Session} {env : Env} {text : String} {expr : Expr} (config : Log.Config)
    (within : env.Within .functions) (idle : session.supply.chosen = ∅) (parsed : Expr.parse text = .ok expr) :
    (∃ found log type, (session.infer env expr).logged config = .ok (.ok found, log) ∧ found.type.render = .ok type) ∨
    ∃ error log report, (session.infer env expr).logged config = .ok (.error (.failed error), log) ∧
      error.report = .ok report := by
  have answers := within_answer_infer Signature.basic_functions (fun _ => trivial) within idle expr
  have proper := (Expr.isWritable_of_parse parsed).isProper
  have faultless (reason : Fault) := outcome_infer_ne_fault within idle proper reason
  obtain ⟨log, logged⟩ := answers.exists_logged Signature.arrows_functions faultless config
  rcases outcome : (session.infer env expr).outcome with ((error | reason) | found)
  · have printable := (answers.error error outcome).isPrintable_shown Signature.arrows_functions
    obtain ⟨report, reported⟩ := Error.exists_report_iff.2 printable
    exact .inr ⟨error, log, report, outcome ▸ logged, reported⟩
  · exact absurd outcome (faultless reason)
  · have withinType := (Typing.within_types.1 (answers.value found outcome)).1
    obtain ⟨type, rendered⟩ := withinType.isPrintable Signature.arrows_functions
    exact .inl ⟨found, log, type, outcome ▸ logged, rendered⟩

namespace Repl

variable {config : Log.Config} {env : Env} {session : Session} {line : List UInt8}

/-- The text of a line without the blanks around it. -/
def sourceOf (line : List UInt8) : String := String.ofList ((trim (Text.pieces line)).map Text.Piece.toChar)

def quits (line : List UInt8) : Bool := sourceOf line = ":quit" || sourceOf line = ":q"

def IsExpression (line : List UInt8) : Prop := sourceOf line ≠ "" ∧ (sourceOf line).toList.head? ≠ some ':'

theorem reply_eq : reply config env session line =
    if sourceOf line = "" then .ok { session }
    else if quits line then .ok { session, quits := true }
    else if sourceOf line = ":help" then .ok { session, out := help }
    else if sourceOf line = ":env" then do return { session, out := ← env.render }
    else if (sourceOf line).toList.head? = some ':' then
      .ok { session, out := "Unknown command " ++ sourceOf line ++ " (try :help)\n" }
    else do
      let answer ← evaluate config env session (sourceOf line)
      return { session := answer.session.reset, out := answer.out,
               log := evalLine config (trim (Text.pieces line)) ++ answer.log } := rfl

theorem ne_blank_of_quits (ends : quits line = true) : sourceOf line ≠ "" := by
  intro blank
  rw [quits, blank] at ends
  cases ends

theorem reply_of_quits (ends : quits line = true) : reply config env session line = .ok { session, quits := true } := by
  rw [reply_eq, if_neg (ne_blank_of_quits ends), if_pos ends]

theorem IsExpression.ne_command (given : IsExpression line) {command : String} (starts : command.toList.head? = some ':') :
    sourceOf line ≠ command := fun same => given.2 (same ▸ starts)

theorem IsExpression.not_quits (given : IsExpression line) : quits line = false := by
  unfold quits
  rw [decide_eq_false (given.ne_command rfl), decide_eq_false (given.ne_command rfl), Bool.or_false]

theorem reply_of_isExpression (given : IsExpression line) : reply config env session line = (do
    let answer ← evaluate config env session (sourceOf line)
    return { session := answer.session.reset, out := answer.out,
             log := evalLine config (trim (Text.pieces line)) ++ answer.log }) := by
  rw [reply_eq, if_neg given.1, given.not_quits, if_neg Bool.false_ne_true, if_neg (given.ne_command rfl),
    if_neg (given.ne_command rfl), if_neg given.2]

/-- What is written for an expression that has a type. -/
def verdict (source type : String) : String := "\x60" ++ source ++ "\x60 infer as \x60" ++ type ++ "\x60\n"

theorem runInfer_plain (source : String) : Command.runInfer config env {} source =
    match Expr.parse source with
    | .error error => .ok { error := some (.malformed error) }
    | .ok expr => Command.Outcome.andThen {} (Command.conclude config env false expr) := by
  unfold Command.runInfer
  cases Expr.parse source <;> rfl

section Evaluation

variable {source type report log : String} {expr : Expr} {found : Typing} {error : Error}

theorem evaluate_of_malformed {malformed : SyntaxError} (refused : Expr.parse source = .error malformed)
    (reported : (Error.malformed malformed).report = .ok report) :
    evaluate config env session source = .ok { session, out := report } := by
  unfold evaluate
  rw [refused]
  dsimp only
  rw [reported]
  rfl

theorem evaluate_of_typed (parsed : Expr.parse source = .ok expr)
    (logged : (session.infer env expr).logged config = .ok (.ok found, log)) (rendered : found.type.render = .ok type) :
    evaluate config env session source =
      .ok { session := (session.infer env expr).session, log, out := verdict source type } := by
  have shown : (do return { session := (session.infer env expr).session, log, out := "\x60" ++ source ++ "\x60 infer as \x60"
      ++ (← found.type.render) ++ "\x60\n" } : Except Fault Reply) =
      .ok { session := (session.infer env expr).session, log, out := verdict source type } := by
    rw [rendered]
    rfl
  unfold evaluate
  rw [parsed]
  dsimp only
  rw [logged]
  exact shown

theorem evaluate_of_failed (parsed : Expr.parse source = .ok expr)
    (logged : (session.infer env expr).logged config = .ok (.error (.failed error), log))
    (reported : error.report = .ok report) :
    evaluate config env session source = .ok { session := (session.infer env expr).session, log, out := report } := by
  have shown : (do return { session := (session.infer env expr).session, log, out := ← error.report } : Except Fault Reply) =
      .ok { session := (session.infer env expr).session, log, out := report } := by
    rw [reported]
    rfl
  unfold evaluate
  rw [parsed]
  dsimp only
  rw [logged]
  exact shown

end Evaluation

/-- Every expression is answered, whatever was asked before it. -/
theorem exists_evaluate (config : Log.Config) (within : env.Within .functions) (idle : session.supply.chosen = ∅)
    (source : String) : ∃ answer, evaluate config env session source = .ok answer := by
  cases parsed : Expr.parse source with
  | error error =>
    obtain ⟨report, reported⟩ := @Error.exists_report_iff (.malformed error) |>.2 nofun
    exact ⟨_, evaluate_of_malformed parsed reported⟩
  | ok expr =>
    rcases Session.exists_logged_infer config within idle parsed with
      ⟨found, log, type, logged, rendered⟩ | ⟨error, log, report, logged, reported⟩
    · exact ⟨_, evaluate_of_typed parsed logged rendered⟩
    · exact ⟨_, evaluate_of_failed parsed logged reported⟩

/-- A line and the command for one expression give the same type, or the same error. -/
theorem evaluate_runInfer (within : env.Within .functions) (source : String) : ∃ answer outcome,
    evaluate config env {} source = .ok answer ∧ Command.runInfer config env {} source = .ok outcome ∧
    ((∃ type, outcome.error = none ∧ outcome.out = type ++ "\n" ∧ answer.out = verdict source type) ∨
      ∃ error, outcome.error = some error ∧ error.report = .ok answer.out) := by
  rw [runInfer_plain]
  cases parsed : Expr.parse source with
  | error error =>
    obtain ⟨report, reported⟩ := @Error.exists_report_iff (.malformed error) |>.2 nofun
    exact ⟨_, _, evaluate_of_malformed parsed reported, rfl, .inr ⟨_, rfl, reported⟩⟩
  | ok expr =>
    dsimp only
    unfold Command.conclude
    rcases @Session.exists_logged_infer {} env source expr config within rfl parsed with
      ⟨found, log, type, logged, rendered⟩ | ⟨error, log, report, logged, reported⟩
    · refine ⟨_, ⟨"" ++ (type ++ "\n"), "" ++ log, none⟩, evaluate_of_typed parsed logged rendered, ?_, ?_⟩
      · dsimp only
        rw [logged]
        change Command.Outcome.andThen {} (do return { out := (← found.type.render) ++ "\n", log }) = _
        rw [rendered]
        rfl
      · exact .inl ⟨type, rfl, String.empty_append, rfl⟩
    · refine ⟨_, ⟨"" ++ "", "" ++ log, some error⟩, evaluate_of_failed parsed logged reported, ?_, .inr ⟨error, rfl, reported⟩⟩
      dsimp only
      rw [logged]
      rfl

theorem verdict_injective {source type other : String} (same : verdict source type = verdict source other) : type = other := by
  simpa [verdict] using same

/-- No error is reported in the words that tell a type. -/
theorem report_ne_verdict {error : Error} {out source type : String} (reported : error.report = .ok out) :
    out ≠ verdict source type := by
  unfold Error.report at reported
  cases written : error.message with
  | error fault =>
    rw [written] at reported
    cases reported
  | ok message =>
    rw [written] at reported
    cases reported
    intro same
    have heads := congrArg (fun text => text.toList.head?) same
    revert heads
    simp only [verdict, String.toList_append]
    split <;> simp

/-- Whatever an expression leaves in the session, the session starts again after it. No other line changes
the session. -/
theorem session_reply {answer : Reply} (replied : reply config env session line = .ok answer) :
    (IsExpression line → answer.session = {}) ∧ (¬ IsExpression line → answer.session = session) := by
  constructor
  · intro given
    rw [reply_of_isExpression given] at replied
    cases evaluated : evaluate config env session (sourceOf line) <;> rw [evaluated] at replied <;> cases replied
    rfl
  · intro other
    rw [reply_eq] at replied
    split_ifs at replied with blank _ _ _ command
    · cases replied
      rfl
    · cases replied
      rfl
    · cases replied
      rfl
    · cases rendered : env.render <;> rw [rendered] at replied <;> cases replied
      rfl
    · cases replied
      rfl
    · exact absurd ⟨blank, command⟩ other

/-- Every line is answered, and it ends the reading if it is one that quits. -/
theorem exists_reply (config : Log.Config) (within : env.Within .functions) (idle : session.supply.chosen = ∅)
    (line : List UInt8) : ∃ answer, reply config env session line = .ok answer ∧ answer.quits = quits line := by
  cases ends : quits line with
  | true => exact ⟨_, reply_of_quits ends, rfl⟩
  | false =>
    rw [reply_eq, ends, if_neg Bool.false_ne_true]
    split_ifs
    · exact ⟨_, rfl, rfl⟩
    · exact ⟨_, rfl, rfl⟩
    · have printable (entry : String × Scheme) (mem : entry ∈ env.entries) : entry.2.type.IsPrintable :=
        (within entry.1 entry.2 (NameMap.mem_entries.1 mem)).isPrintable Signature.arrows_functions
      obtain ⟨text, rendered⟩ := Env.exists_render_iff.2 printable
      exact ⟨_, by rw [rendered]; rfl, rfl⟩
    · exact ⟨_, rfl, rfl⟩
    · obtain ⟨answer, evaluated⟩ := exists_evaluate config within idle (sourceOf line)
      exact ⟨_, by rw [evaluated]; rfl, rfl⟩

/-- What a line gives on its own, from the start. -/
def alone (config : Log.Config) (env : Env) (line : List UInt8) : Except Fault Transcript :=
  record config env false none [line]

def Transcript.extend (kept : Transcript) (out log : String) : Transcript :=
  { kept with out := kept.out ++ out, log := kept.log ++ log }

theorem Transcript.extend_extend (kept : Transcript) (out log more moreLog : String) :
    (kept.extend out log).extend more moreLog = kept.extend (out ++ more) (log ++ moreLog) := by
  simp only [extend, String.append_assoc]

@[simp] theorem Transcript.extend_empty (kept : Transcript) : kept.extend "" "" = kept := by
  simp only [extend, String.append_empty]

theorem Transcript.extend_start (out log : String) : Transcript.extend {} out log = { out, log } := by
  simp only [extend, String.empty_append]

section Loop

variable {mark : String} {state : Session × Bool} {answer : Reply} {rest : List (List UInt8)}

theorem run_exchange (replied : reply config env state.1 line = .ok answer) (kept : Transcript) :
    (exchange recorder config env mark line state).run kept =
      if answer.quits then .ok (.done (answer.session, true), kept.extend answer.out answer.log)
      else .ok (.yield (answer.session, false), kept.extend (answer.out ++ mark) answer.log) := by
  unfold exchange
  rw [replied]
  change StateT.run (if answer.quits then _ else _) (kept.extend answer.out answer.log) = _
  split
  · rfl
  · unfold Transcript.extend
    rw [← String.append_assoc]
    rfl

theorem loop_of_quits (ends : quits line = true) (kept : Transcript) :
    (forIn (line :: rest) ({}, false) (exchange recorder config env mark)).run kept = .ok (({}, true), kept) := by
  have replied : reply config env {} line = .ok { session := {}, quits := true } := reply_of_quits ends
  rw [List.forIn_cons, StateT.run_bind, @run_exchange _ _ _ mark ({}, false) _ replied, if_pos rfl, Transcript.extend_empty]
  rfl

theorem loop_of_reply (replied : reply config env {} line = .ok answer) (goesOn : answer.quits = false) (kept : Transcript) :
    (forIn (line :: rest) ({}, false) (exchange recorder config env mark)).run kept =
      (forIn rest ({}, false) (exchange recorder config env mark)).run (kept.extend (answer.out ++ mark) answer.log) := by
  have fresh : answer.session = {} := by
    by_cases given : IsExpression line
    · exact (session_reply replied).1 given
    · exact (session_reply replied).2 given
  rw [List.forIn_cons, StateT.run_bind, @run_exchange _ _ _ mark ({}, false) _ replied, goesOn, fresh]
  rfl

end Loop

/-- What the loop leaves is the transcript. -/
theorem record_of_loop {error : Option String} {lines : List (List UInt8)} {state : Session × Bool} {kept : Transcript}
    (looped : (forIn lines ({}, false) (exchange recorder config env "")).run {} = pure (state, kept)) :
    record config env false error lines = .ok { kept with error := if state.2 then none else error } := by
  have start : (recorder.write "").run {} = pure ((), {}) := rfl
  unfold record converse
  simp only [Bool.false_eq_true, if_false, Bool.false_and, StateT.run_bind, start, pure_bind, looped]
  rfl

theorem alone_of_reply {answer : Reply} (replied : reply config env {} line = .ok answer) (goesOn : answer.quits = false) :
    alone config env line = .ok ⟨answer.out, answer.log, none⟩ := by
  have looped : (forIn [line] ({}, false) (exchange recorder config env "")).run {} =
      pure (({}, false), ⟨answer.out, answer.log, none⟩) := by
    rw [loop_of_reply replied goesOn, Transcript.extend_start, String.append_empty]
    rfl
  exact record_of_loop looped

/-- The answers to the lines before the first that quits are those to each line alone. -/
theorem loop_eq_alone (within : env.Within .functions) (mark : String) (lines : List (List UInt8)) (kept : Transcript) :
    ∃ answers, (lines.takeWhile (!quits ·)).mapM (alone config env) = .ok answers ∧
      (forIn lines ({}, false) (exchange recorder config env mark)).run kept = .ok (({}, lines.any quits),
        kept.extend (String.join (answers.map (·.out ++ mark))) (String.join (answers.map Transcript.log))) := by
  induction lines generalizing kept with
  | nil => exact ⟨[], rfl, by rw [List.map_nil, List.map_nil, String.join_nil, Transcript.extend_empty]; rfl⟩
  | cons line rest ih =>
    cases ends : quits line with
    | true =>
      refine ⟨[], by rw [List.takeWhile_cons_of_neg (by simp [ends])]; rfl, ?_⟩
      rw [loop_of_quits ends, List.any_cons, ends, List.map_nil, List.map_nil, String.join_nil, Transcript.extend_empty]
      rfl
    | false =>
      obtain ⟨answer, replied, same⟩ := @exists_reply env {} config within rfl line
      have goesOn : answer.quits = false := same.trans ends
      obtain ⟨answers, each, all⟩ := ih (kept.extend (answer.out ++ mark) answer.log)
      refine ⟨⟨answer.out, answer.log, none⟩ :: answers, ?_, ?_⟩
      · rw [List.takeWhile_cons_of_pos (by simp [ends]), List.mapM_cons, alone_of_reply replied goesOn, each]
        rfl
      · rw [loop_of_reply replied goesOn, all, List.any_cons, ends, Bool.false_or, List.map_cons, List.map_cons,
          String.join_cons, String.join_cons, Transcript.extend_extend]

/-- Under an accepted prelude the lines of an input do not depend on each other: what is written is what
each line gives alone, up to the first that quits. For an expression it is the type that the command for
one expression prints, or the report of the error that this command ends with. -/
theorem run_eq_alone (path : String) (entries : List Prelude.Entry) (prelude : Prelude)
    (accepted : (Prelude.check path entries).outcome = .ok prelude) (config : Log.Config) :
    (∀ input inputError, ∃ answers,
      ((Text.lines input).lines.takeWhile (!quits ·)).mapM (alone config prelude.env) = .ok answers ∧
      run config prelude.env false input inputError = .ok ⟨String.join (answers.map Transcript.out),
        String.join (answers.map Transcript.log), if (Text.lines input).lines.any quits then none
          else if (Text.lines input).tooLong then some tooLong else inputError⟩) ∧
    ∀ line, IsExpression line → ∃ answer outcome, alone config prelude.env line = .ok answer ∧
      Command.runInfer config prelude.env {} (sourceOf line) = .ok outcome ∧
      (∀ type, answer.out = verdict (sourceOf line) type ↔ outcome.error = none ∧ outcome.out = type ++ "\n") ∧
      ((∀ type, answer.out ≠ verdict (sourceOf line) type) →
        ∃ error, outcome.error = some error ∧ error.report = .ok answer.out) := by
  have within := Prelude.within_env accepted
  refine ⟨fun input inputError => ?_, fun line given => ?_⟩
  · obtain ⟨answers, each, all⟩ := loop_eq_alone within "" (Text.lines input).lines {}
    simp only [Transcript.extend_start, String.append_empty] at all
    exact ⟨answers, each, record_of_loop all⟩
  obtain ⟨answer, outcome, evaluated, ran, agrees⟩ := @evaluate_runInfer config _ within (sourceOf line)
  have replied : reply config prelude.env {} line =
      .ok { session := answer.session.reset, out := answer.out,
            log := evalLine config (trim (Text.pieces line)) ++ answer.log } := by
    rw [reply_of_isExpression given, evaluated]
    rfl
  refine ⟨_, outcome, alone_of_reply replied rfl, ran, ?_⟩
  rcases agrees with ⟨type, succeeds, printed, shown⟩ | ⟨error, fails, reported⟩
  · refine ⟨fun other => ⟨fun same => ⟨succeeds, ?_⟩, fun expected => ?_⟩, fun different => absurd shown (different type)⟩
    · rw [printed, verdict_injective (shown.symm.trans same)]
    · have same : type = other := by simpa using printed.symm.trans expected.2
      rw [← same]
      exact shown
  · refine ⟨fun type => ⟨fun same => absurd same (report_ne_verdict reported), fun printed => ?_⟩,
      fun _ => ⟨error, fails, reported⟩⟩
    rw [fails] at printed
    cases printed.1

def sample : Prelude := ⟨[⟨⟨"inc", "Int -> Int", ""⟩, ⟨[], .arrow .int .int⟩⟩,
  ⟨⟨"give", "∀a.a -> a", "gives back"⟩, ⟨["a"], .arrow (.var "a") (.var "a")⟩⟩]⟩

set_option maxRecDepth 1024 in
/-- The first two lines take variables and the second leaves a failure, but the third is answered as the
first. The fourth quits, so that the fifth is not answered. -/
theorem run_eq_alone_application :
    let bytes (text : String) : List UInt8 := text.toList.map fun c => c.toNat.toUInt8
    let same : List UInt8 := bytes " (\\x -> x)"
    let clash : List UInt8 := bytes "(inc (give true))"
    let input : List UInt8 := bytes " (\\x -> x)\n(inc (give true))\r\n (\\x -> x)\n:q\n1"
    let entries : List Prelude.Entry := [⟨"inc", "Int -> Int", ""⟩, ⟨"give", "∀a.a -> a", "gives back"⟩]
    (Prelude.check "prelude" entries).outcome = .ok sample ∧ ∃ first second,
      alone {} sample.env same = .ok first ∧ alone {} sample.env clash = .ok second ∧
      run {} sample.env false input none = .ok ⟨String.join [first.out, second.out, first.out],
        String.join [first.log, second.log, first.log], none⟩ ∧
      first.out = verdict "(\\x -> x)" "t0 -> t0" ∧
      second.out = "Type Error: cannot apply inc to (give true): mismatched type constructors: Int and Bool\n" := by
  have typed : Command.runInfer {} sample.env {} "(\\x -> x)" = .ok { out := "t0 -> t0\n" } := by cbv
  have clashed : Command.runInfer {} sample.env {} "(inc (give true))" =
      .ok { error := some (.within "cannot apply inc to (give true)" (.mismatch (.constructors "Int" "Bool"))) } := by cbv
  have worded : (Error.within "cannot apply inc to (give true)" (.mismatch (.constructors "Int" "Bool"))).report =
      .ok "Type Error: cannot apply inc to (give true): mismatched type constructors: Int and Bool\n" := by cbv
  intro bytes same clash input entries
  have accepted : (Prelude.check "prelude" entries).outcome = .ok sample := by cbv
  have answered : (Text.lines input).lines.takeWhile (!quits ·) = [same, clash, same] := by decide
  have stops : (Text.lines input).lines.any quits = true := by decide
  have source : sourceOf same = "(\\x -> x)" := by decide
  have clashing : sourceOf clash = "(inc (give true))" := by decide
  obtain ⟨together, each⟩ := run_eq_alone "prelude" entries sample accepted {}
  obtain ⟨first, shown, replied, ran, agrees, -⟩ := each same ⟨by rw [source]; decide, by rw [source]; decide⟩
  obtain ⟨second, failed, refused, ended, never, reports⟩ :=
    each clash ⟨by rw [clashing]; decide, by rw [clashing]; decide⟩
  obtain ⟨answers, apart, whole⟩ := together input none
  have threefold : [same, clash, same].mapM (alone {} sample.env) = .ok [first, second, first] := by
    rw [List.mapM_cons, replied, List.mapM_cons, refused, List.mapM_cons, replied]
    rfl
  rw [answered, threefold] at apart
  rw [stops, if_pos rfl] at whole
  cases apart
  rw [source, typed] at ran
  rw [clashing, clashed] at ended
  cases ran
  cases ended
  rw [source] at agrees
  obtain ⟨error, same, reported⟩ := reports fun type told => by cases ((never type).1 told).1
  cases same
  exact ⟨accepted, first, second, replied, refused, whole, (agrees "t0 -> t0").2 ⟨rfl, rfl⟩,
    Except.ok.inj (reported.symm.trans worded)⟩

end Repl

end HindleyMilner
