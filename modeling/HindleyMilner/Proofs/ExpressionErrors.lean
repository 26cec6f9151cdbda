import HindleyMilner.Proofs.ExpressionGrammar
import HindleyMilner.Proofs.Refusals

/-! Where the reader of expressions refuses.

What each part of the reader takes is a matter of phrases alone. A refusal in a part is followed out to
the whole expression. -/

set_option autoImplicit false

namespace HindleyMilner.Expr

open Reader

def Closed (tokens : List Token) : Prop := ∀ token ∈ tokens.head?, token.kind = .closing

theorem closed_nil : Closed [] := by simp [Closed]

theorem closed_of_kind {closing : Token} {tokens : List Token} (kind : closing.kind = .closing) :
    Closed (closing :: tokens) := by
  simpa [Closed] using kind

/-- An expression is read from these tokens, and `left` is left. -/
def Reads (stop : Position) (tokens left : List Token) : Prop := Takes (read stop tokens) left

def ReadsGroup (stop pos : Position) (tokens left : List Token) : Prop := Takes (readGroup stop pos tokens) left

def ReadsArgs (stop : Position) (tokens left : List Token) : Prop := Takes (readArgs stop tokens) left

section Takes

variable {stop pos : Position} {tokens left rest : List Token}

theorem reads_iff : Reads stop tokens left ↔ ∃ phrase : Phrase, tokens = phrase.tokens ++ left := by
  constructor
  · rintro ⟨_, gives⟩
    obtain ⟨phrase, same, _⟩ := exists_phrase gives
    exact ⟨phrase, same⟩
  · rintro ⟨phrase, rfl⟩
    exact ⟨_, phrase.gives_read stop left⟩

theorem reads_opening {opening : Token} (kind : opening.kind = .opening) :
    Reads stop (opening :: tokens) left ↔
      ∃ closing : Token.Of .closing, ReadsGroup stop opening.pos tokens (closing.val :: left) := by
  constructor
  · rintro ⟨_, gives⟩
    obtain ⟨closing, gives⟩ := (gives_read_opening kind).1 gives
    exact ⟨closing, _, gives⟩
  · rintro ⟨closing, _, gives⟩
    exact ⟨_, (gives_read_opening kind).2 ⟨closing, gives⟩⟩

/-- A phrase is taken first, and the others after it. -/
def ThenPhrase (after : List Token → List Token → Prop) (tokens left : List Token) : Prop :=
  ∃ (phrase : Phrase) (rest : List Token), tokens = phrase.tokens ++ rest ∧ after rest left

section Sequences

variable {after : List Token → List Token → Prop} {follows : List Token → Prop}

theorem thenPhrase_append (phrase : Phrase) : ThenPhrase after (phrase.tokens ++ tokens) left ↔ after tokens left := by
  constructor
  · rintro ⟨_, rest, whole, taken⟩
    obtain ⟨_, rfl⟩ := Phrase.eq_of_append whole
    exact taken
  · exact fun taken => ⟨phrase, tokens, rfl, taken⟩

theorem ThenPhrase.takesAgain (again : ∀ tokens rest, after tokens rest → TakesAgain after follows tokens rest)
    (taken : ThenPhrase after tokens rest) : TakesAgain (ThenPhrase after) follows tokens rest := by
  obtain ⟨phrase, later, rfl, taken⟩ := taken
  exact (again later rest taken).past phrase.tokens (fun _ _ => thenPhrase_append phrase) fun _ => id

end Sequences

theorem Reads.takesAgain (reads : Reads stop tokens rest) : TakesAgain (Reads stop) (fun _ => True) tokens rest := by
  obtain ⟨phrase, rfl⟩ := reads_iff.1 reads
  exact ⟨phrase.tokens, rfl, fun others _ => reads_iff.2 ⟨phrase, rfl⟩⟩

theorem readsGroup_let {kwLet : Token} (kind : kwLet.kind = .kwLet) :
    ReadsGroup stop pos (kwLet :: tokens) left ↔
      Then .word (Then .equals (ThenPhrase (Then .kwIn (Reads stop)))) tokens left := by
  constructor
  · rintro ⟨_, gives⟩
    obtain ⟨name, equals, _, _, kwIn, _, _, rfl, givesValue, givesBody, _⟩ := (gives_readGroup_let kind).1 gives
    obtain ⟨value, rfl, _⟩ := exists_phrase givesValue
    exact ⟨name, _, rfl, equals, _, rfl, value, _, rfl, kwIn, _, rfl, _, givesBody⟩
  · rintro ⟨name, _, rfl, equals, _, rfl, value, _, rfl, kwIn, _, rfl, _, givesBody⟩
    exact ⟨_, (gives_readGroup_let kind).2
      ⟨name, equals, _, _, kwIn, _, _, rfl, value.gives_read stop _, givesBody, rfl⟩⟩

theorem readsGroup_lambda {lambda : Token} (kind : lambda.kind = .lambda) :
    ReadsGroup stop pos (lambda :: tokens) left ↔ Then .word (Then .arrow (Reads stop)) tokens left := by
  constructor
  · rintro ⟨_, gives⟩
    obtain ⟨param, arrow, _, _, rfl, givesBody, _⟩ := (gives_readGroup_lambda kind).1 gives
    exact ⟨param, _, rfl, arrow, _, rfl, _, givesBody⟩
  · rintro ⟨param, _, rfl, arrow, _, rfl, _, givesBody⟩
    exact ⟨_, (gives_readGroup_lambda kind).2 ⟨param, arrow, _, _, rfl, givesBody, rfl⟩⟩

theorem readsGroup_call (notLet : (next stop tokens).kind ≠ .kwLet) (notLambda : (next stop tokens).kind ≠ .lambda) :
    ReadsGroup stop pos tokens left ↔ ThenPhrase (ThenPhrase (ReadsArgs stop)) tokens left := by
  constructor
  · rintro ⟨_, gives⟩
    obtain ⟨_, _, _, _, _, givesFn, givesFirst, givesOthers, _⟩ := (gives_readGroup_call notLet notLambda).1 gives
    obtain ⟨fn, rfl, _⟩ := exists_phrase givesFn
    obtain ⟨first, rfl, _⟩ := exists_phrase givesFirst
    exact ⟨fn, _, rfl, first, _, rfl, _, givesOthers⟩
  · rintro ⟨fn, _, rfl, first, _, rfl, _, givesOthers⟩
    exact ⟨_, (gives_readGroup_call notLet notLambda).2
      ⟨_, _, _, _, _, fn.gives_read stop _, first.gives_read stop _, givesOthers, rfl⟩⟩

theorem readsGroup_append (fn : Phrase) :
    ReadsGroup stop pos (fn.tokens ++ tokens) left ↔ ThenPhrase (ReadsArgs stop) tokens left := by
  obtain ⟨notLet, notLambda⟩ := fn.next_append stop tokens
  rw [readsGroup_call notLet notLambda, thenPhrase_append]

theorem readsArgs_end (ends : Closed tokens) : ReadsArgs stop tokens left ↔ tokens = left := by
  constructor
  · rintro ⟨_, gives⟩
    exact ((gives_readArgs_end ends).1 gives).2
  · rintro rfl
    exact ⟨_, (gives_readArgs_end ends).2 ⟨rfl, rfl⟩⟩

theorem readsArgs_more {token : Token} (kind : token.kind ≠ .closing) :
    ReadsArgs stop (token :: tokens) left ↔ ThenPhrase (ReadsArgs stop) (token :: tokens) left := by
  constructor
  · rintro ⟨_, gives⟩
    obtain ⟨_, _, _, givesArg, givesOthers, _⟩ := (gives_readArgs_more kind).1 gives
    obtain ⟨arg, whole, _⟩ := exists_phrase givesArg
    exact ⟨arg, _, whole, _, givesOthers⟩
  · rintro ⟨arg, later, whole, _, givesOthers⟩
    exact ⟨_, (gives_readArgs_more kind).2 ⟨_, _, later, whole ▸ arg.gives_read stop later, givesOthers, rfl⟩⟩

theorem readsArgs_append (arg : Phrase) : ReadsArgs stop (arg.tokens ++ tokens) left ↔ ReadsArgs stop tokens left := by
  obtain ⟨token, others, start, starts⟩ := arg.exists_first
  have kind : token.kind ≠ .closing := fun kind => by simp [kind, startsPhrase] at starts
  refine Iff.trans ?_ (thenPhrase_append arg)
  rw [start]
  exact readsArgs_more kind

theorem ReadsArgs.takesAgain {tokens rest : List Token} (reads : ReadsArgs stop tokens rest) :
    TakesAgain (ReadsArgs stop) Closed tokens rest := by
  by_cases ends : Closed tokens
  · obtain rfl := (readsArgs_end ends).1 reads
    refine ⟨[], rfl, fun others follows => (readsArgs_end ?_).2 rfl⟩
    exact follows.elim (fun same => by rwa [Closed, List.nil_append, same]) id
  · cases tokens with
    | nil => exact absurd closed_nil ends
    | cons token later =>
      obtain ⟨arg, others, whole, reads⟩ := (readsArgs_more fun kind => ends (closed_of_kind kind)).1 reads
      obtain ⟨first, more, start, _⟩ := arg.exists_first
      have fewer : others.length < (token :: later).length := by
        rw [whole, start, List.length_append, List.length_cons]
        omega
      rw [whole]
      exact reads.takesAgain.past arg.tokens (fun _ _ => readsArgs_append arg) fun _ => id
termination_by tokens.length

/-- A group is read again where the same token follows, or where groups end. -/
theorem ReadsGroup.takesAgain (reads : ReadsGroup stop pos tokens rest) :
    TakesAgain (ReadsGroup stop pos) Closed tokens rest := by
  by_cases isLet : (next stop tokens).kind = .kwLet
  · cases tokens with
    | nil => cases isLet
    | cons kwLet later =>
      have again := Then.takesAgain (fun _ _ => Then.takesAgain fun _ _ => ThenPhrase.takesAgain fun _ _ =>
        Then.takesAgain fun _ _ => Reads.takesAgain) ((readsGroup_let isLet).1 reads)
      exact again.past [kwLet] (fun _ _ => readsGroup_let isLet) fun _ _ => trivial
  by_cases isLambda : (next stop tokens).kind = .lambda
  · cases tokens with
    | nil => cases isLambda
    | cons lambda later =>
      have again := Then.takesAgain (fun _ _ => Then.takesAgain fun _ _ => Reads.takesAgain)
        ((readsGroup_lambda isLambda).1 reads)
      exact again.past [lambda] (fun _ _ => readsGroup_lambda isLambda) fun _ _ => trivial
  · obtain ⟨fn, later, rfl, args⟩ := (readsGroup_call isLet isLambda).1 reads
    exact (args.takesAgain fun _ _ => ReadsArgs.takesAgain).past fn.tokens (fun _ _ => readsGroup_append fn) fun _ => id

end Takes

section Refusals

variable {stop pos : Position} {tokens left rest : List Token} {refusal : Refusal}

def Phrase.sample : Phrase := .name Sample.name

theorem not_reads (none : ∀ token ∈ tokens.head?, startsPhrase token.kind = false) : ¬ Reads stop tokens left := by
  intro reads
  obtain ⟨phrase, rfl⟩ := reads_iff.1 reads
  obtain ⟨first, others, start, starts⟩ := phrase.exists_first
  rw [none first (by rw [start]; rfl)] at starts
  cases starts

theorem completable_reads (stop : Position) : Completable (Reads stop) fun _ => True :=
  ⟨Phrase.sample.tokens, by decide, fun _ _ => reads_iff.2 ⟨.sample, rfl⟩⟩

theorem completable_readsArgs (stop : Position) : Completable (ReadsArgs stop) Closed :=
  ⟨[], List.forall_mem_nil _, fun _ closed => (readsArgs_end closed).2 rfl⟩

/-- Where no expression starts like this, an expression is refused at its first token. -/
theorem pinpoints_start (place : IsAt stop tokens refusal)
    (none : ∀ others left, others.head? = tokens.head? → ¬ Reads stop others left) :
    Pinpoints stop (Reads stop) (fun _ => True) tokens refusal :=
  .here [] place none (completable_reads stop)

def Accurate (stop : Position) (tokens : List Token) : Prop :=
  ∀ refusal, read stop tokens = .error refusal → Pinpoints stop (Reads stop) (fun _ => True) tokens refusal

section Sequences

variable {after : List Token → List Token → Prop} {follows : List Token → Prop}

theorem completable_thenPhrase (completable : Completable after follows) : Completable (ThenPhrase after) follows := by
  obtain ⟨more, listed, completes⟩ := completable
  exact ⟨Sample.name.val :: more, List.forall_mem_cons.2 ⟨by decide, listed⟩,
    fun left follow => ⟨.sample, more ++ left, rfl, completes left follow⟩⟩

/-- The phrase that has to come first is refused. -/
theorem Accurate.pinpoints_thenPhrase (accurate : Accurate stop tokens) (refused : read stop tokens = .error refusal)
    (completable : Completable after follows) : Pinpoints stop (ThenPhrase after) follows tokens refusal := by
  obtain ⟨close, listed, closes⟩ := completable
  refine (accurate refusal refused).within [] close ?_ listed (fun _ _ => trivial) ?_
  · rintro others left _ ⟨phrase, rest, rfl, _⟩
    exact ⟨rest, reads_iff.2 ⟨phrase, rfl⟩⟩
  · intro others left _ follow reads
    obtain ⟨phrase, rfl⟩ := reads_iff.1 reads
    exact ⟨phrase, close ++ left, rfl, closes left follow⟩

theorem pinpoints_behind (phrase : Phrase) (pinpoints : Pinpoints stop after follows tokens refusal) :
    Pinpoints stop (ThenPhrase after) follows (phrase.tokens ++ tokens) refusal :=
  pinpoints.past phrase.tokens (fun _ _ => thenPhrase_append phrase) fun _ => id

end Sequences

theorem pinpoints_let {kwLet : Token} (kind : kwLet.kind = .kwLet)
    (parts : ∀ later, later.length ≤ tokens.length → Accurate stop later)
    (refused : readGroup stop pos (kwLet :: tokens) = .error refusal) :
    Pinpoints stop (ReadsGroup stop pos) Closed (kwLet :: tokens) refusal := by
  rw [readGroup] at refused
  simp only [next, kind, error_bind] at refused
  rcases refused with impossible | ⟨_, _, givesLet, refused⟩
  · simp [expectToken, expect, kind] at impossible
  obtain ⟨same, _⟩ := gives_expectToken.1 givesLet
  cases same
  have atIn := (completable_reads stop).behind Sample.kwIn (by decide)
  have atEquals := (completable_thenPhrase atIn).behind Sample.equals (by decide)
  refine .past [kwLet] (fun _ _ => readsGroup_let kind) (fun _ _ => trivial) ?_
  rcases refused with refused | ⟨name, _, givesName, refused⟩
  · exact .missing refused (atEquals.behind Sample.name (by decide))
  obtain ⟨rfl, kindName⟩ := gives_expect.1 givesName
  refine .behind ⟨name, kindName⟩ ?_
  rcases refused with refused | ⟨equals, _, givesEquals, refused⟩
  · exact .missing refused atEquals
  obtain ⟨rfl, kindEquals⟩ := gives_expectToken.1 givesEquals
  refine .behind ⟨equals, kindEquals⟩ ?_
  rcases refused with refused | ⟨_, _, givesValue, refused⟩
  · exact (parts _ (by simp; omega)).pinpoints_thenPhrase refused atIn
  obtain ⟨value, rfl, _⟩ := exists_phrase givesValue
  refine pinpoints_behind value ?_
  rcases refused with refused | ⟨kwIn, _, givesIn, refused⟩
  · exact .missing refused atIn
  obtain ⟨rfl, kindIn⟩ := gives_expectToken.1 givesIn
  refine .behind ⟨kwIn, kindIn⟩ ?_
  rcases refused with refused | ⟨_, _, _, impossible⟩
  · exact parts _ (by simp; omega) _ refused
  · cases impossible

theorem pinpoints_lambda {lambda : Token} (kind : lambda.kind = .lambda)
    (parts : ∀ later, later.length ≤ tokens.length → Accurate stop later)
    (refused : readGroup stop pos (lambda :: tokens) = .error refusal) :
    Pinpoints stop (ReadsGroup stop pos) Closed (lambda :: tokens) refusal := by
  rw [readGroup] at refused
  simp only [next, kind, error_bind] at refused
  rcases refused with impossible | ⟨_, _, givesLambda, refused⟩
  · simp [expectToken, expect, kind] at impossible
  obtain ⟨same, _⟩ := gives_expectToken.1 givesLambda
  cases same
  have atArrow := (completable_reads stop).behind Sample.arrow (by decide)
  refine .past [lambda] (fun _ _ => readsGroup_lambda kind) (fun _ _ => trivial) ?_
  rcases refused with refused | ⟨param, _, givesParam, refused⟩
  · exact .missing refused (atArrow.behind Sample.name (by decide))
  obtain ⟨rfl, kindParam⟩ := gives_expect.1 givesParam
  refine .behind ⟨param, kindParam⟩ ?_
  rcases refused with refused | ⟨arrow, _, givesArrow, refused⟩
  · exact .missing refused atArrow
  obtain ⟨rfl, kindArrow⟩ := gives_expectToken.1 givesArrow
  refine .behind ⟨arrow, kindArrow⟩ ?_
  rcases refused with refused | ⟨_, _, _, impossible⟩
  · exact parts _ (by simp; omega) _ refused
  · cases impossible

theorem pinpoints_args {tokens : List Token} {refusal : Refusal}
    (parts : ∀ later, later.length ≤ tokens.length → Accurate stop later)
    (refused : readArgs stop tokens = .error refusal) :
    Pinpoints stop (ReadsArgs stop) Closed tokens refusal := by
  cases tokens with
  | nil => simp [readArgs] at refused
  | cons token others =>
    rw [readArgs] at refused
    split at refused
    · cases refused
    rename_i kind
    simp only [error_bind] at refused
    rcases refused with refused | ⟨_, later, givesArg, refused⟩
    · have first := (parts _ (Nat.le_refl _)).pinpoints_thenPhrase refused (completable_readsArgs stop)
      refine first.last [] ?_ (fun _ => id) ?_
      · intro more left same reads
        obtain ⟨behind, rfl⟩ := List.head?_eq_some_iff.1 same
        exact ⟨left, (readsArgs_more kind).1 reads⟩
      · rintro more left _ _ ⟨arg, behind, rfl, reads⟩
        exact (readsArgs_append arg).2 reads
    · have fewer := givesArg.fewer
      obtain ⟨arg, whole, _⟩ := exists_phrase givesArg
      rcases refused with refused | ⟨_, _, _, impossible⟩
      · have further (more : List Token) (short : more.length ≤ later.length) : Accurate stop more := parts more (by omega)
        rw [whole]
        exact (pinpoints_args further refused).past arg.tokens (fun _ _ => readsArgs_append arg) fun _ => id
      · cases impossible
termination_by tokens.length

theorem pinpoints_call (notLet : (next stop tokens).kind ≠ .kwLet) (notLambda : (next stop tokens).kind ≠ .lambda)
    (parts : ∀ later, later.length ≤ tokens.length → Accurate stop later)
    (refused : readGroup stop pos tokens = .error refusal) :
    Pinpoints stop (ReadsGroup stop pos) Closed tokens refusal := by
  rw [readGroup] at refused
  split at refused
  · contradiction
  · contradiction
  simp only [error_bind] at refused
  have atFirst := completable_thenPhrase (completable_readsArgs stop)
  rcases refused with refused | ⟨_, middle, givesFn, refused⟩
  · refine ((parts _ (Nat.le_refl _)).pinpoints_thenPhrase refused atFirst).last [] ?_ (fun _ => id) ?_
    · intro others left same reads
      rw [← next_congr same] at notLet notLambda
      exact ⟨left, (readsGroup_call notLet notLambda).1 reads⟩
    · rintro others left _ _ ⟨fn, behind, rfl, args⟩
      exact (readsGroup_append fn).2 args
  have fewer := givesFn.fewer
  obtain ⟨fn, rfl, _⟩ := exists_phrase givesFn
  refine .past fn.tokens (fun _ _ => readsGroup_append fn) (fun _ => id) ?_
  rcases refused with refused | ⟨_, later, givesFirst, refused⟩
  · exact (parts _ fewer.le).pinpoints_thenPhrase refused (completable_readsArgs stop)
  have fewerLater := givesFirst.fewer
  obtain ⟨first, rfl, _⟩ := exists_phrase givesFirst
  rcases refused with refused | ⟨_, _, _, impossible⟩
  · have further (more : List Token) (short : more.length ≤ later.length) : Accurate stop more := parts more (by omega)
    exact pinpoints_behind first (pinpoints_args further refused)
  · cases impossible

theorem pinpoints_group (parts : ∀ later, later.length ≤ tokens.length → Accurate stop later)
    (refused : readGroup stop pos tokens = .error refusal) :
    Pinpoints stop (ReadsGroup stop pos) Closed tokens refusal := by
  by_cases isLet : (next stop tokens).kind = .kwLet
  · cases tokens with
    | nil => cases isLet
    | cons kwLet later => exact pinpoints_let isLet (fun later short => parts later (Nat.le_succ_of_le short)) refused
  by_cases isLambda : (next stop tokens).kind = .lambda
  · cases tokens with
    | nil => cases isLambda
    | cons lambda later =>
      exact pinpoints_lambda isLambda (fun later short => parts later (Nat.le_succ_of_le short)) refused
  · exact pinpoints_call isLet isLambda parts refused

/-- Wherever an expression is looked for, it is refused at the right place. -/
theorem accurate (stop : Position) : ∀ tokens : List Token, Accurate stop tokens
  | [], refusal, refused => by
    rw [read] at refused
    cases refused
    exact pinpoints_start (isAt_refuse _) fun others left same => not_reads (by simp [same])
  | token :: others, refusal, refused => by
    cases kind : token.kind with
    | number =>
      rw [read] at refused
      simp only [kind] at refused
      split at refused
      · cases refused
      · rename_i large
        cases refused
        refine pinpoints_start ⟨rfl, rfl⟩ fun later left same reads => ?_
        obtain ⟨rest, rfl⟩ := List.head?_eq_some_iff.1 same
        obtain ⟨_, gives⟩ := reads
        simp [read, kind, large] at gives
    | opening =>
      rw [read] at refused
      simp only [kind, error_bind] at refused
      rcases refused with refused | ⟨_, rest, gives, refused | ⟨_, _, _, impossible⟩⟩
      · have parts (later : List Token) (short : later.length ≤ others.length) : Accurate stop later := accurate stop later
        exact (pinpoints_group parts refused).inGroup (fun _ _ => reads_opening kind) (fun _ => closed_of_kind rfl)
      · have inside : ReadsGroup stop token.pos others rest := gives.takes
        exact .unclosed (fun _ _ => reads_opening kind) (fun _ => closed_of_kind rfl) Takes.unique inside.takesAgain refused
      · cases impossible
    | kwTrue | kwFalse | word => simp [read, kind] at refused
    | _ =>
      rw [read] at refused
      simp only [kind] at refused
      cases refused
      exact pinpoints_start (isAt_refuse _) fun later left same => not_reads (by simp [same, kind, startsPhrase])
termination_by tokens => tokens.length

end Refusals

section Alike

open Token (sign)

mutual
/-- Tokens with the signs of a phrase are derived by a phrase. -/
theorem Phrase.exists_alike {tokens : List Token} : ∀ phrase : Phrase, tokens.map sign = phrase.tokens.map sign →
    ∃ other : Phrase, other.tokens = tokens
  | .number token inRange, same => by
    obtain ⟨number, rest, rfl, text, nothing⟩ := Token.Of.exists_of_sign same
    obtain rfl := List.map_eq_nil_iff.1 nothing
    exact ⟨.number number (text ▸ inRange), rfl⟩
  | .truth token, same => by
    obtain ⟨truth, rest, rfl, _, nothing⟩ := Token.Of.exists_of_sign same
    obtain rfl := List.map_eq_nil_iff.1 nothing
    exact ⟨.truth truth, rfl⟩
  | .falsity token, same => by
    obtain ⟨falsity, rest, rfl, _, nothing⟩ := Token.Of.exists_of_sign same
    obtain rfl := List.map_eq_nil_iff.1 nothing
    exact ⟨.falsity falsity, rfl⟩
  | .name token, same => by
    obtain ⟨name, rest, rfl, _, nothing⟩ := Token.Of.exists_of_sign same
    obtain rfl := List.map_eq_nil_iff.1 nothing
    exact ⟨.name name, rfl⟩
  | .call opening fn args closing, same => by
    rw [Phrase.tokens] at same
    obtain ⟨opening', inside, rfl, _, same⟩ := Token.Of.exists_of_sign same
    rw [List.map_append, List.map_append] at same
    obtain ⟨fnTokens, inside, rfl, sameFn, same⟩ := List.map_eq_append_iff.1 same
    obtain ⟨argsTokens, inside, rfl, sameArgs, same⟩ := List.map_eq_append_iff.1 same
    obtain ⟨closing', rest, rfl, _, nothing⟩ := Token.Of.exists_of_sign same
    obtain rfl := List.map_eq_nil_iff.1 nothing
    obtain ⟨fn', rfl⟩ := fn.exists_alike sameFn
    obtain ⟨args', rfl⟩ := args.exists_alike sameArgs
    exact ⟨.call opening' fn' args' closing', rfl⟩
  | .func opening lambda param arrow body closing, same => by
    rw [Phrase.tokens] at same
    obtain ⟨opening', inside, rfl, _, same⟩ := Token.Of.exists_of_sign same
    obtain ⟨lambda', inside, rfl, _, same⟩ := Token.Of.exists_of_sign same
    obtain ⟨param', inside, rfl, _, same⟩ := Token.Of.exists_of_sign same
    obtain ⟨arrow', inside, rfl, _, same⟩ := Token.Of.exists_of_sign same
    rw [List.map_append] at same
    obtain ⟨bodyTokens, inside, rfl, sameBody, same⟩ := List.map_eq_append_iff.1 same
    obtain ⟨closing', rest, rfl, _, nothing⟩ := Token.Of.exists_of_sign same
    obtain rfl := List.map_eq_nil_iff.1 nothing
    obtain ⟨body', rfl⟩ := body.exists_alike sameBody
    exact ⟨.func opening' lambda' param' arrow' body' closing', rfl⟩
  | .letIn opening kwLet name equals value kwIn body closing, same => by
    rw [Phrase.tokens] at same
    obtain ⟨opening', inside, rfl, _, same⟩ := Token.Of.exists_of_sign same
    obtain ⟨kwLet', inside, rfl, _, same⟩ := Token.Of.exists_of_sign same
    obtain ⟨name', inside, rfl, _, same⟩ := Token.Of.exists_of_sign same
    obtain ⟨equals', inside, rfl, _, same⟩ := Token.Of.exists_of_sign same
    rw [List.map_append] at same
    obtain ⟨valueTokens, inside, rfl, sameValue, same⟩ := List.map_eq_append_iff.1 same
    obtain ⟨kwIn', inside, rfl, _, same⟩ := Token.Of.exists_of_sign same
    rw [List.map_append] at same
    obtain ⟨bodyTokens, inside, rfl, sameBody, same⟩ := List.map_eq_append_iff.1 same
    obtain ⟨closing', rest, rfl, _, nothing⟩ := Token.Of.exists_of_sign same
    obtain rfl := List.map_eq_nil_iff.1 nothing
    obtain ⟨value', rfl⟩ := value.exists_alike sameValue
    obtain ⟨body', rfl⟩ := body.exists_alike sameBody
    exact ⟨.letIn opening' kwLet' name' equals' value' kwIn' body' closing', rfl⟩

theorem Arguments.exists_alike {tokens : List Token} : ∀ args : Arguments, tokens.map sign = args.tokens.map sign →
    ∃ other : Arguments, other.tokens = tokens
  | .one arg, same => by
    rw [Arguments.tokens] at same
    obtain ⟨arg', rfl⟩ := arg.exists_alike same
    exact ⟨.one arg', by rw [Arguments.tokens]⟩
  | .more arg others, same => by
    rw [Arguments.tokens, List.map_append] at same
    obtain ⟨argTokens, later, rfl, sameArg, sameOthers⟩ := List.map_eq_append_iff.1 same
    obtain ⟨arg', rfl⟩ := arg.exists_alike sameArg
    obtain ⟨others', rfl⟩ := others.exists_alike sameOthers
    exact ⟨.more arg' others', by rw [Arguments.tokens]⟩
end

end Alike

theorem isAccurate_read : IsAccurate read (fun _ => True) fun tokens => ∃ phrase : Phrase, phrase.tokens = tokens where
  derives_iff stop tokens := by
    rw [← Reads, reads_iff]
    simp only [List.append_nil, eq_comm]
  alike := by
    rintro _ others same ⟨phrase, rfl⟩
    exact phrase.exists_alike same
  ends := trivial
  refused refused := accurate _ _ _ refused
  again := Reads.takesAgain

end HindleyMilner.Expr
