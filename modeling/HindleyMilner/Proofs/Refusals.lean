import HindleyMilner.Proofs.Scanning

/-! Readers that refuse a token.

A refusal points at a token. It is at the right place if the tokens before that one can still become a
whole text and no text goes on with that one. A reader is made of readers of the parts, and a refusal
of a part is a refusal of the whole: what is needed is that the whole cannot do without the part, and
that some tokens complete the whole where the part is complete.

For a grammar, a token is its kind and its text. Every list of tokens is spelled by some text, so what
holds for lists of tokens holds for texts. -/

set_option autoImplicit false

namespace HindleyMilner

open Token

/-- What the grammars see of a token. -/
def Token.sign (token : Token) : Token.Kind × String := (token.kind, token.text)

/-- What the grammars see of a text, with the end behind it. -/
def signs (text : String) : List (Token.Kind × String) :=
  (scan text.toList).1.map sign ++ [(.endOfInput, "")]

section Texts

variable {α : Type}

/-- Some text starts like this and is read. -/
def Viable (parse : String → Except SyntaxError α) (front : List (Token.Kind × String)) : Prop :=
  ∃ text value, parse text = .ok value ∧ front <+: signs text

/-- Every error is at the first token, possibly the end, that no text goes on with behind the tokens
before it. -/
def PointsAtFirst (parse : String → Except SyntaxError α) : Prop :=
  ∀ text error, parse text = .error error → ∃ before token after,
    (scan text.toList).1 ++ [.endAt (scan text.toList).2] = before ++ token :: after ∧ error.pos = token.pos ∧
      (∀ front, front <+: before → Viable parse (front.map sign)) ∧ ¬ Viable parse ((before ++ [token]).map sign)

end Texts

namespace Reader

variable {α β : Type} {bound wider : Nat} {stop : Position} {tokens rest left : List Token} {refusal : Refusal}

/-- A refusal of the first of these tokens, or of the end where there is none. -/
def IsAt (stop : Position) (tokens : List Token) (refusal : Refusal) : Prop :=
  refusal.rest = tokens ∧ refusal.error.pos = (next stop tokens).pos

theorem next_congr {others : List Token} (same : others.head? = tokens.head?) : next stop others = next stop tokens := by
  cases others <;> cases tokens <;> simp_all [next]

theorem isAt_refuse (what : Expected) : IsAt stop tokens (refuse stop what tokens) := ⟨rfl, rfl⟩

@[simp] theorem error_bind {step : Except Refusal (Read α bound)} {next : Read α bound → Except Refusal (Read β wider)} :
    step >>= next = .error refusal ↔ step = .error refusal ∨
      ∃ first middle, ∃ gives : Gives step first middle, next ⟨first, middle, gives.fewer⟩ = .error refusal := by
  cases step with
  | error other =>
    refine ⟨fun same => .inl (by cases same; rfl), ?_⟩
    rintro (same | ⟨_, _, gives, _⟩)
    · cases same
      rfl
    · exact absurd gives not_gives_error
  | ok read =>
    constructor
    · exact fun refused => .inr ⟨read.value, read.rest, ⟨read.fewer, rfl⟩, refused⟩
    · rintro (impossible | ⟨_, _, ⟨_, same⟩, refused⟩)
      · cases impossible
      · cases same
        exact refused

theorem isAt_of_expect {kind : Token.Kind} {what : Expected} (refused : expect stop kind what tokens = .error refusal) :
    IsAt stop tokens refusal ∧ ∀ token ∈ tokens.head?, token.kind ≠ kind := by
  cases tokens with
  | nil =>
    cases refused
    exact ⟨isAt_refuse what, by simp⟩
  | cons token others =>
    rw [expect] at refused
    split at refused
    · cases refused
    · rename_i differs
      cases refused
      exact ⟨isAt_refuse what, by simpa using differs⟩

def Takes (outcome : Except Refusal (Read α bound)) (left : List Token) : Prop := ∃ value, Gives outcome value left

theorem Gives.takes {outcome : Except Refusal (Read α bound)} {value : α} (gives : Gives outcome value left) :
    Takes outcome left := ⟨value, gives⟩

theorem Takes.fewer {outcome : Except Refusal (Read α bound)} (takes : Takes outcome left) : left.length < bound := by
  obtain ⟨_, gives⟩ := takes
  exact gives.fewer

theorem Takes.unique {outcome : Except Refusal (Read α bound)} (takes : Takes outcome rest) (other : Takes outcome left) :
    rest = left := by
  obtain ⟨_, _, rfl⟩ := takes
  obtain ⟨_, _, same⟩ := other
  cases same
  rfl

namespace Sample

def name : Token.Of .word := ⟨⟨.word, "x", default⟩, rfl⟩

def closing : Token.Of .closing := ⟨⟨.closing, ")", default⟩, rfl⟩

def kwIn : Token.Of .kwIn := ⟨⟨.kwIn, "in", default⟩, rfl⟩

def equals : Token.Of .equals := ⟨⟨.equals, "=", default⟩, rfl⟩

def arrow : Token.Of .arrow := ⟨⟨.arrow, "->", default⟩, rfl⟩

def dot : Token.Of .dot := ⟨⟨.dot, ".", default⟩, rfl⟩

end Sample

/-- With these tokens what was begun can be brought to an end. -/
def samples : List Token :=
  [Sample.name.val, Sample.closing.val, Sample.kwIn.val, Sample.equals.val, Sample.arrow.val, Sample.dot.val]

section Pinpoints

variable {takes part whole : List Token → List Token → Prop} {follows followsPart : List Token → Prop}

/-- Something made of samples is taken, in front of whatever may follow. -/
def Completable (takes : List Token → List Token → Prop) (follows : List Token → Prop) : Prop :=
  ∃ more, (∀ token ∈ more, token ∈ samples) ∧ ∀ left, follows left → takes (more ++ left) left

/-- Behind these tokens nothing can be read where `ahead` stands next, but something could be read if
some samples stood there. -/
structure Stuck (takes : List Token → List Token → Prop) (follows : List Token → Prop) (before : List Token)
    (ahead : Option Token) : Prop where
  hopeless : ∀ others left, others.head? = ahead → ¬ takes (before ++ others) left
  completable : Completable (fun tokens left => takes (before ++ tokens) left) follows

/-- What is taken in front of `rest` is taken again where the same token follows, or something that may follow. -/
def TakesAgain (takes : List Token → List Token → Prop) (follows : List Token → Prop) (tokens rest : List Token) : Prop :=
  ∃ inner, tokens = inner ++ rest ∧ ∀ others, others.head? = rest.head? ∨ follows others → takes (inner ++ others) others

theorem exists_inner {token : Token} {tokens inner rest : List Token} (whole : token :: tokens = inner ++ rest)
    (fewer : rest.length < (token :: tokens).length) : ∃ others, inner = token :: others := by
  cases inner with
  | nil => exact absurd fewer (by rw [whole]; exact Nat.lt_irrefl _)
  | cons first others => exact ⟨others, by rw [(List.cons.inj whole).1]⟩

/-- The refusal is of the token that these tokens are stuck at. -/
structure Pinpoints (stop : Position) (takes : List Token → List Token → Prop) (follows : List Token → Prop)
    (tokens : List Token) (refusal : Refusal) : Prop where
  pos : refusal.error.pos = (next stop refusal.rest).pos
  stuck : ∃ before, tokens = before ++ refusal.rest ∧ Stuck takes follows before refusal.rest.head?

theorem Pinpoints.here (before : List Token) (place : IsAt stop rest refusal)
    (hopeless : ∀ others left, others.head? = rest.head? → ¬ takes (before ++ others) left)
    (completable : Completable (fun tokens left => takes (before ++ tokens) left) follows) :
    Pinpoints stop takes follows (before ++ rest) refusal := by
  obtain ⟨rfl, pos⟩ := place
  exact ⟨pos, before, rfl, hopeless, completable⟩

/-- Where the part stands behind `front` in the whole and `close` completes it, what is refused in the
part is refused in the whole. Both have to be known only for tokens that start as these do, or with a
sample. -/
theorem Pinpoints.within (pinpoints : Pinpoints stop part followsPart tokens refusal) (front close : List Token)
    (inside : ∀ others left, others.head? = tokens.head? → whole (front ++ others) left → ∃ middle, part others middle)
    (listed : ∀ token ∈ close, token ∈ samples)
    (closes : ∀ left, follows left → followsPart (close ++ left))
    (around : ∀ others left, (others.head? = tokens.head? ∨
        ∃ more, others = more ++ (close ++ left) ∧ ∀ token ∈ more, token ∈ samples) → follows left →
      part others (close ++ left) → whole (front ++ others) left) :
    Pinpoints stop whole follows (front ++ tokens) refusal := by
  obtain ⟨pos, before, rfl, hopeless, more, sampled, completes⟩ := pinpoints
  refine ⟨pos, front ++ before, (List.append_assoc ..).symm, ?_, more ++ close, ?_, ?_⟩
  · intro others left ahead taken
    rw [List.append_assoc] at taken
    have sameHead : (before ++ others).head? = (before ++ refusal.rest).head? := by
      rw [List.head?_append, List.head?_append, ahead]
    obtain ⟨middle, taken⟩ := inside _ left sameHead taken
    exact hopeless others middle ahead taken
  · exact List.forall_mem_append.2 ⟨sampled, listed⟩
  · intro left follow
    have taken := completes (close ++ left) (closes left follow)
    rw [List.append_assoc, List.append_assoc]
    refine around _ left ?_ follow taken
    cases before with
    | nil => exact .inr ⟨more, rfl, sampled⟩
    | cons token before => exact .inl rfl

/-- The part comes last in the whole. -/
theorem Pinpoints.last (pinpoints : Pinpoints stop part followsPart tokens refusal) (front : List Token)
    (inside : ∀ others left, others.head? = tokens.head? → whole (front ++ others) left → ∃ middle, part others middle)
    (closes : ∀ left, follows left → followsPart left)
    (around : ∀ others left, (others.head? = tokens.head? ∨
        ∃ more, others = more ++ left ∧ ∀ token ∈ more, token ∈ samples) → follows left →
      part others left → whole (front ++ others) left) :
    Pinpoints stop whole follows (front ++ tokens) refusal :=
  pinpoints.within front [] inside (List.forall_mem_nil _) closes around

section Past

variable (front : List Token) (same : ∀ others left, whole (front ++ others) left ↔ part others left)
  (closes : ∀ left, follows left → followsPart left)
include same closes

/-- Past `front` the whole is the part. -/
theorem Pinpoints.past (pinpoints : Pinpoints stop part followsPart tokens refusal) :
    Pinpoints stop whole follows (front ++ tokens) refusal :=
  pinpoints.last front (fun others left _ taken => ⟨left, (same others left).1 taken⟩) closes
    fun others left _ _ => (same others left).2

theorem TakesAgain.past (again : TakesAgain part followsPart tokens rest) :
    TakesAgain whole follows (front ++ tokens) rest := by
  obtain ⟨inner, rfl, again⟩ := again
  refine ⟨front ++ inner, (List.append_assoc ..).symm, fun others follow => ?_⟩
  rw [List.append_assoc]
  exact (same _ others).2 (again others (follow.imp_right (closes others)))

end Past

section Sequences

variable {kind : Token.Kind} {after : List Token → List Token → Prop}

def Then (kind : Token.Kind) (after : List Token → List Token → Prop) (tokens left : List Token) : Prop :=
  ∃ (token : Token.Of kind) (rest : List Token), tokens = token.val :: rest ∧ after rest left

theorem then_cons (token : Token.Of kind) : Then kind after (token.val :: tokens) left ↔ after tokens left := by
  constructor
  · rintro ⟨_, rest, whole, taken⟩
    obtain ⟨_, rfl⟩ := List.cons.inj whole
    exact taken
  · exact fun taken => ⟨token, tokens, rfl, taken⟩

theorem Then.takesAgain (again : ∀ tokens rest, after tokens rest → TakesAgain after follows tokens rest)
    (taken : Then kind after tokens rest) : TakesAgain (Then kind after) follows tokens rest := by
  obtain ⟨token, later, rfl, taken⟩ := taken
  exact (again later rest taken).past [token.val] (fun _ _ => then_cons token) fun _ => id

theorem Completable.behind (completable : Completable after follows) (token : Token.Of kind) (listed : token.val ∈ samples) :
    Completable (Then kind after) follows := by
  obtain ⟨more, sampled, completes⟩ := completable
  exact ⟨token.val :: more, List.forall_mem_cons.2 ⟨listed, sampled⟩,
    fun left follow => ⟨token, more ++ left, rfl, completes left follow⟩⟩

/-- The token that has to come first is missing. -/
theorem Pinpoints.missing {what : Expected} (refused : expect stop kind what tokens = .error refusal)
    (completable : Completable (Then kind after) follows) : Pinpoints stop (Then kind after) follows tokens refusal := by
  obtain ⟨place, differs⟩ := isAt_of_expect refused
  refine .here [] place ?_ completable
  rintro others left same ⟨token, rest, rfl, _⟩
  exact differs token.val same.symm token.property

theorem Pinpoints.behind (token : Token.Of kind) (pinpoints : Pinpoints stop after follows tokens refusal) :
    Pinpoints stop (Then kind after) follows (token.val :: tokens) refusal :=
  pinpoints.past [token.val] (fun _ _ => then_cons token) (fun _ => id)

end Sequences

section Groups

variable {opening : Token}
  (group : ∀ tokens left, whole (opening :: tokens) left ↔ ∃ closing : Token.Of .closing, part tokens (closing.val :: left))
  (closes : ∀ left, followsPart (Sample.closing.val :: left))
include group closes

theorem Pinpoints.inGroup (pinpoints : Pinpoints stop part followsPart tokens refusal) :
    Pinpoints stop whole follows (opening :: tokens) refusal := by
  refine pinpoints.within [opening] [Sample.closing.val] (fun others left _ taken => ?_) (by decide)
    (fun left _ => closes left) fun others left _ _ taken => (group others left).2 ⟨Sample.closing, taken⟩
  obtain ⟨closing, taken⟩ := (group others left).1 taken
  exact ⟨_, taken⟩

theorem Pinpoints.unclosed (unique : ∀ {tokens rest left}, part tokens rest → part tokens left → rest = left)
    (again : TakesAgain part followsPart tokens rest) (refused : expectToken stop .closing rest = .error refusal) :
    Pinpoints stop whole follows (opening :: tokens) refusal := by
  obtain ⟨inner, rfl, again⟩ := again
  obtain ⟨place, differs⟩ := isAt_of_expect refused
  refine .here (opening :: inner) place (fun others left same taken => ?_) ⟨[Sample.closing.val], by decide,
    fun left _ => (group _ left).2 ⟨Sample.closing, again _ (.inr (closes left))⟩⟩
  obtain ⟨closing, taken⟩ := (group _ left).1 taken
  obtain rfl := unique (again others (.inl same)) taken
  exact differs closing.val same.symm closing.property

end Groups

end Pinpoints

end Reader

namespace Token

/-- A text that is cut into tokens like these, if each of them is the token of its text. -/
def spell (tokens : List Token) : List Char := tokens.flatMap fun token => token.text.toList ++ [' ']

theorem exists_cuts_spell {tokens : List Token} (lexes : ∀ token ∈ tokens, Lexes token.kind token.text) (pos : Position) :
    ∃ found, found.map sign = tokens.map sign ∧ Cuts pos (spell tokens) [] found := by
  induction tokens generalizing pos with
  | nil => exact ⟨[], rfl, .nil⟩
  | cons token others ih =>
    rw [List.forall_mem_cons] at lexes
    have space : Cuts (pos.past token.text.toList) [' '] (spell others ++ []) [] := .blanks (by simp; decide)
    obtain ⟨found, same, cuts⟩ := ih lexes.2 ((pos.past token.text.toList).past [' '])
    refine ⟨⟨token.kind, token.text, pos⟩ :: found, by simp [sign, same], ?_⟩
    have whole := lexes.1.cuts_space.append (space.append cuts)
    rwa [← List.append_assoc] at whole

theorem scan_spell {tokens : List Token} (lexes : ∀ token ∈ tokens, Lexes token.kind token.text) :
    (scan (spell tokens)).1.map sign = tokens.map sign := by
  obtain ⟨found, same, cuts⟩ := exists_cuts_spell lexes .start
  rw [cuts.scan, same]

theorem kind_ne_endOfInput {text : List Char} {token : Token} (mem : token ∈ (scan text).1) : token.kind ≠ .endOfInput := by
  intro kind
  have lexes := (lexes_of_mem mem).1
  rw [kind] at lexes
  rcases lexes.cases with symbol | ⟨number, _⟩ | word
  · exact absurd symbol (by decide)
  · cases number
  · have listed := Lexeme.kindOfWord_mem token.text.toList
    rw [word] at listed
    exact absurd listed (by decide)

theorem lexes_of_mem_samples : ∀ token ∈ Reader.samples, Lexes token.kind token.text := by decide

theorem exists_of_sign {token : Token} {tokens : List Token} {others : List (Kind × String)}
    (same : tokens.map sign = token.sign :: others) :
    ∃ first rest, tokens = first :: rest ∧ first.kind = token.kind ∧ first.text = token.text ∧ rest.map sign = others := by
  obtain ⟨first, rest, whole, sameSign, isRest⟩ := List.map_eq_cons_iff.1 same
  obtain ⟨kind, text⟩ := Prod.mk.inj sameSign
  exact ⟨first, rest, whole, kind, text, isRest⟩

theorem Of.exists_of_sign {kind : Kind} {token : Token.Of kind} {tokens : List Token} {others : List (Kind × String)}
    (same : tokens.map sign = token.val.sign :: others) :
    ∃ (first : Token.Of kind) (rest : List Token), tokens = first.val :: rest ∧ first.val.text = token.val.text ∧
      rest.map sign = others := by
  obtain ⟨first, rest, whole, sameKind, text, isRest⟩ := Token.exists_of_sign same
  exact ⟨⟨first, sameKind.trans token.property⟩, rest, whole, text, isRest⟩

end Token

namespace Reader

section Texts

variable {α : Type} {after : Category} {reader : Position → (tokens : List Token) → Except Refusal (Read α tokens.length)}
  {follows : List Token → Prop} {Derives : List Token → Prop}

/-- A reader of what a grammar derives, that refuses the right tokens. -/
structure IsAccurate (reader : Position → (tokens : List Token) → Except Refusal (Read α tokens.length))
    (follows Derives : List Token → Prop) : Prop where
  derives_iff : ∀ stop tokens, Takes (reader stop tokens) [] ↔ Derives tokens
  /-- Nothing but the signs of the tokens matters to the grammar. -/
  alike : ∀ {tokens others}, others.map sign = tokens.map sign → Derives tokens → Derives others
  ends : follows []
  refused : ∀ {stop tokens refusal}, reader stop tokens = .error refusal →
    Pinpoints stop (fun tokens left => Takes (reader stop tokens) left) follows tokens refusal
  again : ∀ {stop tokens rest}, Takes (reader stop tokens) rest →
    TakesAgain (fun tokens left => Takes (reader stop tokens) left) follows tokens rest

namespace IsAccurate

variable (accurate : IsAccurate reader follows Derives)
include accurate

theorem exists_readAll_iff (after : Category) (text : String) :
    (∃ value, readAll after reader text = .ok value) ↔ Derives (scan text.toList).1 := by
  rw [← accurate.derives_iff (scan text.toList).2]
  exact exists_congr fun value => readAll_eq_ok_iff

/-- The tokens before the one that is refused can go on, but not with that one. -/
theorem exists_stuck {text : String} {error : SyntaxError} (failed : readAll after reader text = .error error) :
    ∃ before rest, (scan text.toList).1 = before ++ rest ∧ error.pos = (next (scan text.toList).2 rest).pos ∧
      (∃ more, (∀ token ∈ more, token ∈ samples) ∧ Derives (before ++ more)) ∧
      ∀ others, others.head? = rest.head? → ¬ Derives (before ++ others) := by
  unfold readAll at failed
  dsimp only at failed
  cases read : reader (scan text.toList).2 (scan text.toList).1 with
  | error refusal =>
    rw [read] at failed
    cases failed
    obtain ⟨pos, before, whole, hopeless, more, listed, completes⟩ := accurate.refused read
    refine ⟨before, refusal.rest, whole, pos, ⟨more, listed, ?_⟩, fun others same derives => ?_⟩
    · have taken := completes [] accurate.ends
      rwa [List.append_nil, accurate.derives_iff] at taken
    · exact hopeless others [] same ((accurate.derives_iff _ _).2 derives)
  | ok found =>
    have taken : Takes (reader (scan text.toList).2 (scan text.toList).1) found.rest := ⟨found.value, found.fewer, read⟩
    obtain ⟨inner, whole, again⟩ := accurate.again taken
    rw [read] at failed
    cases left : found.rest with
    | nil => simp [left, expectEnd] at failed
    | cons token others =>
      rw [left] at whole again
      refine ⟨inner, token :: others, whole, ?_, ⟨[], List.forall_mem_nil _, ?_⟩, fun more same derives => ?_⟩
      · simp only [left, expectEnd] at failed
        cases failed
        rfl
      · exact (accurate.derives_iff _ _).1 (again [] (.inr accurate.ends))
      · -- All of the tokens would be taken, and so would `inner` alone.
        have all := (accurate.derives_iff (scan text.toList).2 _).2 derives
        obtain rfl := (again more (.inl same)).unique all
        cases same

/-- A text that spells the tokens before with samples behind them is read. -/
theorem viable {before more front : List Token} (lexes : ∀ token ∈ before, Lexes token.kind token.text)
    (listed : ∀ token ∈ more, token ∈ samples) (derives : Derives (before ++ more)) (inside : front <+: before) :
    Viable (readAll after reader) (front.map sign) := by
  have all : ∀ token ∈ before ++ more, Lexes token.kind token.text :=
    List.forall_mem_append.2 ⟨lexes, fun token mem => lexes_of_mem_samples token (listed token mem)⟩
  have spelled := scan_spell all
  have derivesFound := accurate.alike spelled derives
  rw [← String.toList_ofList (l := spell (before ++ more))] at spelled derivesFound
  obtain ⟨value, read⟩ := (accurate.exists_readAll_iff after _).2 derivesFound
  refine ⟨_, value, read, ?_⟩
  rw [signs, spelled, List.map_append, List.append_assoc]
  exact (inside.map sign).trans (List.prefix_append _ _)

theorem not_viable {stop : Position} {before rest : List Token} (known : ∀ token ∈ rest, token.kind ≠ .endOfInput)
    (hopeless : ∀ others, others.head? = rest.head? → ¬ Derives (before ++ others)) :
    ¬ Viable (readAll after reader) ((before ++ [next stop rest]).map sign) := by
  rintro ⟨text, value, read, starts⟩
  have derives := (accurate.exists_readAll_iff after text).1 ⟨value, read⟩
  rw [signs, List.prefix_concat_iff, List.map_append] at starts
  rcases starts with all | ⟨later, inside⟩
  · obtain ⟨same, isEnd⟩ := List.append_inj' all rfl
    cases rest with
    | nil => exact hopeless [] rfl (by rw [List.append_nil]; exact accurate.alike same derives)
    | cons token others =>
      have kind := (Prod.mk.inj (List.cons.inj isEnd).1).1
      exact known token List.mem_cons_self kind
  · obtain ⟨front, behind, whole, same, isLater⟩ := List.map_eq_append_iff.1 inside.symm
    cases rest with
    | nil =>
      have mem : (endAt stop).sign ∈ (scan text.toList).1.map sign := by
        rw [← inside]
        simp [next]
      obtain ⟨token, scanned, isEnd⟩ := List.mem_map.1 mem
      exact kind_ne_endOfInput scanned (Prod.mk.inj isEnd).1
    | cons token others =>
      refine hopeless (token :: behind) rfl (accurate.alike ?_ derives)
      rw [whole, List.map_append, List.map_append, same]
      simp [next]

end IsAccurate

/-- An accurate reader points at the first token that is impossible. -/
theorem IsAccurate.pointsAtFirst (accurate : IsAccurate reader follows Derives) (after : Category) :
    PointsAtFirst (readAll after reader) := by
  intro text error failed
  obtain ⟨before, rest, whole, pos, ⟨more, listed, derives⟩, hopeless⟩ := accurate.exists_stuck failed
  have lexes (token : Token) (mem : token ∈ before) : Lexes token.kind token.text := by
    have scanned : token ∈ (scan text.toList).1 := whole ▸ List.mem_append_left _ mem
    exact (lexes_of_mem scanned).1
  have known (token : Token) (mem : token ∈ rest) : token.kind ≠ .endOfInput := by
    have scanned : token ∈ (scan text.toList).1 := whole ▸ List.mem_append_right _ mem
    exact kind_ne_endOfInput scanned
  have first : ∃ after, (scan text.toList).1 ++ [.endAt (scan text.toList).2] =
      before ++ next (scan text.toList).2 rest :: after := by
    rw [whole, List.append_assoc]
    cases rest with
    | nil => exact ⟨[], rfl⟩
    | cons token others => exact ⟨others ++ [.endAt (scan text.toList).2], rfl⟩
  obtain ⟨behind, split⟩ := first
  exact ⟨before, _, behind, split, pos, fun front inside => accurate.viable lexes listed derives inside,
    accurate.not_viable known hopeless⟩

end Texts

end Reader

end HindleyMilner
