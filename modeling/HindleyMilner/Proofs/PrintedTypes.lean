import HindleyMilner.Proofs.Definitions
import HindleyMilner.Proofs.Lexing
import HindleyMilner.Proofs.Signature
import HindleyMilner.Proofs.TypeGrammar

/-! The text of a type reads back as the type, and the text of a scheme with one quantifier as the scheme.

A type is writable if its variables and constructors are words that their first letters tell apart,
and its function types have their two sides. Where a type stands decides what kind of phrase its text
is: at the top a phrase, as a domain an application, and as an argument an atom. What inference finds
in an environment of writable types is writable. -/

set_option autoImplicit false

namespace HindleyMilner

open Lexeme
open Token (Cuts CutsInto CutsIntoToken Lexes cutsInto_opening cutsInto_closing)

namespace Signature

/-- Variables are words that do not start in upper case, and constructors are words that do; a
function type has two arguments. -/
def written : Signature where
  var name := Lexes .word name ∧ Ty.isVarName name = true
  app con count := if con = Ty.arrowName then count = 2 else Lexes .word con ∧ Ty.isVarName con = false

instance : DecidablePred written.var := fun _ => inferInstanceAs (Decidable (_ ∧ _))

instance (con : String) (count : Nat) : Decidable (written.app con count) :=
  inferInstanceAs (Decidable (if con = Ty.arrowName then count = 2 else Lexes .word con ∧ Ty.isVarName con = false))

theorem basic_written : written.Basic := ⟨by decide, by decide, by decide⟩

end Signature

namespace Ty

def IsWritable (t : Ty) : Prop := t.Within .written

instance : DecidablePred IsWritable := fun t => inferInstanceAs (Decidable (t.Within .written))

/-- The text is cut into a phrase for the type, unless what follows goes on with a word. -/
def CutAs {α : Type} (tokensOf : α → List Token) (typeOf : α → Ty) (t : Ty) (text : String) : Prop :=
  ∀ rest, Apart rest → CutsInto tokensOf (fun phrase => typeOf phrase = t) text.toList rest

def Fills : Place → Ty → String → Prop
  | .top => CutAs Phrase.tokens Phrase.type
  | .domain => CutAs Applied.tokens Applied.type
  | .argument => CutAs Atom.tokens Atom.type

section Fills

variable {t param result : Ty} {text left right : String}

theorem Fills.top (fills : Fills .domain t text) : Fills .top t text := fun rest apart =>
  (fills rest apart).map Phrase.applied (fun _ => by rw [Phrase.tokens]) fun _ same => by rw [Phrase.type, same]

theorem Fills.domain (fills : Fills .argument t text) : Fills .domain t text := fun rest apart =>
  (fills rest apart).map Applied.atom (fun _ => by rw [Applied.tokens]) fun _ same => by rw [Applied.type, same]

theorem Fills.anywhere (fills : Fills .argument t text) : ∀ place, Fills place t text
  | .top => fills.domain.top
  | .domain => fills.domain
  | .argument => fills

theorem Fills.parens (fills : Fills .top t text) : Fills .argument t ("(" ++ text ++ ")") := by
  intro rest apart start
  have pieces : ("(" ++ text ++ ")").toList = ['('] ++ (text.toList ++ [')']) := by simp
  have cuts := cutsInto_opening.append ((fills _ apart_closing).append (cutsInto_closing rest))
  obtain ⟨⟨opening, phrase, closing⟩, ⟨_, same, _⟩, cuts⟩ := cuts start
  rw [pieces]
  refine ⟨.group opening phrase closing, by simpa only [Atom.type] using same, ?_⟩
  rw [Atom.tokens]
  exact cuts

theorem Fills.arrow (fillsDomain : Fills .domain param left) (fillsCodomain : Fills .top result right) :
    Fills .top (.arrow param result) (left ++ " -> " ++ right) := by
  intro rest apart start
  have arrow : Lexes .arrow "->" := by decide
  have pieces : (left ++ " -> " ++ right).toList = (left.toList ++ [' ']) ++ (("->".toList ++ [' ']) ++ right.toList) := by
    simp
  have cuts := (fillsDomain _ apart_space).space.append
    ((arrow.cutsInto (by decide) apart_space).space.append (fillsCodomain rest apart))
  obtain ⟨⟨domain, arrow, codomain⟩, ⟨sameDomain, _, sameCodomain⟩, cuts⟩ := cuts start
  rw [pieces]
  refine ⟨.arrow domain arrow codomain, by simp only [Phrase.type, sameDomain, sameCodomain], ?_⟩
  rw [Phrase.tokens]
  exact cuts

end Fills

/-- Wherever it stands, the type has a text that is cut into a phrase for it. -/
def ReadsBack (t : Ty) : Prop := ∀ place, ∃ text, renderAt place t = .ok text ∧ Fills place t text

section ReadsBack

variable {name con : String} {domain codomain t : Ty} {args : List Ty}

theorem readsBack_var (isVar : Signature.written.var name) : (Ty.var name).ReadsBack := by
  have fills : Fills .argument (.var name) name := fun rest apart pos =>
    ⟨.var ⟨⟨.word, name, pos⟩, rfl, isVar.2⟩, by simp only [Atom.type], isVar.1.cuts (by decide) apart⟩
  exact fun place => ⟨name, by rw [renderAt], fills.anywhere place⟩

theorem ReadsBack.arrow (readsDomain : domain.ReadsBack) (readsCodomain : codomain.ReadsBack) :
    (Ty.arrow domain codomain).ReadsBack := by
  obtain ⟨left, rendersLeft, fillsLeft⟩ := readsDomain .domain
  obtain ⟨right, rendersRight, fillsRight⟩ := readsCodomain .top
  have fills := fillsLeft.arrow fillsRight
  intro place
  refine ⟨Ty.parens (place ≠ .top) (left ++ " -> " ++ right), ?_, ?_⟩
  · rw [Ty.arrow, renderAt, if_pos rfl, rendersLeft, rendersRight]
    rfl
  · cases place with
    | top => exact fills
    | domain => exact fills.parens.domain
    | argument => exact fills.parens

theorem readsBack_const (isCon : Lexes .word name ∧ isVarName name = false) (notArrow : name ≠ arrowName) :
    (Ty.const name).ReadsBack := by
  have fills : Fills .argument (.const name) name := fun rest apart pos =>
    ⟨.con ⟨⟨.word, name, pos⟩, rfl, isCon.2⟩, by simp only [Atom.type], isCon.1.cuts (by decide) apart⟩
  exact fun place => ⟨name, by rw [const, renderAt, if_neg notArrow], fills.anywhere place⟩

/-- The text of arguments starts with a space unless there are none. -/
theorem exists_renderArgs (reads : ∀ t ∈ args, t.ReadsBack) :
    ∃ text, renderArgs args = .ok text ∧ ∀ rest, Apart rest → Apart (text.toList ++ rest) ∧
      CutsInto Atoms.tokens (fun atoms => atoms.types = args) text.toList rest := by
  induction args with
  | nil => exact ⟨"", by rw [renderArgs], fun rest apart => ⟨apart, fun pos => ⟨.none, by simp only [Atoms.types], .nil⟩⟩⟩
  | cons t args ih =>
    obtain ⟨readsFirst, readsOthers⟩ := List.forall_mem_cons.1 reads
    obtain ⟨first, rendersFirst, fillsFirst⟩ := readsFirst .argument
    obtain ⟨others, rendersOthers, cutsOthers⟩ := ih readsOthers
    have pieces : (" " ++ first ++ others).toList = ' ' :: (first.toList ++ others.toList) := by simp
    refine ⟨" " ++ first ++ others, by rw [renderArgs, rendersFirst, rendersOthers]; rfl, fun rest apart => ?_⟩
    rw [pieces]
    refine ⟨apart_space, ?_⟩
    obtain ⟨apartOthers, cutsOthers⟩ := cutsOthers rest apart
    exact ((fillsFirst _ apartOthers).append cutsOthers).afterSpace.map (fun both => .more both.1 both.2)
      (fun both => by rw [Atoms.tokens]) fun both same => by rw [Atoms.types, same.1, same.2]

theorem ReadsBack.app (isCon : Lexes .word con ∧ isVarName con = false) (notArrow : con ≠ arrowName)
    (some : args ≠ []) (reads : ∀ t ∈ args, t.ReadsBack) : (Ty.app con args).ReadsBack := by
  obtain ⟨text, renders, cuts⟩ := exists_renderArgs reads
  have fills : Fills .domain (.app con args) (con ++ text) := by
    intro rest apart
    obtain ⟨apartArgs, cutsArgs⟩ := cuts rest apart
    intro start
    obtain ⟨atoms, same, cuts⟩ := cutsArgs (start.past con.toList)
    refine ⟨.con ⟨⟨.word, con, start⟩, rfl, isCon.2⟩ atoms, by simp only [Applied.type, same], ?_⟩
    rw [String.toList_append, Applied.tokens]
    exact (isCon.1.cuts (by decide) apartArgs).append cuts
  intro place
  refine ⟨Ty.parens (place = .argument) (con ++ text), ?_, ?_⟩
  · unfold renderAt
    rw [if_neg notArrow]
    split
    · contradiction
    · rw [renders]
      rfl
  · cases place with
    | top => exact fills.top
    | domain => exact fills
    | argument => exact fills.top.parens

theorem IsWritable.readsBack (writable : t.IsWritable) : t.ReadsBack := by
  unfold IsWritable at writable
  induction t using argsInduction with
  | absent => exact absurd writable not_within_absent
  | var name => exact readsBack_var (within_var.1 writable)
  | app con args ih =>
    obtain ⟨isApp, writableArgs⟩ := within_app.1 writable
    have reads (t : Ty) (mem : t ∈ args) : t.ReadsBack := ih t mem (writableArgs t mem)
    by_cases isArrow : con = arrowName
    · obtain ⟨domain, codomain, rfl⟩ := List.length_eq_two.1 ((if_pos isArrow).mp isApp)
      subst isArrow
      exact (reads domain (by simp)).arrow (reads codomain (by simp))
    · have isCon := (if_neg isArrow).mp isApp
      cases args with
      | nil => exact readsBack_const isCon isArrow
      | cons first others => exact .app isCon isArrow (List.cons_ne_nil _ _) reads

end ReadsBack

theorem IsWritable.fills {t : Ty} {text : String} (writable : t.IsWritable) (renders : t.render = .ok text) : Fills .top t text := by
  obtain ⟨same, rendersSame, fills⟩ := writable.readsBack .top
  obtain rfl : same = text := Except.ok.inj (rendersSame.symm.trans renders)
  exact fills

/-- A writable type has a text, and the text is the type again. -/
theorem IsWritable.exists_parse {t : Ty} (writable : t.IsWritable) : ∃ text, t.render = .ok text ∧ parse text = .ok t := by
  obtain ⟨text, renders, fills⟩ := writable.readsBack .top
  obtain ⟨phrase, same, cuts⟩ := fills [] apart_nil .start
  exact ⟨text, renders, parse_eq_ok_iff.2 ⟨phrase, cuts.scan.symm, same⟩⟩

end Ty

theorem Token.lexes_letter_numerals {digits : List Char} (numerals : ∀ c ∈ digits, Text.isNumeral c = true) :
    Lexes .word (String.ofList ('t' :: digits)) := by
  have goesOn : digits.takeWhile continuesWord = digits :=
    List.takeWhile_eq_self_iff.2 fun c mem => continuesWord_of_isNumeral (numerals c mem)
  have word : leading 't' digits =
    (kindOfWord ('t' :: digits.takeWhile continuesWord), digits.takeWhile continuesWord) := rfl
  -- The only keyword with this letter goes on with a letter.
  have noKeyword : digits ≠ ['r', 'u', 'e'] := by
    rintro rfl
    exact Bool.false_ne_true (numerals 'r' List.mem_cons_self)
  refine lexes_of_leading (by decide) ?_
  rw [word, goesOn]
  simp [kindOfWord, noKeyword]

theorem Supply.toList_numbered (k : Nat) : (numbered k).toList = 't' :: k.repr.toList := by
  rw [numbered, String.toList_append]
  rfl

/-- Numbered variables are written like other variables. -/
theorem Signature.written_numbered (k : Nat) : written.var (Supply.numbered k) := by
  have text : Supply.numbered k = String.ofList ('t' :: k.repr.toList) := by
    rw [← Supply.toList_numbered, String.ofList_toList]
  constructor
  · rw [text]
    refine Token.lexes_letter_numerals fun c mem => ?_
    rw [Nat.toList_repr] at mem
    have digit : c.isDigit = true := Nat.isDigit_of_mem_toDigits (by decide) (by decide) mem
    simpa [Text.isNumeral, Char.isDigit, Char.le_def] using digit
  · have notUpper : Text.isUpper 't' = false := by decide
    simp [Ty.isVarName, Supply.toList_numbered, notUpper]

def Env.IsWritable (env : Env) : Prop := env.Within .written

theorem Session.isWritable_infer {session : Session} {env : Env} {expr : Expr} {found : Typing} (writable : env.IsWritable)
    (fits : session.Fits env expr) (answered : (session.infer env expr).outcome = .ok found) : found.type.IsWritable := by
  obtain ⟨n, start, fits⟩ := fits
  refine within_infer Signature.basic_written writable (by rw [start]; rfl) (fun name mem => ?_) answered
  rw [start] at mem
  obtain ⟨k, _, rfl⟩ := Supply.exists_numbered_of_mem (Nat.le_of_lt fits) mem
  exact Signature.written_numbered k

/-- Writable types are read back from their texts, so two of them with the same text are the same. The
type inferred in an environment of writable types is one of them, while the counter stays within its
64 bits: a variable with a negative number is not a word. -/
theorem Ty.parse_render :
    (∀ t : Ty, t.IsWritable → ∃ text, t.render = .ok text ∧ parse text = .ok t) ∧
    (∀ first second : Ty, first.IsWritable → second.IsWritable → first.render = second.render → first = second) ∧
    ∀ (session : Session) (env : Env) (expr : Expr) (found : Typing), env.IsWritable → session.Fits env expr →
      (session.infer env expr).outcome = .ok found →
        ∃ text, found.type.render = .ok text ∧ parse text = .ok found.type := by
  refine ⟨fun t writable => writable.exists_parse, fun first second writable writableSecond same => ?_, ?_⟩
  · obtain ⟨text, renders, parses⟩ := writable.exists_parse
    obtain ⟨textSecond, rendersSecond, parsesSecond⟩ := writableSecond.exists_parse
    rw [renders, rendersSecond, Except.ok.injEq] at same
    rw [same, parsesSecond] at parses
    exact (Except.ok.inj parses).symm
  · intro session env expr found writable fits answered
    exact (Session.isWritable_infer writable fits answered).exists_parse

/-- Functions keep their parentheses in front of an arrow and under a constructor. The type of a
function that wraps its argument is read back. -/
theorem Ty.parse_render_nested :
    let nested : Ty := .arrow (.arrow (.var "a") (.var "b'")) (.app "Map" [.arrow .int (.var "a"), .const "Set"])
    let env : Env := Env.extend ∅ "list" ⟨["a"], .arrow (.var "a") (.app "List" [.var "a"])⟩
    let wrap : Expr := .func "x" (.call (.var "list" {}) (.var "x" {}) {}) {}
    nested.render = .ok "(a -> b') -> Map (Int -> a) Set" ∧ (∃ text, nested.render = .ok text ∧ parse text = .ok nested) ∧
    (∀ other : Ty, other.IsWritable → nested.render = other.render → nested = other) ∧
    ∃ found, (Session.infer {} env wrap).outcome = .ok found ∧ found.type = .arrow (.var "t0") (.app "List" [.var "t0"]) ∧
      ∃ text, found.type.render = .ok text ∧ parse text = .ok found.type := by
  intro nested env wrap
  have writable : nested.IsWritable := by decide
  have writableEnv : env.IsWritable := Env.Within.extend (fun name scheme lookup => nomatch lookup) (by decide)
  have fits : Session.Fits {} env wrap := ⟨0, rfl, by unfold Infer.Fits; cbv⟩
  obtain ⟨found, answered, type⟩ := Session.exists_ok_of_type
    (show (Session.infer {} env wrap).outcome.toOption.map Typing.type =
      some (.arrow (.var "t0") (.app "List" [.var "t0"])) by cbv)
  refine ⟨by cbv, parse_render.1 nested writable, fun other => parse_render.2.1 nested other writable, ?_⟩
  exact ⟨found, answered, type, parse_render.2.2 {} env wrap found writableEnv fits answered⟩

namespace Ty

/-- The text of the type starts with the word that also stands for a quantifier. -/
def startsWithQuantifier : Ty → Bool
  | .var name => name == "forall"
  | .app con (.var name :: _) => con == arrowName && name == "forall"
  | _ => false

theorem IsWritable.cases_of_startsWithQuantifier {t : Ty} (writable : t.IsWritable) (starts : t.startsWithQuantifier = true) :
    t = .var "forall" ∨ ∃ codomain : Ty, codomain.IsWritable ∧ t = .arrow (.var "forall") codomain := by
  unfold startsWithQuantifier at starts
  split at starts
  · exact .inl (by rw [eq_of_beq starts])
  · rename_i con name args
    obtain ⟨rfl, rfl⟩ : con = arrowName ∧ name = "forall" := by simpa using starts
    obtain ⟨isApp, writableArgs⟩ := within_app.1 writable
    have two : (Ty.var "forall" :: args).length = 2 := by simpa [Signature.written] using isApp
    obtain ⟨codomain, rfl⟩ := List.length_eq_one_iff.1 (Nat.succ.inj two)
    exact .inr ⟨codomain, writableArgs codomain (by simp), rfl⟩
  · cases starts

theorem not_isQuantifier_con (name : ConToken) : Scheme.isQuantifier name.val = false := by
  obtain ⟨token, kind, isCon⟩ := name
  have other : token.text ≠ "forall" := by
    intro same
    rw [same] at isCon
    revert isCon
    decide
  simp [Scheme.isQuantifier, kind, other]

theorem Applied.exists_first (applied : Applied) : ∃ first others, applied.tokens = first :: others ∧
    startsAtom first.kind = true ∧ (Scheme.isQuantifier first = true → applied.type = .var "forall") := by
  cases applied with
  | con name args => exact ⟨_, _, by rw [Applied.tokens], by rw [name.property.1]; rfl, by simp [not_isQuantifier_con]⟩
  | atom atom =>
    rw [Applied.tokens, Applied.type]
    cases atom with
    | var name =>
      refine ⟨_, _, by rw [Atom.tokens], by rw [name.property.1]; rfl, fun quantifies => ?_⟩
      rw [Atom.type, show name.val.text = "forall" by simpa [Scheme.isQuantifier, name.property.1] using quantifies]
    | con name => exact ⟨_, _, by rw [Atom.tokens], by rw [name.property.1]; rfl, by simp [not_isQuantifier_con]⟩
    | group opening type closing =>
      exact ⟨_, _, by rw [Atom.tokens], by rw [opening.property]; rfl, by simp [Scheme.isQuantifier]⟩

theorem Phrase.exists_first (phrase : Phrase) : ∃ first others, phrase.tokens = first :: others ∧
    startsAtom first.kind = true ∧ (Scheme.isQuantifier first = true → phrase.type.startsWithQuantifier = true) := by
  cases phrase with
  | applied applied =>
    obtain ⟨first, others, tokens, starts, quantified⟩ := applied.exists_first
    refine ⟨first, others, by rw [Phrase.tokens, tokens], starts, fun quantifies => ?_⟩
    rw [Phrase.type, quantified quantifies]
    rfl
  | arrow domain arrow codomain =>
    obtain ⟨first, others, tokens, starts, quantified⟩ := domain.exists_first
    refine ⟨first, others ++ arrow.val :: codomain.tokens, by rw [Phrase.tokens, tokens, List.cons_append], starts,
      fun quantifies => ?_⟩
    rw [Phrase.type, quantified quantifies]
    rfl

end Ty

namespace Scheme

open Reader

/-- The quantified names and the names and constructors of the type can be written. -/
def IsWritable (scheme : Scheme) : Prop := (∀ name ∈ scheme.bound, Signature.written.var name) ∧ scheme.type.IsWritable

instance : DecidablePred IsWritable := fun scheme =>
  inferInstanceAs (Decidable ((∀ name ∈ scheme.bound, Signature.written.var name) ∧ scheme.type.IsWritable))

/-- There is at most one quantifier, and a type without one does not look like one. -/
def IsReadable (scheme : Scheme) : Prop :=
  scheme.bound.length ≤ 1 ∧ (scheme.bound = [] → scheme.type.startsWithQuantifier = false)

instance : DecidablePred IsReadable := fun _ => inferInstanceAs (Decidable (_ ∧ _))

section Quantified

variable {scheme : Scheme} {name text : String} {rest : List Char}

abbrev Binder := Token.Of .quantifier × Token.Of .word × Token.Of .dot

def Binder.tokens (binder : Binder) : List Token := [binder.1.val, binder.2.1.val, binder.2.2.val]

theorem cutsInto_binder (isVar : Signature.written.var name) (rest : List Char) :
    CutsInto Binder.tokens (fun binder => binder.2.1.val.text = name) ("∀" ++ name ++ ".").toList rest := by
  have pieces : ("∀" ++ name ++ ".").toList = ['∀'] ++ (name.toList ++ ['.']) := by simp
  have quantifier {rest : List Char} : CutsIntoToken .quantifier "∀" ['∀'] rest := .symbol (by decide) fun _ => rfl
  have dot : CutsIntoToken .dot "." ['.'] rest := .symbol (by decide) fun _ => rfl
  rw [pieces]
  exact (quantifier.append ((isVar.1.cutsInto (by decide) (apart_cons (by decide))).append dot)).map id (fun _ => rfl)
    fun _ fits => fits.2.1

theorem not_gives_read_arrow {stop : Position} {quantifier : Token} {arrow : Token.Of .arrow} {later : List Token}
    (quantifies : isQuantifier quantifier = true) : ¬ Gives (read stop (quantifier :: arrow.val :: later)) scheme [] := by
  intro gives
  obtain ⟨_, _, _, givesNames, _⟩ := (gives_read_quantified quantifies).1 gives
  rcases gives_readBound_cons.1 givesNames with ⟨isDot, _⟩ | ⟨isWord, _⟩
  · simp at isDot
  · simp at isWord

theorem not_gives_read_nested {stop : Position} {outer inner : Binder} {later : List Token} :
    ¬ Gives (read stop (outer.tokens ++ inner.tokens ++ later)) scheme [] := by
  intro gives
  obtain ⟨_, _, _, givesNames, givesType, _⟩ := (gives_read_quantified (by simp [isQuantifier])).1 gives
  -- The dot ends the names, and a type does not start with the quantifier after it.
  rcases gives_readBound_cons.1 givesNames with ⟨isDot, _⟩ | ⟨_, _, _, givesNames⟩
  · simp at isDot
  rcases gives_readBound_cons.1 givesNames with ⟨_, _, _, rfl⟩ | ⟨isWord, _⟩
  · obtain ⟨phrase, tokens, _⟩ := Ty.exists_phrase givesType
    obtain ⟨first, others, start, starts, _⟩ := phrase.exists_first
    rw [start] at tokens
    obtain ⟨rfl, _⟩ := List.cons.inj tokens
    simp [Ty.startsAtom] at starts
  · simp at isWord

/-- A text is refused if no scheme starts with the tokens of its first piece. -/
theorem exists_error_of_cuts {tokens : List Token} {piece : List Char} (cuts : Cuts .start piece rest tokens)
    (pieces : text.toList = piece ++ rest) (refused : ∀ stop scheme later, ¬ Gives (read stop (tokens ++ later)) scheme []) :
    ∃ error, parse text = .error error := by
  have scanned : (Token.scan text.toList).1 = tokens ++ (Token.scanFrom (Position.start.past piece) 0 rest).1 := by
    rw [pieces, Token.scan, cuts]
  cases parsed : parse text with
  | error error => exact ⟨error, rfl⟩
  | ok scheme =>
    have gives := readAll_eq_ok_iff.1 parsed
    rw [scanned] at gives
    exact absurd gives (refused _ scheme _)

end Quantified

/-- A type without a quantifier is read back unless it looks like a quantifier. -/
theorem parse_render_mono {t : Ty} {text : String} (writable : t.IsWritable) (renders : t.render = .ok text) :
    (t.startsWithQuantifier = false → parse text = .ok (mono t)) ∧
    (t.startsWithQuantifier = true → ∃ error, parse text = .error error) := by
  constructor
  · intro plain
    obtain ⟨phrase, same, cuts⟩ := writable.fills renders [] apart_nil .start
    obtain ⟨first, others, tokens, _, quantified⟩ := phrase.exists_first
    have unquantified : ∀ token ∈ phrase.tokens.head?, isQuantifier token = false := by
      rintro token isFirst
      rw [tokens, List.head?_cons, Option.mem_some] at isFirst
      rw [← isFirst, Bool.eq_false_iff]
      intro quantifies
      rw [same, plain] at quantified
      exact Bool.false_ne_true (quantified quantifies)
    rw [← same]
    exact parse_of_phrase (.plain phrase unquantified) cuts.scan
  · intro quantified
    rcases writable.cases_of_startsWithQuantifier quantified with rfl | ⟨codomain, writableCodomain, rfl⟩
    · obtain rfl : "forall" = text := Except.ok.inj renders
      exact ⟨_, rfl⟩
    · obtain ⟨right, rendersRight, _⟩ := writableCodomain.readsBack .top
      have whole : (Ty.arrow (.var "forall") codomain).render = .ok ("forall" ++ " -> " ++ right) := by
        rw [Ty.render, Ty.arrow, Ty.renderAt, if_pos rfl, rendersRight]
        rfl
      obtain rfl : "forall" ++ " -> " ++ right = text := Except.ok.inj (whole.symm.trans renders)
      have word : Lexes .word "forall" := by decide
      have arrow : Lexes .arrow "->" := by decide
      have pieces : ("forall" ++ " -> " ++ right).toList = ("forall".toList ++ [' '] ++ "->".toList) ++ ' ' :: right.toList := by
        simp
      have cuts := (word.cutsInto (by decide) apart_space).space.append
        (arrow.cutsInto (by decide) (@apart_space right.toList))
      obtain ⟨⟨quantifier, arrow⟩, ⟨text, _⟩, cuts⟩ := cuts .start
      dsimp only at text
      have quantifies : isQuantifier quantifier.val = true := by simp [isQuantifier, text]
      exact exists_error_of_cuts cuts pieces fun _ _ _ => not_gives_read_arrow quantifies

theorem parse_render_quantified {name text : String} {t : Ty} (isVar : Signature.written.var name) (writable : t.IsWritable)
    (renders : t.render = .ok text) : parse ("∀" ++ name ++ "." ++ text) = .ok ⟨[name], t⟩ := by
  have cuts := (cutsInto_binder isVar _).append (writable.fills renders [] apart_nil)
  obtain ⟨⟨⟨quantifier, var, dot⟩, type⟩, ⟨sameName, sameType⟩, cuts⟩ := cuts .start
  dsimp only at sameName sameType
  rw [← String.toList_append] at cuts
  let phrase : Phrase := .quantified ⟨quantifier.val, by simp [isQuantifier]⟩
    [⟨var.val, var.property, sameName ▸ isVar.2⟩] (by simp) (by simp [namesOf]) dot type
  rw [parse_of_phrase phrase cuts.scan, Phrase.scheme, foldr_quantify, sameType]
  simp [namesOf, sameName]

theorem exists_error_nested {name second text : String} (isVar : Signature.written.var name)
    (isVarSecond : Signature.written.var second) :
    ∃ error, parse ("∀" ++ name ++ "." ++ ("∀" ++ second ++ "." ++ text)) = .error error := by
  have cuts := (cutsInto_binder isVar _).append (cutsInto_binder isVarSecond text.toList)
  obtain ⟨⟨outer, inner⟩, _, cuts⟩ := cuts .start
  exact exists_error_of_cuts cuts (by simp) fun _ _ _ => not_gives_read_nested

/-- A scheme whose names can be written is read back from its text exactly if it has at most one
quantifier and, without one, does not start like one. Every quantifier is written with a dot of its
own, and after a dot only a type is read; a leading `forall` is never a variable. The text of any other
scheme is refused. -/
theorem parse_render_of_isWritable (scheme : Scheme) (writable : scheme.IsWritable) : ∃ text, scheme.render = .ok text ∧
    (scheme.IsReadable → parse text = .ok scheme) ∧ (¬ scheme.IsReadable → ∃ error, parse text = .error error) := by
  obtain ⟨bound, t⟩ := scheme
  obtain ⟨writableBound, writableType⟩ : (∀ name ∈ bound, Signature.written.var name) ∧ t.IsWritable := writable
  obtain ⟨text, renders, _⟩ := writableType.exists_parse
  have whole : render ⟨bound, t⟩ = .ok (String.join (bound.map fun name => "∀" ++ name ++ ".") ++ text) := by
    rw [render, renders]
    rfl
  refine ⟨_, whole, ?_⟩
  match bound, writableBound with
  | [], _ =>
    obtain ⟨reads, refuses⟩ := parse_render_mono writableType renders
    rw [List.map_nil, String.join_nil, String.empty_append]
    refine ⟨fun readable => reads (readable.2 rfl), fun unreadable => refuses ?_⟩
    rw [← Bool.not_eq_false]
    exact fun plain => unreadable ⟨Nat.zero_le 1, fun _ => plain⟩
  | [name], writableBound =>
    have one : String.join ([name].map fun name => "∀" ++ name ++ ".") = "∀" ++ name ++ "." := by simp
    rw [one]
    exact ⟨fun _ => parse_render_quantified (writableBound name (by simp)) writableType renders,
      fun unreadable => absurd ⟨Nat.le_refl 1, nofun⟩ unreadable⟩
  | name :: second :: others, writableBound =>
    have two : String.join ((name :: second :: others).map fun name => "∀" ++ name ++ ".") ++ text =
      "∀" ++ name ++ "." ++ ("∀" ++ second ++ "." ++ (String.join (others.map fun name => "∀" ++ name ++ ".") ++ text)) := by
      simp [String.append_assoc]
    rw [two]
    exact ⟨fun readable => absurd readable.1 (by simp), fun _ =>
      exists_error_nested (writableBound name (by simp)) (writableBound second (by simp))⟩

theorem parse_render_of_isWritable_forall :
    let scheme : Scheme := ⟨["forall"], .arrow (.var "forall") (.app "List" [.var "forall"])⟩
    scheme.IsReadable ∧ ∃ text, scheme.render = .ok text ∧ parse text = .ok scheme := by
  intro scheme
  have readable : scheme.IsReadable := by decide
  obtain ⟨text, renders, reads, _⟩ := parse_render_of_isWritable scheme (by decide)
  exact ⟨readable, text, renders, reads readable⟩

/-- The second of two quantifiers stands where a type is read. -/
theorem parse_render_two :
    let scheme : Scheme := ⟨["a", "b"], .arrow (.var "a") (.var "b")⟩
    scheme.bound.Nodup ∧ scheme.IsWritable ∧ scheme.render = .ok "∀a.∀b.a -> b" ∧
      ∀ read, parse "∀a.∀b.a -> b" ≠ .ok read := by
  intro scheme
  have text : "∀a.∀b.a -> b" = "∀" ++ "a" ++ "." ++ ("∀" ++ "b" ++ "." ++ "a -> b") := by decide
  obtain ⟨error, refused⟩ : ∃ error, parse "∀a.∀b.a -> b" = .error error := by
    rw [text]
    exact exists_error_nested (by decide) (by decide)
  refine ⟨by decide, by decide, by cbv, fun read parsed => ?_⟩
  rw [refused] at parsed
  cases parsed

end Scheme

end HindleyMilner
