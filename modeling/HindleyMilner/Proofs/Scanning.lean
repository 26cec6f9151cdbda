import HindleyMilner.Proofs.Lexing
import Mathlib.Data.List.Basic
import Mathlib.Data.List.Induction

/-! Tokens one at a time, and where they stand.

A lexer takes the next token off a text; at the end it gives the same last token again and again. The
tokens that it gives are those of the whole text. They and the blanks between them are all of the text,
each is as long as its kind can make it, and each knows how many lines and characters are before it. -/

set_option autoImplicit false

namespace HindleyMilner

def Position.behind (before : List Char) : Position where
  line := 1 + before.count '\n'
  col := 1 + (before.reverse.takeWhile (· ≠ '\n')).length

theorem Position.past_start (before : List Char) : Position.start.past before = .behind before := by
  induction before using List.reverseRecOn with
  | nil => rfl
  | append_singleton before c ih =>
    have step : Position.start.past (before ++ [c]) = (Position.start.past before).after c := by simp [Position.past]
    rw [step, ih, Position.after]
    by_cases newline : c = '\n'
    · simp [Position.behind, newline, Int.add_assoc]
    · simp [Position.behind, newline, Int.add_assoc]

theorem Position.past_behind (before piece : List Char) :
    (Position.behind before).past piece = .behind (before ++ piece) := by
  rw [← past_start, ← past_start]
  exact List.foldl_append.symm

namespace Lexeme

def StartsNone (c : Char) : Prop :=
  c ∉ ['(', ')', '\\', 'λ', '=', '.', '∀'] ∧ Text.isNumeral c = false ∧ startsWord c = false

/-- What a token of a kind consists of where `rest` follows it: numbers and words end where the next
character does not belong to them. -/
def Fits (kind : Token.Kind) (lexeme rest : List Char) : Prop :=
  match kind with
  | .number =>
    lexeme ≠ [] ∧ (∀ c ∈ lexeme, Text.isNumeral c = true) ∧ ∀ c ∈ rest.head?, Text.isNumeral c = false
  | .word | .kwTrue | .kwFalse | .kwLet | .kwIn =>
    kindOfWord lexeme = kind ∧ (∃ first ∈ lexeme.head?, startsWord first = true ∧ first ≠ 'λ') ∧
      (∀ c ∈ lexeme, continuesWord c = true) ∧ ∀ c ∈ rest.head?, continuesWord c = false
  | .lambda => lexeme = ['\\'] ∨ lexeme = ['λ']
  | .equals => lexeme = ['=']
  | .arrow => lexeme = ['-', '>']
  | .opening => lexeme = ['(']
  | .closing => lexeme = [')']
  | .dot => lexeme = ['.']
  | .quantifier => lexeme = ['∀']
  | .stray => ∃ c, lexeme = [c] ∧ StartsNone c ∧ (c = '-' → rest.head? ≠ some '>')
  | .endOfInput => False

theorem kindOfWord_mem (word : List Char) : kindOfWord word ∈ [.word, .kwTrue, .kwFalse, .kwLet, .kwIn] := by
  unfold kindOfWord
  split_ifs <;> decide

theorem fits_word {first : Char} {more rest : List Char} (starts : startsWord first = true) (other : first ≠ 'λ')
    (inside : ∀ c ∈ more, continuesWord c = true) (ends : ∀ c ∈ rest.head?, continuesWord c = false) :
    Fits (kindOfWord (first :: more)) (first :: more) rest := by
  have all : ∀ c ∈ first :: more, continuesWord c = true :=
    List.forall_mem_cons.2 ⟨by simp [continuesWord, starts], inside⟩
  have listed := kindOfWord_mem (first :: more)
  simp only [List.mem_cons, List.not_mem_nil, or_false] at listed
  rcases listed with kind | kind | kind | kind | kind <;> rw [kind] <;>
    exact ⟨kind, ⟨first, rfl, starts, other⟩, all, ends⟩

theorem takeWhile_ends {accept : Char → Bool} {more left : List Char} (all : (more ++ left).takeWhile accept = more) :
    ∀ c ∈ left.head?, accept c = false := by
  have whole := List.takeWhile_append_dropWhile (p := accept) (l := more ++ left)
  rw [all] at whole
  intro c isNext
  have stops := List.head?_dropWhile_not accept (more ++ left)
  rwa [List.append_cancel_left whole, isNext] at stops

theorem leading_prefix (first : Char) (rest : List Char) : (leading first rest).2 <+: rest := by
  rcases leading_cases first with ⟨_, _, symbol⟩ | arrow | ⟨_, number⟩ | ⟨_, word⟩
  · rw [symbol]
    exact List.nil_prefix
  · rw [arrow]
    split
    · rename_i greater
      exact List.head?_eq_some_iff.1 greater |>.imp fun tail same => by rw [same]; rfl
    · exact List.nil_prefix
  · rw [number]
    exact List.takeWhile_prefix _
  · rw [word]
    exact List.takeWhile_prefix _

theorem leading_of_startsWord {first : Char} (noSymbol : first ∉ ['(', ')', '\\', 'λ', '=', '.', '∀'])
    (noNumeral : ¬ Text.isNumeral first = true) (starts : startsWord first = true) (rest : List Char) :
    leading first rest = (kindOfWord (first :: rest.takeWhile continuesWord), rest.takeWhile continuesWord) := by
  have noDash : first ≠ '-' := by
    rintro rfl
    exact absurd starts (by decide)
  simp only [List.mem_cons, List.not_mem_nil, or_false, not_or] at noSymbol
  simp [leading, noSymbol, noNumeral, noDash, starts]

theorem leading_of_startsNone {first : Char} {rest : List Char} (none : StartsNone first)
    (noArrow : first = '-' → rest.head? ≠ some '>') : leading first rest = (.stray, []) := by
  obtain ⟨noSymbol, noNumeral, noWord⟩ := none
  simp only [List.mem_cons, List.not_mem_nil, or_false, not_or] at noSymbol
  by_cases dash : first = '-'
  · simp [leading, noSymbol, noNumeral, noWord, noArrow dash]
  · simp [leading, noSymbol, noNumeral, noWord, dash]

theorem fits_leading {first : Char} {more left : List Char} {kind : Token.Kind}
    (leads : leading first (more ++ left) = (kind, more)) : Fits kind (first :: more) left := by
  by_cases isSymbol : first ∈ ['(', ')', '\\', 'λ', '=', '.', '∀']
  · simp only [List.mem_cons, List.not_mem_nil, or_false] at isSymbol
    rcases isSymbol with rfl | rfl | rfl | rfl | rfl | rfl | rfl <;> cases leads <;> simp [Fits]
  by_cases numeral : Text.isNumeral first = true
  · rw [leading_of_isNumeral numeral, Prod.mk.injEq] at leads
    obtain ⟨rfl, all⟩ := leads
    refine ⟨List.cons_ne_nil _ _, List.forall_mem_cons.2 ⟨numeral, ?_⟩, takeWhile_ends all⟩
    rw [← all]
    exact fun c mem => List.mem_takeWhile_imp mem
  by_cases starts : startsWord first = true
  · rw [leading_of_startsWord isSymbol numeral starts, Prod.mk.injEq] at leads
    obtain ⟨rfl, all⟩ := leads
    have noLambda : first ≠ 'λ' := by
      rintro rfl
      exact isSymbol (by decide)
    rw [all]
    refine fits_word starts noLambda ?_ (takeWhile_ends all)
    rw [← all]
    exact fun c mem => List.mem_takeWhile_imp mem
  by_cases arrow : first = '-' ∧ (more ++ left).head? = some '>'
  · obtain ⟨rfl, greater⟩ := arrow
    have isArrow : leading '-' (more ++ left) = (.arrow, ['>']) := by simp [leading, greater]
    cases isArrow.symm.trans leads
    rfl
  · have none : StartsNone first := ⟨isSymbol, Bool.eq_false_iff.2 numeral, Bool.eq_false_iff.2 starts⟩
    have noArrow : first = '-' → (more ++ left).head? ≠ some '>' := fun dash greater => arrow ⟨dash, greater⟩
    cases (leading_of_startsNone none noArrow).symm.trans leads
    exact ⟨first, rfl, none, noArrow⟩

/-- A number ends only where no numeral follows, and no other token runs on into a number. -/
theorem Fits.numeral_ends {kind : Token.Kind} {lexeme left : List Char} (fits : Fits kind lexeme left) :
    ∀ c ∈ lexeme.getLast?, Text.isNumeral c = true → ∀ d ∈ left.head?, Text.isNumeral d = false := by
  intro c last numeral d isNext
  have mem := List.mem_of_getLast? last
  have notWord (stops : ∀ d ∈ left.head?, continuesWord d = false) : Text.isNumeral d = false := by
    refine Bool.eq_false_iff.2 fun goesOn => ?_
    have continued := continuesWord_of_isNumeral goesOn
    rw [stops d isNext] at continued
    cases continued
  have noSymbol (symbols : List Char) (same : lexeme = symbols) (none : symbols.any Text.isNumeral = false) :
      Text.isNumeral d = false := by
    rw [List.any_eq_false] at none
    exact absurd numeral (none c (same ▸ mem))
  cases kind with
  | number => exact fits.2.2 d isNext
  | word | kwTrue | kwFalse | kwLet | kwIn => exact notWord fits.2.2.2
  | lambda => exact fits.elim (noSymbol _ · (by decide)) (noSymbol _ · (by decide))
  | stray =>
    obtain ⟨_, same, ⟨_, noNumeral, _⟩, _⟩ := fits
    exact noSymbol _ same (by simpa using noNumeral)
  | endOfInput => exact fits.elim
  | _ => exact noSymbol _ fits (by decide)

/-- A dash with a `>` behind it is nowhere but at the start of an arrow. -/
theorem Fits.arrow {kind : Token.Kind} {inside tail left after : List Char} (fits : Fits kind (inside ++ '-' :: tail) left)
    (greater : tail ++ left = '>' :: after) : kind = .arrow ∧ inside = [] ∧ tail = ['>'] := by
  have mem : '-' ∈ inside ++ '-' :: tail := List.mem_append_right _ List.mem_cons_self
  have noDash (symbols : List Char) (same : inside ++ '-' :: tail = symbols) (none : '-' ∉ symbols) :
      kind = .arrow ∧ inside = [] ∧ tail = ['>'] := absurd (same ▸ mem) none
  have first {more : List Char} (same : inside ++ '-' :: tail = '-' :: more) (none : '-' ∉ more) :
      inside = [] ∧ tail = more := by
    rcases List.append_eq_cons_iff.1 same with ⟨rfl, isTail⟩ | ⟨later, rfl, rfl⟩
    · exact ⟨rfl, (List.cons.inj isTail).2⟩
    · exact absurd (List.mem_append_right _ List.mem_cons_self) none
  cases kind with
  | arrow => exact ⟨rfl, first fits (by decide)⟩
  | stray =>
    obtain ⟨c, same, _, alone⟩ := fits
    obtain rfl : '-' = c := by simpa [same] using mem
    obtain ⟨_, rfl⟩ := first same (by decide)
    exact absurd (by rw [← List.nil_append left, greater]; rfl) (alone rfl)
  | number => exact absurd (fits.2.1 _ mem) (by decide)
  | word | kwTrue | kwFalse | kwLet | kwIn => exact absurd (fits.2.2.1 _ mem) (by decide)
  | lambda => exact fits.elim (noDash _ · (by decide)) (noDash _ · (by decide))
  | endOfInput => exact fits.elim
  | _ => exact noDash _ fits (by decide)

end Lexeme

/-- A lexer has the text that is left, and the position where that starts. -/
structure Lexer where
  rest : List Char
  pos : Position

namespace Lexer

open Lexeme

def start (text : List Char) : Lexer := ⟨text, .start⟩

/-- The next token and the lexer behind it. At the end that is the token of the end, and the lexer stays
there. -/
def next (lexer : Lexer) : Token × Lexer :=
  let pos := lexer.pos.past (lexer.rest.takeWhile Text.isBlank)
  match lexer.rest.dropWhile Text.isBlank with
  | [] => (.endAt pos, ⟨[], pos⟩)
  | first :: rest =>
    let (kind, more) := leading first rest
    (⟨kind, String.ofList (first :: more), pos⟩, ⟨rest.drop more.length, pos.past (first :: more)⟩)

def call : Nat → Lexer → Token
  | 0, lexer => lexer.next.1
  | k + 1, lexer => call k lexer.next.2

/-- The tokens that the lexer has still to give, and the position at the end. -/
def remaining (lexer : Lexer) : List Token × Position := Token.scanFrom lexer.pos 0 lexer.rest

/-- The rest is blank, or it is a gap, the characters of a token, and a rest behind them. -/
theorem next_cases (lexer : Lexer) :
    ((∀ c ∈ lexer.rest, Text.isBlank c = true) ∧
      lexer.next = (.endAt (lexer.pos.past lexer.rest), ⟨[], lexer.pos.past lexer.rest⟩)) ∨
    ∃ (gap : List Char) (first : Char) (more left : List Char) (kind : Token.Kind),
      lexer.rest = gap ++ (first :: more ++ left) ∧ (∀ c ∈ gap, Text.isBlank c = true) ∧
        Text.isBlank first = false ∧ leading first (more ++ left) = (kind, more) ∧
        lexer.next = (⟨kind, String.ofList (first :: more), lexer.pos.past gap⟩,
          ⟨left, lexer.pos.past (gap ++ first :: more)⟩) := by
  have whole := List.takeWhile_append_dropWhile (p := Text.isBlank) (l := lexer.rest)
  cases ends : lexer.rest.dropWhile Text.isBlank with
  | nil =>
    rw [ends, List.append_nil] at whole
    refine .inl ⟨fun c mem => List.mem_takeWhile_imp (whole.symm ▸ mem), ?_⟩
    simp only [next, ends, whole]
  | cons first rest =>
    obtain ⟨left, same⟩ := leading_prefix first rest
    rcases leads : leading first rest with ⟨kind, more⟩
    rw [leads] at same
    subst same
    have visible : Text.isBlank first = false := by
      have stops := List.head?_dropWhile_not Text.isBlank lexer.rest
      rwa [ends] at stops
    refine .inr ⟨lexer.rest.takeWhile Text.isBlank, first, more, left, kind, ?_, fun c mem => List.mem_takeWhile_imp mem,
      visible, leads, ?_⟩
    · rw [List.cons_append, ← ends, whole]
    · simp only [next, ends, leads, List.drop_left, Position.past, List.foldl_append]

theorem remaining_of_blank {lexer : Lexer} (blank : ∀ c ∈ lexer.rest, Text.isBlank c = true) :
    lexer.remaining = ([], lexer.pos.past lexer.rest) := by
  have cuts : Token.Cuts lexer.pos lexer.rest [] [] := .blanks blank
  rwa [Token.Cuts, List.append_nil] at cuts

theorem remaining_of_leading {lexer : Lexer} {gap more left : List Char} {first : Char} {kind : Token.Kind}
    (whole : lexer.rest = gap ++ (first :: more ++ left)) (blank : ∀ c ∈ gap, Text.isBlank c = true)
    (visible : Text.isBlank first = false) (leads : leading first (more ++ left) = (kind, more)) :
    lexer.remaining = (⟨kind, String.ofList (first :: more), lexer.pos.past gap⟩ ::
      (Lexer.mk left (lexer.pos.past (gap ++ first :: more))).remaining.1,
      (Lexer.mk left (lexer.pos.past (gap ++ first :: more))).remaining.2) := by
  have gapCuts : Token.Cuts lexer.pos gap (first :: more ++ left) [] := .blanks blank
  have cuts := gapCuts.append (.lexeme visible leads)
  rwa [Token.Cuts, List.append_assoc, ← whole] at cuts

/-- A call gives the first of the tokens that remain, or the token of the end, and leaves the others. -/
theorem remaining_next (lexer : Lexer) :
    lexer.next.1 = Reader.next lexer.remaining.2 lexer.remaining.1 ∧
      lexer.next.2.remaining = (lexer.remaining.1.tail, lexer.remaining.2) := by
  rcases lexer.next_cases with ⟨blank, gives⟩ | ⟨gap, first, more, left, kind, whole, blank, visible, leads, gives⟩
  · rw [remaining_of_blank blank, gives]
    exact ⟨rfl, rfl⟩
  · rw [remaining_of_leading whole blank visible leads, gives]
    exact ⟨rfl, rfl⟩

theorem call_eq_next (k : Nat) (lexer : Lexer) :
    lexer.call k = Reader.next lexer.remaining.2 (lexer.remaining.1.drop k) := by
  induction k generalizing lexer with
  | zero => exact lexer.remaining_next.1
  | succ k ih => rw [call, ih, lexer.remaining_next.2, List.drop_tail]

end Lexer

namespace Token

open Lexeme

/-- The tokens are what a text consists of, from `rest` on, where `before` is read already: they stand
in it one after the other, with nothing but blanks before, between and behind them. -/
inductive Spelled : List Char → List Token → List Char → Prop where
  | finish (before : List Char) {gap : List Char} (blank : ∀ c ∈ gap, Text.isBlank c = true) : Spelled before [] gap
  | token (before : List Char) {gap lexeme left : List Char} {token : Token} {later : List Token}
      (blank : ∀ c ∈ gap, Text.isBlank c = true)
      (text : token.text = String.ofList lexeme)
      (pos : token.pos = .behind (before ++ gap))
      (fits : Fits token.kind lexeme left)
      (fresh : token.kind = .number → ∀ c ∈ (before ++ gap).getLast?, Text.isNumeral c = false)
      (others : Spelled (before ++ gap ++ lexeme) later left) :
      Spelled before (token :: later) (gap ++ (lexeme ++ left))

/-- What has been read does not end inside of a number that goes on. -/
def Between (before rest : List Char) : Prop :=
  ∀ c ∈ before.getLast?, Text.isNumeral c = true → ∀ d ∈ rest.head?, Text.isNumeral d = false

theorem Between.gap {before gap rest : List Char} (between : Between before (gap ++ rest))
    (blank : ∀ c ∈ gap, Text.isBlank c = true) : Between (before ++ gap) rest := by
  intro c last numeral
  cases gap using List.reverseRecOn with
  | nil =>
    rw [List.append_nil] at last
    exact between c last numeral
  | append_singleton front final =>
    -- No blank is a numeral.
    rw [← List.append_assoc, List.getLast?_concat, Option.mem_some_iff] at last
    have goesOn := continuesWord_of_isNumeral numeral
    rw [continuesWord_of_isBlank (blank c (by simp [last]))] at goesOn
    cases goesOn

/-- The tokens that a lexer has still to give are what its rest consists of. -/
theorem spelled_remaining (lexer : Lexer) (before : List Char) (pos : lexer.pos = .behind before)
    (between : Between before lexer.rest) :
    Spelled before lexer.remaining.1 lexer.rest ∧ lexer.remaining.2 = .behind (before ++ lexer.rest) := by
  rcases lexer.next_cases with ⟨blank, _⟩ | ⟨gap, first, more, left, kind, whole, blank, visible, leads, _⟩
  · rw [Lexer.remaining_of_blank blank, pos, Position.past_behind]
    exact ⟨.finish before blank, rfl⟩
  · have shorter : left.length < lexer.rest.length := by
      simp only [whole, List.length_append, List.length_cons]
      omega
    have fits := fits_leading leads
    rw [whole] at between
    have fresh : kind = .number → ∀ c ∈ (before ++ gap).getLast?, Text.isNumeral c = false := by
      rintro rfl c last
      refine Bool.eq_false_iff.2 fun numeral => ?_
      have stops := between.gap blank c last numeral first rfl
      rw [fits.2.1 first List.mem_cons_self] at stops
      cases stops
    have betweenNext : Between (before ++ (gap ++ first :: more)) left := by
      intro c last
      rw [← List.append_assoc, List.getLast?_append_of_ne_nil _ (List.cons_ne_nil _ _)] at last
      exact fits.numeral_ends c last
    obtain ⟨others, stop⟩ := spelled_remaining ⟨left, lexer.pos.past (gap ++ first :: more)⟩
      (before ++ (gap ++ first :: more)) (by rw [pos, Position.past_behind]) betweenNext
    rw [Lexer.remaining_of_leading whole blank visible leads, whole]
    refine ⟨.token before blank rfl (by rw [pos, Position.past_behind]) fits fresh ?_, ?_⟩
    · rwa [List.append_assoc]
    · simpa using stop
termination_by lexer.rest.length

/-- A character of two pieces stands in the first one or in the second one. -/
theorem piece_of_append {first second front after : List Char} {c : Char}
    (same : first ++ second = front ++ c :: after) :
    (∃ tail, first = front ++ c :: tail ∧ tail ++ second = after) ∨
      ∃ inside, front = first ++ inside ∧ second = inside ++ c :: after := by
  rcases List.append_eq_append_iff.1 same with later | ⟨tail, isFirst, isSecond⟩
  · exact .inr later
  rcases List.append_eq_cons_iff.1 isSecond.symm with ⟨rfl, rfl⟩ | ⟨tail, rfl, isAfter⟩
  · exact .inr ⟨[], by simpa using isFirst.symm, rfl⟩
  · exact .inl ⟨tail, isFirst, isAfter.symm⟩

theorem Spelled.arrow_mem {before rest front after : List Char} {tokens : List Token} (spelled : Spelled before tokens rest)
    (arrow : rest = front ++ '-' :: '>' :: after) :
    (⟨.arrow, "->", .behind (before ++ front)⟩ : Token) ∈ tokens := by
  induction spelled generalizing front with
  | finish before blank =>
    have dash := blank '-' (by simp [arrow])
    exact absurd dash (by decide)
  | @token before gap lexeme left token later blank text pos fits fresh others ih =>
    -- The dash stands in the gap, in the token or behind it.
    rcases piece_of_append arrow with ⟨_, rfl, _⟩ | ⟨inside, rfl, within⟩
    · have dash := blank '-' (by simp)
      exact absurd dash (by decide)
    rcases piece_of_append within with ⟨tail, rfl, greater⟩ | ⟨behind, rfl, later⟩
    · obtain ⟨kind, rfl, rfl⟩ := fits.arrow greater
      have isArrow : token = ⟨.arrow, "->", .behind (before ++ (gap ++ []))⟩ := by
        rw [List.append_nil, ← pos, ← kind]
        exact congrArg (Token.mk token.kind · token.pos) text
      exact isArrow ▸ List.mem_cons_self
    · have mem := ih later
      rw [List.append_assoc, List.append_assoc] at mem
      exact List.mem_cons_of_mem _ mem

theorem Spelled.kind_ne {before rest : List Char} {tokens : List Token} (spelled : Spelled before tokens rest) :
    ∀ token ∈ tokens, token.kind ≠ .endOfInput := by
  induction spelled with
  | finish => simp
  | token before blank text pos fits fresh others ih =>
    refine List.forall_mem_cons.2 ⟨fun isEnd => ?_, ih⟩
    rw [isEnd] at fits
    exact fits

/-- A lexer comes to the end, and stays there. Its tokens are all of the text but blanks, each as long as
its kind can make it and each with the position of its first character. -/
theorem scan_spells (text : List Char) :
    ∃ tokens, scan text = (tokens, .behind text) ∧ Spelled [] tokens text ∧
      (∀ k, ∀ token ∈ tokens[k]?, (Lexer.start text).call k = token ∧ token.kind ≠ .endOfInput) ∧
      (∀ k, tokens.length ≤ k → (Lexer.start text).call k = .endAt (.behind text)) ∧
      ∀ before after, text = before ++ '-' :: '>' :: after →
        (⟨.arrow, "->", .behind before⟩ : Token) ∈ tokens := by
  have read := spelled_remaining (.start text) [] rfl (by simp [Between])
  have calls (k : Nat) := (Lexer.start text).call_eq_next k
  rcases scanned : (Lexer.start text).remaining with ⟨tokens, stop⟩
  rw [scanned] at read
  obtain ⟨spelled, rfl⟩ := read
  simp only [scanned] at calls
  refine ⟨tokens, scanned, spelled, fun k token found => ⟨?_, spelled.kind_ne token (List.mem_of_getElem? found)⟩,
    fun k all => ?_, fun before after arrow => spelled.arrow_mem arrow⟩
  · obtain ⟨inside, rfl⟩ := List.getElem?_eq_some_iff.1 found
    rw [calls, List.drop_eq_getElem_cons inside]
    rfl
  · rw [calls, List.drop_eq_nil_of_le all]
    rfl

example : (Lexer.start "f\n -> x".toList).call 1 = ⟨.arrow, "->", ⟨2, 2⟩⟩ := by cbv

end Token

end HindleyMilner
