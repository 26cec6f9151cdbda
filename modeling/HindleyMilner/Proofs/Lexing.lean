import HindleyMilner.Proofs.Reading
import HindleyMilner.Token
import Mathlib.Data.List.TakeWhile

/-! How a text is cut into tokens, piece by piece.

A piece of a text is cut into the same tokens whatever follows it, as long as what follows does not
go on with the last token. The text of a token by itself is that token again. -/

set_option autoImplicit false

namespace HindleyMilner

namespace Text

theorem Ranges.exists_range {ranges : Ranges} {point : Nat} (covered : ranges.covers point = true) :
    ∃ range ∈ ranges, range.1 ≤ point ∧ point ≤ range.2 := by
  induction ranges with
  | nil => simp [Ranges.covers] at covered
  | cons range others ih =>
    obtain ⟨low, high⟩ := range
    by_cases below : point < low
    · rw [Ranges.covers_cons_of_lt below] at covered
      cases covered
    · simp only [Ranges.covers, below, if_false, Bool.or_eq_true, decide_eq_true_eq] at covered
      rcases covered with within | later
      · exact ⟨(low, high), List.mem_cons_self, Nat.le_of_not_lt below, within⟩
      · obtain ⟨range, mem, inside⟩ := ih later
        exact ⟨range, List.mem_cons_of_mem _ mem, inside⟩

-- The blank code points are few, so each of them is looked up in both tables.
theorem blankRanges_apart : ∀ range ∈ blankRanges, ∀ offset < range.2 + 1 - range.1,
    letterRanges.covers (range.1 + offset) = false ∧ digitRanges.covers (range.1 + offset) = false := by
  decide +kernel

theorem isBlank_apart {c : Char} (blank : isBlank c = true) : isLetter c = false ∧ isDecimal c = false := by
  obtain ⟨range, mem, above, below⟩ := Ranges.exists_range blank
  have apart := blankRanges_apart range mem (c.toNat - range.1) (by omega)
  rwa [Nat.add_sub_cancel' above] at apart

theorem isDecimal_of_isNumeral {c : Char} (numeral : isNumeral c = true) : isDecimal c = true := by
  simp only [isNumeral, Bool.and_eq_true, decide_eq_true_eq] at numeral
  exact Ranges.covers_cons_of_mem numeral.1 numeral.2

end Text

namespace Lexeme

theorem continuesWord_of_isBlank {c : Char} (blank : Text.isBlank c = true) : continuesWord c = false := by
  have notUnderscore : c ≠ '_' := by rintro rfl; revert blank; decide
  have notPrime : c ≠ '\'' := by rintro rfl; revert blank; decide
  simp [continuesWord, startsWord, Text.isBlank_apart blank, notUnderscore, notPrime]

theorem continuesWord_of_isNumeral {c : Char} (numeral : Text.isNumeral c = true) : continuesWord c = true := by
  simp [continuesWord, Text.isDecimal_of_isNumeral numeral]

/-- What starts like this does not go on with a word or a number before it. -/
def Apart (rest : List Char) : Prop := ∀ c ∈ rest.head?, continuesWord c = false

theorem apart_nil : Apart [] := nofun

theorem apart_cons {c : Char} {rest : List Char} (apart : continuesWord c = false) : Apart (c :: rest) := by
  intro next isNext
  cases isNext
  exact apart

theorem apart_space {rest : List Char} : Apart (' ' :: rest) := apart_cons (by decide)

theorem apart_closing {rest : List Char} : Apart (')' :: rest) := apart_cons (by decide)

theorem apart_blanks {blanks rest : List Char} (nonempty : blanks ≠ []) (blank : ∀ c ∈ blanks, Text.isBlank c = true) :
    Apart (blanks ++ rest) := by
  cases blanks with
  | nil => contradiction
  | cons c blanks => exact apart_cons (continuesWord_of_isBlank (blank c List.mem_cons_self))

theorem leading_of_isNumeral {first : Char} (numeral : Text.isNumeral first = true) (rest : List Char) :
    leading first rest = (.number, rest.takeWhile Text.isNumeral) := by
  have other (c : Char) (differs : Text.isNumeral c = false) : first ≠ c := by
    rintro rfl
    rw [differs] at numeral
    cases numeral
  simp [leading, numeral, other '(' (by decide), other ')' (by decide), other '\\' (by decide), other 'λ' (by decide),
    other '=' (by decide), other '.' (by decide), other '∀' (by decide), other '-' (by decide)]

def symbolKinds : List Token.Kind := [.opening, .closing, .lambda, .equals, .dot, .quantifier, .stray]

/-- The first character of a token says how the token goes on. -/
theorem leading_cases (first : Char) :
    (∃ kind ∈ symbolKinds, ∀ rest, leading first rest = (kind, [])) ∨
    (∀ rest, leading first rest = if rest.head? = some '>' then (.arrow, ['>']) else (.stray, [])) ∨
    (Text.isNumeral first = true ∧ ∀ rest, leading first rest = (.number, rest.takeWhile Text.isNumeral)) ∨
    (startsWord first = true ∧ ∀ rest, leading first rest =
      (kindOfWord (first :: rest.takeWhile continuesWord), rest.takeWhile continuesWord)) := by
  by_cases numeral : Text.isNumeral first = true
  · exact .inr (.inr (.inl ⟨numeral, leading_of_isNumeral numeral⟩))
  by_cases isSymbol : first ∈ ['(', ')', '\\', 'λ', '=', '.', '∀']
  · simp only [List.mem_cons, List.not_mem_nil, or_false] at isSymbol
    left
    rcases isSymbol with rfl | rfl | rfl | rfl | rfl | rfl | rfl
    · exact ⟨.opening, by decide, fun _ => rfl⟩
    · exact ⟨.closing, by decide, fun _ => rfl⟩
    · exact ⟨.lambda, by decide, fun _ => rfl⟩
    · exact ⟨.lambda, by decide, fun _ => rfl⟩
    · exact ⟨.equals, by decide, fun _ => rfl⟩
    · exact ⟨.dot, by decide, fun _ => rfl⟩
    · exact ⟨.quantifier, by decide, fun _ => rfl⟩
  simp only [List.mem_cons, List.not_mem_nil, or_false, not_or] at isSymbol
  by_cases dash : first = '-'
  · subst dash
    have noWord : startsWord '-' = false := by decide
    right; left
    intro rest
    simp [leading, numeral, noWord]
  by_cases word : startsWord first = true
  · right; right; right
    refine ⟨word, fun rest => ?_⟩
    simp [leading, isSymbol, dash, numeral, word]
  · exact .inl ⟨.stray, by decide, fun rest => by simp [leading, isSymbol, dash, numeral, word]⟩

theorem takeWhile_append {accept : Char → Bool} {more rest : List Char} (all : more.takeWhile accept = more)
    (stops : ∀ c ∈ rest.head?, accept c = false) : (more ++ rest).takeWhile accept = more := by
  rw [List.takeWhile_append_of_pos (List.takeWhile_eq_self_iff.1 all)]
  cases rest with
  | nil => simp
  | cons c rest => simp [stops c rfl]

theorem leading_append {kind : Token.Kind} {first : Char} {more rest : List Char}
    (leads : leading first more = (kind, more)) (alone : kind = .stray → rest.head? ≠ some '>') (apart : Apart rest) :
    leading first (more ++ rest) = (kind, more) := by
  rcases leading_cases first with ⟨_, _, symbol⟩ | arrow | ⟨_, number⟩ | ⟨_, word⟩
  · rw [symbol] at leads ⊢
    exact leads
  · -- A dash alone is stray, and the rest could make it an arrow.
    rw [arrow] at leads ⊢
    split at leads
    · cases leads
      rfl
    · cases leads
      rw [List.nil_append, if_neg (alone rfl)]
  · rw [number, Prod.mk.injEq] at leads ⊢
    refine ⟨leads.1, takeWhile_append leads.2 fun c isNext => Bool.eq_false_iff.2 fun numeral => ?_⟩
    have goesOn := continuesWord_of_isNumeral numeral
    rw [apart c isNext] at goesOn
    cases goesOn
  · rw [word, Prod.mk.injEq] at leads
    obtain ⟨isKind, all⟩ := leads
    rw [word, takeWhile_append all apart, ← isKind, all]

theorem leading_leading (first : Char) (rest : List Char) :
    leading first (leading first rest).2 = leading first rest := by
  rcases leading_cases first with ⟨_, _, symbol⟩ | arrow | ⟨_, number⟩ | ⟨_, word⟩
  · simp only [symbol]
  · simp only [arrow]
    split <;> rfl
  · simp only [number, List.takeWhile_idem]
  · simp only [word, List.takeWhile_idem]

theorem length_leading_le (first : Char) (rest : List Char) : (leading first rest).2.length ≤ rest.length := by
  rcases leading_cases first with ⟨_, _, symbol⟩ | arrow | ⟨_, number⟩ | ⟨_, word⟩
  · simp [symbol]
  · rw [arrow]
    cases rest with
    | nil => simp
    | cons c rest => split <;> simp
  · rw [number]
    exact (List.takeWhile_sublist _).length_le
  · rw [word]
    exact (List.takeWhile_sublist _).length_le

end Lexeme

def Position.past (pos : Position) (text : List Char) : Position := text.foldl Position.after pos

namespace Token

open Lexeme

variable {pos : Position} {kind : Kind} {text : String} {piece next rest : List Char} {tokens more : List Token}

theorem scanFrom_inside (pos : Position) (piece rest : List Char) :
    scanFrom pos piece.length (piece ++ rest) = scanFrom (pos.past piece) 0 rest := by
  induction piece generalizing pos with
  | nil => rfl
  | cons c piece ih =>
    rw [List.cons_append, List.length_cons, scanFrom]
    exact ih (pos.after c)

/-- In front of `rest` the piece is cut into the tokens. -/
def Cuts (pos : Position) (piece rest : List Char) (tokens : List Token) : Prop :=
  scanFrom pos 0 (piece ++ rest) =
    (tokens ++ (scanFrom (pos.past piece) 0 rest).1, (scanFrom (pos.past piece) 0 rest).2)

theorem Cuts.nil : Cuts pos [] rest [] := rfl

theorem Cuts.append (first : Cuts pos piece (next ++ rest) tokens) (second : Cuts (pos.past piece) next rest more) :
    Cuts pos (piece ++ next) rest (tokens ++ more) := by
  have past : pos.past (piece ++ next) = (pos.past piece).past next := List.foldl_append
  rw [Cuts, List.append_assoc, first, second, past, List.append_assoc]

theorem Cuts.blanks (blank : ∀ c ∈ piece, Text.isBlank c = true) : Cuts pos piece rest [] := by
  induction piece generalizing pos with
  | nil => exact .nil
  | cons c piece ih =>
    rw [List.forall_mem_cons] at blank
    rw [Cuts, List.cons_append, scanFrom, if_pos blank.1]
    exact ih blank.2

theorem Cuts.lexeme {first : Char} {others : List Char} (visible : Text.isBlank first = false)
    (leads : leading first (others ++ rest) = (kind, others)) :
    Cuts pos (first :: others) rest [⟨kind, String.ofList (first :: others), pos⟩] := by
  rw [Cuts, List.cons_append, scanFrom]
  simp only [visible, leads, scanFrom_inside]
  rfl

theorem Cuts.scan (cuts : Cuts .start piece [] tokens) : (Token.scan piece).1 = tokens := by
  rw [Cuts, List.append_nil] at cuts
  rw [Token.scan, cuts]
  simp [scanFrom]

/-- The text is one token, of that kind. -/
def Lexes (kind : Kind) (text : String) : Prop := (scan text.toList).1 = [⟨kind, text, .start⟩]

instance : Decidable (Lexes kind text) := inferInstanceAs (Decidable (_ = _))

theorem lexes_of_leading {first : Char} {others : List Char} (visible : Text.isBlank first = false)
    (leads : leading first others = (kind, others)) : Lexes kind (String.ofList (first :: others)) := by
  rw [Lexes, String.toList_ofList]
  exact Cuts.scan (.lexeme visible (by rw [List.append_nil, leads]))

/-- The text of a token in a list is cut into that token again. -/
theorem lexes_of_mem {inside : Nat} {token : Token} (mem : token ∈ (scanFrom pos inside piece).1) :
    Lexes token.kind token.text ∧ token.text.length ≤ piece.length := by
  induction piece generalizing pos inside with
  | nil => simp [scanFrom] at mem
  | cons c piece ih =>
    cases inside with
    | succ inside =>
      obtain ⟨lexes, short⟩ := ih mem
      exact ⟨lexes, Nat.le_succ_of_le short⟩
    | zero =>
      rw [scanFrom] at mem
      split at mem
      · obtain ⟨lexes, short⟩ := ih mem
        exact ⟨lexes, Nat.le_succ_of_le short⟩
      · rename_i visible
        rcases List.mem_cons.1 mem with rfl | later
        · refine ⟨lexes_of_leading (Bool.eq_false_iff.2 visible) (leading_leading c piece), ?_⟩
          rw [String.length_ofList]
          exact Nat.succ_le_succ (length_leading_le c piece)
        · obtain ⟨lexes, short⟩ := ih later
          exact ⟨lexes, Nat.le_succ_of_le short⟩

theorem length_scanFrom_le (pos : Position) (inside : Nat) (text : List Char) :
    (scanFrom pos inside text).1.length ≤ text.length := by
  induction text generalizing pos inside with
  | nil => simp [scanFrom]
  | cons c text ih =>
    cases inside with
    | succ inside => exact Nat.le_succ_of_le (ih _ _)
    | zero =>
      rw [scanFrom]
      split
      · exact Nat.le_succ_of_le (ih _ _)
      · exact Nat.succ_le_succ (ih _ _)

theorem Lexes.exists_leading (lexes : Lexes kind text) :
    ∃ first others, text = String.ofList (first :: others) ∧ Text.isBlank first = false ∧
      leading first others = (kind, others) := by
  rw [Lexes, scan] at lexes
  cases chars : text.toList with
  | nil => simp [chars, scanFrom] at lexes
  | cons first others =>
    have whole : text = String.ofList (first :: others) := by rw [← chars, String.ofList_toList]
    rw [chars, scanFrom] at lexes
    split at lexes
    · -- A token after a blank is shorter than the whole text.
      have mem : (⟨kind, text, .start⟩ : Token) ∈ (scanFrom (Position.start.after first) 0 others).1 := by
        rw [lexes]
        exact List.mem_singleton_self _
      have short := (lexes_of_mem mem).2
      rw [whole, String.length_ofList] at short
      exact absurd short (Nat.not_succ_le_self _)
    · rename_i visible
      obtain ⟨isKind, isText⟩ := (Token.mk.injEq ..).mp (List.cons.inj lexes).1
      rw [whole, String.ofList_inj, List.cons.injEq] at isText
      exact ⟨first, others, whole, Bool.eq_false_iff.2 visible, Prod.ext isKind isText.1.2⟩

/-- A token is cut off where the rest does not go on with it. -/
theorem Lexes.cuts (lexes : Lexes kind text) (known : kind ≠ .stray) (apart : Apart rest) :
    Cuts pos text.toList rest [⟨kind, text, pos⟩] := by
  obtain ⟨first, others, rfl, visible, leads⟩ := lexes.exists_leading
  rw [String.toList_ofList]
  exact .lexeme visible (leading_append leads (fun stray => absurd stray known) apart)

theorem Lexes.cuts_space (lexes : Lexes kind text) : Cuts pos text.toList (' ' :: rest) [⟨kind, text, pos⟩] := by
  obtain ⟨first, others, rfl, visible, leads⟩ := lexes.exists_leading
  rw [String.toList_ofList]
  exact .lexeme visible (leading_append leads (fun _ => by simp) apart_space)

section Into

variable {α β : Type} {tokensOf : α → List Token} {tokensOfNext : β → List Token} {fits : α → Prop} {fitsNext : β → Prop}

/-- In front of `rest`, and from any position on, the piece is cut into the tokens of something that
fits. -/
def CutsInto (tokensOf : α → List Token) (fits : α → Prop) (piece rest : List Char) : Prop :=
  ∀ pos, ∃ found, fits found ∧ Cuts pos piece rest (tokensOf found)

theorem CutsInto.append (first : CutsInto tokensOf fits piece (next ++ rest))
    (second : CutsInto tokensOfNext fitsNext next rest) :
    CutsInto (fun both : α × β => tokensOf both.1 ++ tokensOfNext both.2) (fun both => fits both.1 ∧ fitsNext both.2)
      (piece ++ next) rest := by
  intro pos
  obtain ⟨found, fit, cuts⟩ := first pos
  obtain ⟨later, fitLater, cutsNext⟩ := second (pos.past piece)
  exact ⟨(found, later), ⟨fit, fitLater⟩, cuts.append cutsNext⟩

theorem CutsInto.blanks (cuts : CutsInto tokensOf fits piece (next ++ rest))
    (blank : ∀ c ∈ next, Text.isBlank c = true) : CutsInto tokensOf fits (piece ++ next) rest := by
  intro pos
  obtain ⟨found, fit, cuts⟩ := cuts pos
  exact ⟨found, fit, by simpa using cuts.append (.blanks blank)⟩

theorem CutsInto.space (cuts : CutsInto tokensOf fits piece (' ' :: rest)) : CutsInto tokensOf fits (piece ++ [' ']) rest :=
  .blanks cuts (by simp; decide)

theorem CutsInto.afterSpace (cuts : CutsInto tokensOf fits piece rest) : CutsInto tokensOf fits (' ' :: piece) rest := by
  intro pos
  obtain ⟨found, fit, cuts⟩ := cuts (pos.past [' '])
  have blank : Cuts pos [' '] (piece ++ rest) [] := .blanks (by simp; decide)
  exact ⟨found, fit, blank.append cuts⟩

/-- What the piece is cut into can be taken for something else with the same tokens. -/
theorem CutsInto.map (cuts : CutsInto tokensOf fits piece rest) (f : α → β)
    (sameTokens : ∀ found, tokensOfNext (f found) = tokensOf found)
    (step : ∀ found, fits found → fitsNext (f found)) : CutsInto tokensOfNext fitsNext piece rest := by
  intro pos
  obtain ⟨found, fit, cuts⟩ := cuts pos
  exact ⟨f found, step found fit, by rwa [sameTokens]⟩

/-- The piece is cut into one token, which has this kind and text. -/
abbrev CutsIntoToken (kind : Kind) (text : String) (piece rest : List Char) : Prop :=
  CutsInto (fun token : Token.Of kind => [token.val]) (fun token => token.val.text = text) piece rest

theorem Lexes.cutsInto (lexes : Lexes kind text) (known : kind ≠ .stray) (apart : Apart rest) :
    CutsIntoToken kind text text.toList rest :=
  fun pos => ⟨⟨⟨kind, text, pos⟩, rfl⟩, rfl, lexes.cuts known apart⟩

theorem CutsInto.symbol {first : Char} (visible : Text.isBlank first = false)
    (leads : ∀ rest, leading first rest = (kind, [])) : CutsIntoToken kind (String.ofList [first]) [first] rest :=
  fun pos => ⟨⟨⟨kind, String.ofList [first], pos⟩, rfl⟩, rfl, .lexeme visible (leads _)⟩

theorem cutsInto_opening : CutsIntoToken .opening "(" ['('] rest := .symbol (by decide) fun _ => rfl

theorem cutsInto_closing (rest : List Char) : CutsIntoToken .closing ")" [')'] rest := .symbol (by decide) fun _ => rfl

end Into

theorem Lexes.cases (lexes : Lexes kind text) :
    kind ∈ .arrow :: symbolKinds ∨
    (kind = .number ∧ text ≠ "" ∧ ∀ c ∈ text.toList, Text.isNumeral c = true) ∨
    kindOfWord text.toList = kind := by
  obtain ⟨first, others, rfl, _, leads⟩ := lexes.exists_leading
  rw [String.toList_ofList]
  rcases leading_cases first with ⟨_, mem, symbol⟩ | arrow | ⟨numeral, number⟩ | ⟨_, word⟩
  · rw [symbol, Prod.mk.injEq] at leads
    exact .inl (List.mem_cons_of_mem _ (leads.1 ▸ mem))
  · left
    rw [arrow] at leads
    split at leads
    · cases leads
      decide
    · cases leads
      decide
  · rw [number, Prod.mk.injEq] at leads
    refine .inr (.inl ⟨leads.1.symm, by simp [← String.toList_inj], ?_⟩)
    exact List.forall_mem_cons.2 ⟨numeral, List.takeWhile_eq_self_iff.1 leads.2⟩
  · rw [word, Prod.mk.injEq] at leads
    obtain ⟨isKind, all⟩ := leads
    rw [all] at isKind
    exact .inr (.inr isKind)

theorem lexes_number_iff : Lexes .number text ↔ text ≠ "" ∧ ∀ c ∈ text.toList, Text.isNumeral c = true := by
  constructor
  · intro lexes
    rcases lexes.cases with symbol | ⟨_, numerals⟩ | word
    · exact absurd symbol (by decide)
    · exact numerals
    · exact absurd word (by simp only [kindOfWord]; grind)
  · rintro ⟨nonempty, numerals⟩
    cases chars : text.toList with
    | nil => exact absurd (String.toList_inj.1 chars) nonempty
    | cons first others =>
      have whole : text = String.ofList (first :: others) := by rw [← chars, String.ofList_toList]
      rw [chars, List.forall_mem_cons] at numerals
      have visible : Text.isBlank first = false := by
        rw [Bool.eq_false_iff]
        intro blank
        have goesOn := continuesWord_of_isNumeral numerals.1
        rw [continuesWord_of_isBlank blank] at goesOn
        cases goesOn
      rw [whole]
      refine lexes_of_leading visible ?_
      rw [leading_of_isNumeral numerals.1, List.takeWhile_eq_self_iff.2 numerals.2]

theorem Lexes.eq_render (lexes : Lexes kind text) (keyword : kind ∈ [.kwTrue, .kwFalse, .kwLet, .kwIn]) :
    text = kind.render := by
  rcases lexes.cases with symbol | ⟨rfl, _⟩ | word
  · have apart : ∀ kind ∈ .arrow :: symbolKinds, kind ∉ [.kwTrue, .kwFalse, .kwLet, .kwIn] := by decide
    exact absurd keyword (apart kind symbol)
  · exact absurd keyword (by decide)
  · rw [← String.toList_inj]
    unfold kindOfWord at word
    iterate 4
      split at word
      · subst word
        assumption
    subst word
    exact absurd keyword (by decide)

end Token

end HindleyMilner
