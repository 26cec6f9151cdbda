import HindleyMilner.Proofs.ExpressionGrammar
import HindleyMilner.Proofs.Lexing

/-! The text of an expression reads back as the expression.

An expression is writable if its names are words and its literals are what a literal token can be.
The text of a writable expression is cut into the tokens of a phrase, whatever follows it, as long as
that does not go on with a word. So expressions written one after the other, with blanks between
them, are read one after the other. Everything that can be read is writable. -/

set_option autoImplicit false

namespace HindleyMilner.Expr

open Lexeme Reader
open Token (Cuts CutsInto CutsIntoToken Lexes cutsInto_opening cutsInto_closing)

/-- The expression without positions and assigned types. -/
def bare : Expr → Expr
  | .absent => .absent
  | .lit kind text _ => .lit kind text {}
  | .var name _ => .var name {}
  | .call fn arg _ => .call fn.bare arg.bare {}
  | .func param body _ => .func param body.bare {}
  | .letIn name value body _ => .letIn name value.bare body.bare {}

/-- All names are words and all literals are literal tokens of their kinds. -/
def IsWritable : Expr → Prop
  | .absent => False
  | .lit .int text _ =>
    text ≠ "" ∧ text.toList.all Text.isNumeral = true ∧ Text.numeralValue text.toList ≤ 0x7FFFFFFFFFFFFFFF
  | .lit .bool text _ => text = "true" ∨ text = "false"
  | .lit (.unknown _) _ _ => False
  | .var name _ => Token.Lexes .word name
  | .call fn arg _ => fn.IsWritable ∧ arg.IsWritable
  | .func param body _ => Token.Lexes .word param ∧ body.IsWritable
  | .letIn name value body _ => Token.Lexes .word name ∧ value.IsWritable ∧ body.IsWritable

instance decidableIsWritable : (e : Expr) → Decidable e.IsWritable
  | .absent => inferInstanceAs (Decidable False)
  | .lit .int _ _ => inferInstanceAs (Decidable (_ ∧ _ ∧ _))
  | .lit .bool _ _ => inferInstanceAs (Decidable (_ ∨ _))
  | .lit (.unknown _) _ _ => inferInstanceAs (Decidable False)
  | .var _ _ => inferInstanceAs (Decidable (Lexes _ _))
  | .call fn arg _ =>
    have := decidableIsWritable fn
    have := decidableIsWritable arg
    inferInstanceAs (Decidable (_ ∧ _))
  | .func _ body _ =>
    have := decidableIsWritable body
    inferInstanceAs (Decidable (_ ∧ _))
  | .letIn _ value body _ =>
    have := decidableIsWritable value
    have := decidableIsWritable body
    inferInstanceAs (Decidable (_ ∧ _ ∧ _))

/-- The text of the expression is cut into a phrase for it, unless what follows goes on with a word. -/
def ReadsBack (e : Expr) : Prop :=
  ∀ rest, Apart rest → CutsInto Phrase.tokens (fun phrase => phrase.tree.bare = e.bare) e.render.toList rest

section ReadsBack

variable {fn arg value body : Expr} {mark : Mark} {pos : Position} {name : String}

theorem ReadsBack.call (readsFn : fn.ReadsBack) (readsArg : arg.ReadsBack) : (Expr.call fn arg mark).ReadsBack := by
  intro rest apart start
  have pieces : (Expr.call fn arg mark).render.toList =
      ['('] ++ ((fn.render.toList ++ [' ']) ++ (arg.render.toList ++ [')'])) := by simp [render]
  -- Every piece but the opening parenthesis is followed by a space or a parenthesis, which ends it.
  have cuts := cutsInto_opening.append
    ((readsFn _ apart_space).space.append ((readsArg _ apart_closing).append (cutsInto_closing rest)))
  obtain ⟨⟨opening, fn', arg', closing⟩, ⟨_, sameFn, sameArg, _⟩, cuts⟩ := cuts start
  rw [pieces]
  refine ⟨.call opening fn' (.one arg') closing, ?_, cuts⟩
  simp [Phrase.tree, Arguments.trees, calls, bare, sameFn, sameArg]

theorem ReadsBack.func (isName : Lexes .word name) (readsBody : body.ReadsBack) : (Expr.func name body mark).ReadsBack := by
  intro rest apart start
  have lambda {rest : List Char} : CutsIntoToken .lambda "\\" ['\\'] rest := .symbol (by decide) fun _ => rfl
  have arrow : Lexes .arrow "->" := by decide
  have pieces : (Expr.func name body mark).render.toList =
      ['('] ++ (['\\'] ++ ((name.toList ++ [' ']) ++ (("->".toList ++ [' ']) ++ (body.render.toList ++ [')'])))) := by
    simp [render]
  have cuts := cutsInto_opening.append (lambda.append ((isName.cutsInto (by decide) apart_space).space.append
    ((arrow.cutsInto (by decide) apart_space).space.append ((readsBody _ apart_closing).append (cutsInto_closing rest)))))
  obtain ⟨⟨opening, lambda, param, arrow, body', closing⟩, ⟨_, _, rfl, _, sameBody, _⟩, cuts⟩ := cuts start
  rw [pieces]
  refine ⟨.func opening lambda param arrow body' closing, ?_, cuts⟩
  simp [Phrase.tree, bare, sameBody]

theorem ReadsBack.letIn (isName : Lexes .word name) (readsValue : value.ReadsBack) (readsBody : body.ReadsBack) :
    (Expr.letIn name value body pos).ReadsBack := by
  intro rest apart start
  have kwLet : Lexes .kwLet "let" := by decide
  have equals : Lexes .equals "=" := by decide
  have kwIn : Lexes .kwIn "in" := by decide
  have pieces : (Expr.letIn name value body pos).render.toList =
      ['('] ++ (("let".toList ++ [' ']) ++ ((name.toList ++ [' ']) ++ (("=".toList ++ [' ']) ++
        ((value.render.toList ++ [' ']) ++ (("in".toList ++ [' ']) ++ (body.render.toList ++ [')'])))))) := by
    simp [render]
  have cuts := cutsInto_opening.append ((kwLet.cutsInto (by decide) apart_space).space.append
    ((isName.cutsInto (by decide) apart_space).space.append ((equals.cutsInto (by decide) apart_space).space.append
      ((readsValue _ apart_space).space.append ((kwIn.cutsInto (by decide) apart_space).space.append
        ((readsBody _ apart_closing).append (cutsInto_closing rest)))))))
  obtain ⟨⟨opening, kwLet, bound, equals, value', kwIn, body', closing⟩,
    ⟨_, _, rfl, _, sameValue, _, sameBody, _⟩, cuts⟩ := cuts start
  rw [pieces]
  refine ⟨.letIn opening kwLet bound equals value' kwIn body' closing, ?_, cuts⟩
  simp [Phrase.tree, bare, sameValue, sameBody]

theorem IsWritable.readsBack {e : Expr} (writable : e.IsWritable) : e.ReadsBack := by
  induction e with
  | absent => exact writable.elim
  | lit kind text mark =>
    intro rest apart pos
    cases kind with
    | unknown code => exact writable.elim
    | int =>
      obtain ⟨nonempty, numerals, inRange⟩ := writable
      have lexes := Token.lexes_number_iff.2 ⟨nonempty, List.all_eq_true.1 numerals⟩
      exact ⟨.number ⟨⟨.number, text, pos⟩, rfl⟩ inRange, rfl, lexes.cuts (by decide) apart⟩
    | bool =>
      rcases writable with rfl | rfl
      · have lexes : Lexes .kwTrue "true" := by decide
        exact ⟨.truth ⟨⟨.kwTrue, "true", pos⟩, rfl⟩, rfl, lexes.cuts (by decide) apart⟩
      · have lexes : Lexes .kwFalse "false" := by decide
        exact ⟨.falsity ⟨⟨.kwFalse, "false", pos⟩, rfl⟩, rfl, lexes.cuts (by decide) apart⟩
  | var name mark =>
    intro rest apart pos
    exact ⟨.name ⟨⟨.word, name, pos⟩, rfl⟩, rfl, Lexes.cuts writable (by decide) apart⟩
  | call fn arg mark ihFn ihArg => exact .call (ihFn writable.1) (ihArg writable.2)
  | func param body mark ih => exact .func writable.1 (ih writable.2)
  | letIn name value body pos ihValue ihBody => exact .letIn writable.1 (ihValue writable.2.1) (ihBody writable.2.2)

end ReadsBack

theorem exists_parse_render {e : Expr} (writable : e.IsWritable) :
    ∃ again, parse e.render = .ok again ∧ again.bare = e.bare := by
  obtain ⟨phrase, same, cuts⟩ := writable.readsBack [] apart_nil .start
  exact ⟨phrase.tree, parse_of_tokens cuts.scan.symm, same⟩

section Readable

theorem isWritable_calls {fn : Expr} {args : List Expr} {mark : Mark} (writableFn : fn.IsWritable)
    (writableArgs : ∀ arg ∈ args, arg.IsWritable) : (calls fn args mark).IsWritable := by
  induction args generalizing fn with
  | nil => exact writableFn
  | cons arg args ih =>
    rw [List.forall_mem_cons] at writableArgs
    exact ih ⟨writableFn, writableArgs.1⟩ writableArgs.2

mutual
theorem Phrase.isWritable : ∀ {phrase : Phrase}, (∀ token ∈ phrase.tokens, Lexes token.kind token.text) →
    phrase.tree.IsWritable
  | .number token inRange, lexes => by
    obtain ⟨nonempty, numerals⟩ : token.val.text ≠ "" ∧ ∀ c ∈ token.val.text.toList, Text.isNumeral c = true := by
      simpa [Phrase.tokens, Token.lexes_number_iff] using lexes
    exact ⟨nonempty, List.all_eq_true.2 numerals, inRange⟩
  | .truth token, lexes => by
    have lexes : Lexes .kwTrue token.val.text := by simpa [Phrase.tokens] using lexes
    exact .inl (lexes.eq_render (by decide))
  | .falsity token, lexes => by
    have lexes : Lexes .kwFalse token.val.text := by simpa [Phrase.tokens] using lexes
    exact .inr (lexes.eq_render (by decide))
  | .name token, lexes => by
    have lexes : Lexes .word token.val.text := by simpa [Phrase.tokens] using lexes
    exact lexes
  | .call opening fn args closing, lexes => by
    simp only [Phrase.tokens, List.forall_mem_cons, List.forall_mem_append] at lexes
    exact isWritable_calls (Phrase.isWritable lexes.2.1) (Arguments.isWritable lexes.2.2.1)
  | .func opening lambda param arrow body closing, lexes => by
    simp only [Phrase.tokens, List.forall_mem_cons, List.forall_mem_append, Token.kind_of] at lexes
    obtain ⟨_, _, isName, _, lexesBody, _⟩ := lexes
    exact ⟨isName, Phrase.isWritable lexesBody⟩
  | .letIn opening kwLet bound equals value kwIn body closing, lexes => by
    simp only [Phrase.tokens, List.forall_mem_cons, List.forall_mem_append, Token.kind_of] at lexes
    obtain ⟨_, _, isName, _, lexesValue, _, lexesBody, _⟩ := lexes
    exact ⟨isName, Phrase.isWritable lexesValue, Phrase.isWritable lexesBody⟩

theorem Arguments.isWritable : ∀ {args : Arguments}, (∀ token ∈ args.tokens, Lexes token.kind token.text) →
    ∀ arg ∈ args.trees, arg.IsWritable
  | .one arg, lexes => by
    rw [Arguments.trees, List.forall_mem_singleton]
    exact Phrase.isWritable lexes
  | .more arg others, lexes => by
    rw [Arguments.tokens, List.forall_mem_append] at lexes
    rw [Arguments.trees, List.forall_mem_cons]
    exact ⟨Phrase.isWritable lexes.1, Arguments.isWritable lexes.2⟩
end

theorem isWritable_of_parse {text : String} {e : Expr} (parses : parse text = .ok e) : e.IsWritable := by
  obtain ⟨phrase, tokens, rfl⟩ := exists_phrase_of_parse parses
  refine phrase.isWritable fun token mem => ?_
  rw [tokens] at mem
  exact (Token.lexes_of_mem mem).1

end Readable

section Series

/-- Blanks, at least one. -/
abbrev Gap := { gap : String // gap ≠ "" ∧ ∀ c ∈ gap.toList, Text.isBlank c = true }

/-- The texts of the expressions with gaps between them; there is a gap for each number of
expressions that are still to come. -/
def renderAll (gap : Nat → Gap) : List Expr → String
  | [] => ""
  | [e] => e.render
  | e :: next :: es => e.render ++ (gap es.length).val ++ renderAll gap (next :: es)

/-- Read so many expressions, one after the other. -/
def readTimes (stop : Position) : Nat → List Token → List (Except SyntaxError Expr) × List Token
  | 0, tokens => ([], tokens)
  | n + 1, tokens =>
    let (outcome, rest) := run tokens (read stop tokens)
    let (outcomes, rest) := readTimes stop n rest
    (outcome :: outcomes, rest)

theorem readTimes_phrases (stop : Position) (phrases : List Phrase) :
    readTimes stop phrases.length (phrases.flatMap Phrase.tokens) = (phrases.map fun phrase => .ok phrase.tree, []) := by
  induction phrases with
  | nil => rfl
  | cons phrase phrases ih =>
    have first := run_of_gives (phrase.gives_read stop (phrases.flatMap Phrase.tokens))
    rw [List.flatMap_cons, List.length_cons, readTimes, first]
    simp [ih]

theorem cutsInto_renderAll (gap : Nat → Gap) : ∀ {es : List Expr}, (∀ e ∈ es, e.IsWritable) →
    CutsInto (List.flatMap Phrase.tokens) (fun phrases => phrases.map (fun phrase => phrase.tree.bare) = es.map bare)
      (renderAll gap es).toList []
  | [], _ => fun pos => ⟨[], rfl, .nil⟩
  | [e], writable => by
    intro pos
    obtain ⟨phrase, same, cuts⟩ := (writable e (by simp)).readsBack [] apart_nil pos
    exact ⟨[phrase], by simp [same], by simpa [renderAll] using cuts⟩
  | e :: next :: es, writable => by
    intro pos
    obtain ⟨writableFirst, writableRest⟩ := List.forall_mem_cons.1 writable
    obtain ⟨nonempty, blank⟩ := (gap es.length).property
    have apart {rest : List Char} : Apart ((gap es.length).val.toList ++ rest) := apart_blanks (by simpa using nonempty) blank
    have cuts := (((writableFirst.readsBack _ apart).blanks blank).append (cutsInto_renderAll gap writableRest)) pos
    obtain ⟨⟨phrase, phrases⟩, ⟨same, sameRest⟩, cuts⟩ := cuts
    refine ⟨phrase :: phrases, ?_, ?_⟩
    · simp only [List.map_cons, same, sameRest]
    · simpa [renderAll] using cuts

end Series

/-- Writable expressions are read back from their texts, one after the other, with nothing left; and
every expression that was read is writable, so its text reads back as the expression. -/
theorem readTimes_renderAll :
    (∀ (gap : Nat → Gap) (es : List Expr), (∀ e ∈ es, e.IsWritable) →
      ∃ trees : List Expr, trees.map bare = es.map bare ∧
        readTimes (Token.scan (renderAll gap es).toList).2 es.length (Token.scan (renderAll gap es).toList).1 =
          (trees.map .ok, [])) ∧
    (∀ (text : String) (e : Expr), parse text = .ok e →
      e.IsWritable ∧ ∃ again, parse e.render = .ok again ∧ again.bare = e.bare) := by
  constructor
  · intro gap es writable
    obtain ⟨phrases, same, cuts⟩ := cutsInto_renderAll gap writable .start
    have lengths : es.length = phrases.length := by simpa using (congrArg List.length same).symm
    refine ⟨phrases.map Phrase.tree, ?_, ?_⟩
    · rw [List.map_map]
      exact same
    · rw [cuts.scan, lengths, readTimes_phrases, List.map_map]
      rfl
  · intro text e parses
    have writable := isWritable_of_parse parses
    exact ⟨writable, exists_parse_render writable⟩

theorem readTimes_renderAll_two :
    ∃ trees : List Expr, trees.map bare = [.func "x'" (.var "x'" {}) {}, .lit .int "007" {}] ∧
      readTimes (Token.scan "(\\x' -> x')\n007".toList).2 2 (Token.scan "(\\x' -> x')\n007".toList).1 =
        (trees.map .ok, []) := by
  have newline : "\n" ≠ "" ∧ ∀ c ∈ "\n".toList, Text.isBlank c = true := by
    rw [show "\n".toList = ['\n'] from rfl, List.forall_mem_singleton]
    decide
  have writable : ∀ e ∈ [Expr.func "x'" (.var "x'" {}) {}, .lit .int "007" {}], e.IsWritable := by
    rw [List.forall_mem_cons, List.forall_mem_singleton]
    decide
  exact readTimes_renderAll.1 (fun _ => ⟨"\n", newline⟩) _ writable

end HindleyMilner.Expr
