import HindleyMilner.Expr.Reader
import HindleyMilner.Proofs.Reading

/-! The grammar of expressions.

A phrase is a derivation of the grammar. It is made of the tokens that it derives, it has an
expression as its meaning, and no other phrase derives the same tokens. Reading an expression finds
the phrase that the tokens start with. -/

set_option autoImplicit false

namespace HindleyMilner.Expr

mutual
/-- The productions of the grammar; a call has one argument or more. -/
inductive Phrase where
  | number (token : Token.Of .number) (inRange : Text.numeralValue token.val.text.toList ≤ 0x7FFFFFFFFFFFFFFF)
  | truth (token : Token.Of .kwTrue)
  | falsity (token : Token.Of .kwFalse)
  | name (token : Token.Of .word)
  | call (opening : Token.Of .opening) (fn : Phrase) (args : Arguments) (closing : Token.Of .closing)
  | func (opening : Token.Of .opening) (lambda : Token.Of .lambda) (param : Token.Of .word)
      (arrow : Token.Of .arrow) (body : Phrase) (closing : Token.Of .closing)
  | letIn (opening : Token.Of .opening) (kwLet : Token.Of .kwLet) (name : Token.Of .word)
      (equals : Token.Of .equals) (value : Phrase) (kwIn : Token.Of .kwIn) (body : Phrase)
      (closing : Token.Of .closing)

inductive Arguments where
  | one (arg : Phrase)
  | more (arg : Phrase) (others : Arguments)
end

mutual
def Phrase.tokens : Phrase → List Token
  | .number token _ => [token.val]
  | .truth token => [token.val]
  | .falsity token => [token.val]
  | .name token => [token.val]
  | .call opening fn args closing => opening.val :: (fn.tokens ++ (args.tokens ++ [closing.val]))
  | .func opening lambda param arrow body closing =>
    opening.val :: lambda.val :: param.val :: arrow.val :: (body.tokens ++ [closing.val])
  | .letIn opening kwLet name equals value kwIn body closing =>
    opening.val :: kwLet.val :: name.val :: equals.val ::
      (value.tokens ++ kwIn.val :: (body.tokens ++ [closing.val]))

def Arguments.tokens : Arguments → List Token
  | .one arg => arg.tokens
  | .more arg others => arg.tokens ++ others.tokens
end

mutual
/-- The expression that a phrase stands for. The nodes of a group have the position of its opening
parenthesis. -/
def Phrase.tree : Phrase → Expr
  | .number token _ => .lit .int token.val.text ⟨token.val.pos, .absent⟩
  | .truth token => .lit .bool token.val.text ⟨token.val.pos, .absent⟩
  | .falsity token => .lit .bool token.val.text ⟨token.val.pos, .absent⟩
  | .name token => .var token.val.text ⟨token.val.pos, .absent⟩
  | .call opening fn args _ => .calls fn.tree args.trees ⟨opening.val.pos, .absent⟩
  | .func opening _ param _ body _ => .func param.val.text body.tree ⟨opening.val.pos, .absent⟩
  | .letIn opening _ name _ value _ body _ => .letIn name.val.text value.tree body.tree opening.val.pos

def Arguments.trees : Arguments → List Expr
  | .one arg => [arg.tree]
  | .more arg others => arg.tree :: others.trees
end

open Reader

def startsPhrase : Token.Kind → Bool
  | .number | .kwTrue | .kwFalse | .word | .opening => true
  | _ => false

theorem Phrase.exists_first (phrase : Phrase) :
    ∃ first others, phrase.tokens = first :: others ∧ startsPhrase first.kind = true := by
  cases phrase <;> exact ⟨_, _, by rw [Phrase.tokens], by rw [Token.kind_of]; rfl⟩

theorem Phrase.next_append (stop : Position) (rest : List Token) (phrase : Phrase) :
    (next stop (phrase.tokens ++ rest)).kind ≠ .kwLet ∧ (next stop (phrase.tokens ++ rest)).kind ≠ .lambda := by
  obtain ⟨first, others, tokens, starts⟩ := phrase.exists_first
  rw [tokens, List.cons_append, next]
  exact ⟨fun kind => by simp [kind, startsPhrase] at starts, fun kind => by simp [kind, startsPhrase] at starts⟩

theorem Arguments.exists_first (args : Arguments) :
    ∃ first others, args.tokens = first :: others ∧ startsPhrase first.kind = true := by
  cases args with
  | one arg =>
    rw [Arguments.tokens]
    exact arg.exists_first
  | more arg others =>
    obtain ⟨first, rest, tokens, starts⟩ := arg.exists_first
    exact ⟨first, rest ++ others.tokens, by rw [Arguments.tokens, tokens, List.cons_append], starts⟩

section Steps

variable {stop pos : Position} {tokens rest : List Token} {e : Expr} {es : List Expr}

theorem gives_read_opening {opening : Token} (kind : opening.kind = .opening) :
    Gives (read stop (opening :: tokens)) e rest ↔
      ∃ closing : Token.Of .closing, Gives (readGroup stop opening.pos tokens) e (closing.val :: rest) := by
  rw [read]
  simp only [kind, gives_bind, gives_expectToken, gives_pure, exists_prop]
  constructor
  · rintro ⟨_, _, gives, closing, _, ⟨rfl, kindClosing⟩, rfl, rfl⟩
    exact ⟨⟨closing, kindClosing⟩, gives⟩
  · rintro ⟨closing, gives⟩
    exact ⟨e, _, gives, closing, rest, ⟨rfl, closing.property⟩, rfl, rfl⟩

theorem gives_readGroup_lambda {lambda : Token} (kind : lambda.kind = .lambda) :
    Gives (readGroup stop pos (lambda :: tokens)) e rest ↔
      ∃ (param : Token.Of .word) (arrow : Token.Of .arrow) (inside : List Token) (body : Expr),
        tokens = param.val :: arrow.val :: inside ∧ Gives (read stop inside) body rest ∧
          .func param.val.text body ⟨pos, .absent⟩ = e := by
  rw [readGroup]
  simp only [next, kind, gives_bind, gives_expectToken, gives_expect, gives_pure, exists_prop]
  constructor
  · rintro ⟨_, _, ⟨same, _⟩, param, _, ⟨rfl, kindParam⟩, arrow, inside, ⟨rfl, kindArrow⟩, body, _, gives, rfl, rfl⟩
    cases same
    exact ⟨⟨param, kindParam⟩, ⟨arrow, kindArrow⟩, inside, body, rfl, gives, rfl⟩
  · rintro ⟨param, arrow, inside, body, rfl, gives, rfl⟩
    exact ⟨lambda, _, ⟨rfl, kind⟩, param, _, ⟨rfl, param.property⟩, arrow, inside, ⟨rfl, arrow.property⟩, body, rest,
      gives, rfl, rfl⟩

theorem gives_readGroup_let {kwLet : Token} (kind : kwLet.kind = .kwLet) :
    Gives (readGroup stop pos (kwLet :: tokens)) e rest ↔
      ∃ (name : Token.Of .word) (equals : Token.Of .equals) (inside : List Token) (value : Expr)
        (kwIn : Token.Of .kwIn) (later : List Token) (body : Expr),
        tokens = name.val :: equals.val :: inside ∧ Gives (read stop inside) value (kwIn.val :: later) ∧
          Gives (read stop later) body rest ∧ .letIn name.val.text value body pos = e := by
  rw [readGroup]
  simp only [next, kind, gives_bind, gives_expectToken, gives_expect, gives_pure, exists_prop]
  constructor
  · rintro ⟨_, _, ⟨same, _⟩, name, _, ⟨rfl, kindName⟩, equals, inside, ⟨rfl, kindEquals⟩, value, _, gives,
      kwIn, later, ⟨rfl, kindIn⟩, body, _, givesBody, rfl, rfl⟩
    cases same
    exact ⟨⟨name, kindName⟩, ⟨equals, kindEquals⟩, inside, value, ⟨kwIn, kindIn⟩, later, body, rfl, gives, givesBody, rfl⟩
  · rintro ⟨name, equals, inside, value, kwIn, later, body, rfl, gives, givesBody, rfl⟩
    exact ⟨kwLet, _, ⟨rfl, kind⟩, name, _, ⟨rfl, name.property⟩, equals, inside, ⟨rfl, equals.property⟩, value, _, gives,
      kwIn, later, ⟨rfl, kwIn.property⟩, body, rest, givesBody, rfl, rfl⟩

theorem gives_readGroup_call (notLet : (next stop tokens).kind ≠ .kwLet) (notLambda : (next stop tokens).kind ≠ .lambda) :
    Gives (readGroup stop pos tokens) e rest ↔
      ∃ (fn first : Expr) (others : List Expr) (middle later : List Token),
        Gives (read stop tokens) fn middle ∧ Gives (read stop middle) first later ∧
          Gives (readArgs stop later) others rest ∧ .calls fn (first :: others) ⟨pos, .absent⟩ = e := by
  rw [readGroup]
  split
  · contradiction
  · contradiction
  · simp only [gives_bind, gives_pure, exists_prop]
    constructor
    · rintro ⟨fn, middle, givesFn, first, later, givesFirst, others, _, givesOthers, rfl, rfl⟩
      exact ⟨fn, first, others, middle, later, givesFn, givesFirst, givesOthers, rfl⟩
    · rintro ⟨fn, first, others, middle, later, givesFn, givesFirst, givesOthers, rfl⟩
      exact ⟨fn, middle, givesFn, first, later, givesFirst, others, rest, givesOthers, rfl, rfl⟩

theorem gives_readArgs_end (ends : ∀ token ∈ tokens.head?, token.kind = .closing) :
    Gives (readArgs stop tokens) es rest ↔ [] = es ∧ tokens = rest := by
  cases tokens with
  | nil => simp [readArgs]
  | cons token others =>
    have kind : token.kind = .closing := ends token rfl
    simp [readArgs, kind]

theorem gives_readArgs_more {token : Token} (kind : token.kind ≠ .closing) :
    Gives (readArgs stop (token :: tokens)) es rest ↔
      ∃ (arg : Expr) (others : List Expr) (middle : List Token),
        Gives (read stop (token :: tokens)) arg middle ∧ Gives (readArgs stop middle) others rest ∧
          arg :: others = es := by
  rw [readArgs]
  simp only [kind, if_false, gives_bind, gives_pure, exists_prop]
  constructor
  · rintro ⟨arg, middle, gives, others, _, givesOthers, rfl, rfl⟩
    exact ⟨arg, others, middle, gives, givesOthers, rfl⟩
  · rintro ⟨arg, others, middle, gives, givesOthers, rfl⟩
    exact ⟨arg, middle, gives, others, rest, givesOthers, rfl, rfl⟩

end Steps

section Complete

variable (stop : Position)

mutual
/-- A phrase is read whatever follows it. -/
theorem Phrase.gives_read (rest : List Token) :
    ∀ phrase : Phrase, Gives (read stop (phrase.tokens ++ rest)) phrase.tree rest
  | .number token inRange => by
    have small : Text.numeralValue token.val.text.toList ≤ greatestNumber := inRange
    simp [Phrase.tokens, Phrase.tree, read, small]
  | .truth token => by simp [Phrase.tokens, Phrase.tree, read]
  | .falsity token => by simp [Phrase.tokens, Phrase.tree, read]
  | .name token => by simp [Phrase.tokens, Phrase.tree, read]
  -- What a reader gives is typed by the tokens it starts from, so they are rewritten as a whole.
  | .call opening fn args closing => by
    have split : (Phrase.call opening fn args closing).tokens ++ rest =
      opening.val :: (fn.tokens ++ (args.tokens ++ closing.val :: rest)) := by simp [Phrase.tokens]
    rw [split, Phrase.tree, gives_read_opening opening.property]
    obtain ⟨arg, more, middle, givesArg, givesMore, trees⟩ := args.gives_read (closing.val :: rest) (by simp)
    obtain ⟨notLet, notLambda⟩ := fn.next_append stop (args.tokens ++ closing.val :: rest)
    refine ⟨closing, (gives_readGroup_call notLet notLambda).2 ?_⟩
    exact ⟨fn.tree, arg, more, _, middle, fn.gives_read _, givesArg, givesMore, by rw [trees]⟩
  | .func opening lambda param arrow body closing => by
    have split : (Phrase.func opening lambda param arrow body closing).tokens ++ rest =
      opening.val :: lambda.val :: param.val :: arrow.val :: (body.tokens ++ closing.val :: rest) := by
        simp [Phrase.tokens]
    rw [split, Phrase.tree, gives_read_opening opening.property]
    refine ⟨closing, (gives_readGroup_lambda lambda.property).2 ?_⟩
    exact ⟨param, arrow, _, body.tree, rfl, body.gives_read _, rfl⟩
  | .letIn opening kwLet name equals value kwIn body closing => by
    have split : (Phrase.letIn opening kwLet name equals value kwIn body closing).tokens ++ rest =
      opening.val :: kwLet.val :: name.val :: equals.val ::
        (value.tokens ++ kwIn.val :: (body.tokens ++ closing.val :: rest)) := by simp [Phrase.tokens]
    rw [split, Phrase.tree, gives_read_opening opening.property]
    refine ⟨closing, (gives_readGroup_let kwLet.property).2 ?_⟩
    exact ⟨name, equals, _, value.tree, kwIn, _, body.tree, rfl, value.gives_read _, body.gives_read _, rfl⟩

theorem Arguments.gives_read (rest : List Token) (ends : ∀ token ∈ rest.head?, token.kind = .closing) :
    ∀ args : Arguments, ∃ first others middle, Gives (read stop (args.tokens ++ rest)) first middle ∧
      Gives (readArgs stop middle) others rest ∧ args.trees = first :: others
  | .one arg => by
    refine ⟨arg.tree, [], rest, ?_, (gives_readArgs_end ends).2 ⟨rfl, rfl⟩, by rw [Arguments.trees]⟩
    rw [Arguments.tokens]
    exact arg.gives_read rest
  | .more arg others => by
    obtain ⟨first, more, middle, givesFirst, givesMore, trees⟩ := others.gives_read rest ends
    obtain ⟨token, left, start, starts⟩ := others.exists_first
    refine ⟨arg.tree, others.trees, others.tokens ++ rest, ?_, ?_, by rw [Arguments.trees]⟩
    · rw [Arguments.tokens, List.append_assoc]
      exact arg.gives_read _
    · -- No argument starts with the token that ends the arguments.
      rw [start, List.cons_append] at givesFirst ⊢
      refine (gives_readArgs_more fun kind => ?_).2 ⟨first, more, middle, givesFirst, givesMore, trees.symm⟩
      rw [kind] at starts
      cases starts
end

end Complete

section Sound

variable {stop : Position}

mutual
theorem exists_phrase {tokens rest : List Token} {e : Expr} (gives : Gives (read stop tokens) e rest) :
    ∃ phrase : Phrase, tokens = phrase.tokens ++ rest ∧ phrase.tree = e := by
  cases tokens with
  | nil => simp [read] at gives
  | cons token others =>
    cases kind : token.kind with
    | number =>
      rw [read] at gives
      simp only [kind] at gives
      split at gives
      · rename_i small
        obtain ⟨rfl, rfl⟩ := gives_ok.1 gives
        exact ⟨.number ⟨token, kind⟩ small, rfl, rfl⟩
      · exact absurd gives not_gives_error
    | kwTrue =>
      simp only [read, kind, gives_ok] at gives
      obtain ⟨rfl, rfl⟩ := gives
      exact ⟨.truth ⟨token, kind⟩, rfl, rfl⟩
    | kwFalse =>
      simp only [read, kind, gives_ok] at gives
      obtain ⟨rfl, rfl⟩ := gives
      exact ⟨.falsity ⟨token, kind⟩, rfl, rfl⟩
    | word =>
      simp only [read, kind, gives_ok] at gives
      obtain ⟨rfl, rfl⟩ := gives
      exact ⟨.name ⟨token, kind⟩, rfl, rfl⟩
    | opening =>
      obtain ⟨closing, gives⟩ := (gives_read_opening kind).1 gives
      exact exists_phrase_of_group ⟨token, kind⟩ closing gives
    | _ => simp [read, kind] at gives
termination_by (tokens.length, 0)

theorem exists_phrase_of_group {tokens rest : List Token} {e : Expr} (opening : Token.Of .opening)
    (closing : Token.Of .closing) (gives : Gives (readGroup stop opening.val.pos tokens) e (closing.val :: rest)) :
    ∃ phrase : Phrase, opening.val :: tokens = phrase.tokens ++ rest ∧ phrase.tree = e := by
  -- The first token decides between the groups; whatever is not announced by one is a call.
  by_cases isLet : (next stop tokens).kind = .kwLet
  · cases tokens with
    | nil => cases isLet
    | cons kwLet others =>
      obtain ⟨name, equals, inside, _, kwIn, later, _, rfl, givesValue, givesBody, rfl⟩ :=
        (gives_readGroup_let isLet).1 gives
      obtain ⟨value, rfl, rfl⟩ := exists_phrase givesValue
      obtain ⟨body, rfl, rfl⟩ := exists_phrase givesBody
      exact ⟨.letIn opening ⟨kwLet, isLet⟩ name equals value kwIn body closing, by simp [Phrase.tokens], rfl⟩
  · by_cases isLambda : (next stop tokens).kind = .lambda
    · cases tokens with
      | nil => cases isLambda
      | cons lambda others =>
        obtain ⟨param, arrow, inside, _, rfl, givesBody, rfl⟩ := (gives_readGroup_lambda isLambda).1 gives
        obtain ⟨body, rfl, rfl⟩ := exists_phrase givesBody
        exact ⟨.func opening ⟨lambda, isLambda⟩ param arrow body closing, by simp [Phrase.tokens], rfl⟩
    · obtain ⟨_, first, others, middle, later, givesFn, givesFirst, givesOthers, rfl⟩ :=
        (gives_readGroup_call isLet isLambda).1 gives
      -- The arguments are looked for among fewer tokens, because the function took some.
      have fewer := givesFn.fewer
      obtain ⟨fn, rfl, rfl⟩ := exists_phrase givesFn
      obtain ⟨args, rfl, trees⟩ := exists_arguments givesFirst givesOthers
      exact ⟨.call opening fn args closing, by simp [Phrase.tokens], by rw [Phrase.tree, trees]⟩
termination_by (tokens.length, 2)

theorem exists_arguments {tokens later rest : List Token} {first : Expr} {others : List Expr}
    (givesFirst : Gives (read stop tokens) first later) (gives : Gives (readArgs stop later) others rest) :
    ∃ args : Arguments, tokens = args.tokens ++ rest ∧ args.trees = first :: others := by
  have fewer := givesFirst.fewer
  obtain ⟨arg, rfl, rfl⟩ := exists_phrase givesFirst
  by_cases ends : ∀ token ∈ later.head?, token.kind = .closing
  · obtain ⟨rfl, rfl⟩ := (gives_readArgs_end ends).1 gives
    exact ⟨.one arg, by rw [Arguments.tokens], by rw [Arguments.trees]⟩
  · cases later with
    | nil => simp at ends
    | cons token left =>
      obtain ⟨second, others, middle, givesSecond, givesOthers, rfl⟩ :=
        (gives_readArgs_more (by simpa using ends)).1 gives
      obtain ⟨args, same, trees⟩ := exists_arguments givesSecond givesOthers
      exact ⟨.more arg args, by rw [Arguments.tokens, List.append_assoc, ← same], by rw [Arguments.trees, trees]⟩
termination_by (tokens.length, 1)
end

end Sound

section Unique

variable {rest left : List Token}

theorem val_eq_iff {kind : Token.Kind} {token other : Token.Of kind} : token.val = other.val ↔ token = other :=
  Subtype.ext_iff.symm

theorem val_ne {kind kind' : Token.Kind} {token : Token.Of kind} {other : Token.Of kind'} (differ : kind ≠ kind') :
    token.val ≠ other.val := fun same => differ (by rw [← token.property, same, other.property])

theorem Phrase.append_ne {kind : Token.Kind} (phrase : Phrase) (token : Token.Of kind) (starts : startsPhrase kind = false) :
    phrase.tokens ++ rest ≠ token.val :: left := by
  intro same
  obtain ⟨first, others, tokens, firstStarts⟩ := phrase.exists_first
  rw [tokens, List.cons_append, List.cons.injEq] at same
  rw [same.1, token.property, starts] at firstStarts
  cases firstStarts

theorem Arguments.append_ne {kind : Token.Kind} (args : Arguments) (token : Token.Of kind) (starts : startsPhrase kind = false) :
    args.tokens ++ rest ≠ token.val :: left := by
  cases args with
  | one arg => exact arg.append_ne token starts
  | more arg others =>
    rw [Arguments.tokens, List.append_assoc]
    exact arg.append_ne token starts

mutual
/-- The tokens say which phrase they start with and where it ends. -/
theorem Phrase.eq_of_append {rest left : List Token} : ∀ {phrase other : Phrase},
    phrase.tokens ++ rest = other.tokens ++ left → phrase = other ∧ rest = left
  | .number token _, other, same => by
    cases other <;> simp [Phrase.tokens, val_ne, val_eq_iff] at same ⊢
    exact same
  | .truth token, other, same => by
    cases other <;> simp [Phrase.tokens, val_ne, val_eq_iff] at same ⊢
    exact same
  | .falsity token, other, same => by
    cases other <;> simp [Phrase.tokens, val_ne, val_eq_iff] at same ⊢
    exact same
  | .name token, other, same => by
    cases other <;> simp [Phrase.tokens, val_ne, val_eq_iff] at same ⊢
    exact same
  | .call opening fn args closing, other, same => by
    cases other with
    | call opening' fn' args' closing' =>
      simp only [Phrase.tokens, List.cons_append, List.append_assoc, List.nil_append, List.cons.injEq, val_eq_iff] at same
      obtain ⟨rfl, sameInside⟩ := same
      obtain ⟨rfl, sameArgs⟩ := Phrase.eq_of_append sameInside
      obtain ⟨rfl, sameEnd⟩ := Arguments.eq_of_append sameArgs
      simpa [val_eq_iff] using sameEnd
    -- A call goes on with a phrase, which starts with neither `\` nor `let`.
    | func opening' lambda =>
      simp only [Phrase.tokens, List.cons_append, List.append_assoc, List.cons.injEq] at same
      exact absurd same.2 (fn.append_ne lambda rfl)
    | letIn opening' kwLet =>
      simp only [Phrase.tokens, List.cons_append, List.append_assoc, List.cons.injEq] at same
      exact absurd same.2 (fn.append_ne kwLet rfl)
    | _ => simp [Phrase.tokens, val_ne] at same
  | .func opening lambda param arrow body closing, other, same => by
    cases other with
    | func opening' lambda' param' arrow' body' closing' =>
      simp only [Phrase.tokens, List.cons_append, List.append_assoc, List.nil_append, List.cons.injEq, val_eq_iff] at same
      obtain ⟨rfl, rfl, rfl, rfl, sameBody⟩ := same
      obtain ⟨rfl, sameEnd⟩ := Phrase.eq_of_append sameBody
      simpa [val_eq_iff] using sameEnd
    | call opening' fn =>
      simp only [Phrase.tokens, List.cons_append, List.append_assoc, List.cons.injEq] at same
      exact absurd same.2.symm (fn.append_ne lambda rfl)
    | _ => simp [Phrase.tokens, val_ne] at same
  | .letIn opening kwLet bound equals value kwIn body closing, other, same => by
    cases other with
    | letIn opening' kwLet' bound' equals' value' kwIn' body' closing' =>
      simp only [Phrase.tokens, List.cons_append, List.append_assoc, List.nil_append, List.cons.injEq, val_eq_iff] at same
      obtain ⟨rfl, rfl, rfl, rfl, sameValue⟩ := same
      obtain ⟨rfl, sameIn⟩ := Phrase.eq_of_append sameValue
      rw [List.cons.injEq, val_eq_iff] at sameIn
      obtain ⟨rfl, sameBody⟩ := sameIn
      obtain ⟨rfl, sameEnd⟩ := Phrase.eq_of_append sameBody
      simpa [val_eq_iff] using sameEnd
    | call opening' fn =>
      simp only [Phrase.tokens, List.cons_append, List.append_assoc, List.cons.injEq] at same
      exact absurd same.2.symm (fn.append_ne kwLet rfl)
    | _ => simp [Phrase.tokens, val_ne] at same

theorem Arguments.eq_of_append {rest left : List Token} {closing closing' : Token.Of .closing} :
    ∀ {args other : Arguments}, args.tokens ++ closing.val :: rest = other.tokens ++ closing'.val :: left →
      args = other ∧ closing.val :: rest = closing'.val :: left
  | .one arg, .one arg', same => by
    obtain ⟨rfl, sameEnd⟩ := Phrase.eq_of_append same
    exact ⟨rfl, sameEnd⟩
  | .one arg, .more arg' others, same => by
    rw [Arguments.tokens, Arguments.tokens, List.append_assoc] at same
    obtain ⟨rfl, sameEnd⟩ := Phrase.eq_of_append same
    exact absurd sameEnd.symm (others.append_ne closing rfl)
  | .more arg others, .one arg', same => by
    rw [Arguments.tokens, Arguments.tokens, List.append_assoc] at same
    obtain ⟨rfl, sameEnd⟩ := Phrase.eq_of_append same
    exact absurd sameEnd (others.append_ne closing' rfl)
  | .more arg others, .more arg' others', same => by
    rw [Arguments.tokens, Arguments.tokens, List.append_assoc, List.append_assoc] at same
    obtain ⟨rfl, sameOthers⟩ := Phrase.eq_of_append same
    obtain ⟨rfl, sameEnd⟩ := Arguments.eq_of_append sameOthers
    exact ⟨rfl, sameEnd⟩
end

end Unique

theorem parse_of_tokens {text : String} {phrase : Phrase} (derives : phrase.tokens = (Token.scan text.toList).1) :
    parse text = .ok phrase.tree := by
  have tokens : (Token.scan text.toList).1 = phrase.tokens ++ [] := by rw [List.append_nil, derives]
  rw [parse, readAll_eq_ok_iff, tokens]
  exact phrase.gives_read (Token.scan text.toList).2 []

theorem exists_phrase_of_parse {text : String} {e : Expr} (parses : parse text = .ok e) :
    ∃ phrase : Phrase, phrase.tokens = (Token.scan text.toList).1 ∧ phrase.tree = e := by
  rw [parse, readAll_eq_ok_iff] at parses
  obtain ⟨phrase, tokens, tree⟩ := exists_phrase parses
  exact ⟨phrase, by rw [tokens, List.append_nil], tree⟩

/-- A text is an expression exactly if some phrase derives its tokens; the expression is that of the
phrase, and no other phrase derives these tokens. -/
theorem parse_eq_tree_of_phrase (text : String) :
    ((∃ e, parse text = .ok e) ↔ ∃ phrase : Phrase, phrase.tokens = (Token.scan text.toList).1) ∧
      ∀ phrase : Phrase, phrase.tokens = (Token.scan text.toList).1 →
        parse text = .ok phrase.tree ∧ ∀ other : Phrase, other.tokens = (Token.scan text.toList).1 → other = phrase := by
  refine ⟨⟨?_, ?_⟩, ?_⟩
  · rintro ⟨e, parses⟩
    obtain ⟨phrase, derives, _⟩ := exists_phrase_of_parse parses
    exact ⟨phrase, derives⟩
  · rintro ⟨phrase, derives⟩
    exact ⟨phrase.tree, parse_of_tokens derives⟩
  · intro phrase derives
    refine ⟨parse_of_tokens derives, fun other also => ?_⟩
    have same : other.tokens ++ [] = phrase.tokens ++ [] := by rw [also, derives]
    exact (Phrase.eq_of_append same).1

example : parse "(f 1 x)" = .ok (.call (.call (.var "f" ⟨⟨1, 2⟩, .absent⟩) (.lit .int "1" ⟨⟨1, 4⟩, .absent⟩) ⟨⟨1, 1⟩, .absent⟩)
    (.var "x" ⟨⟨1, 6⟩, .absent⟩) ⟨⟨1, 1⟩, .absent⟩) := by cbv

end HindleyMilner.Expr
