import HindleyMilner.Proofs.Reading
import HindleyMilner.Scheme.Reader

/-! The grammars of types and of type schemes.

Phrases are the derivations, with the tokens that they derive and the type that they stand for. Only
a constructor takes arguments, and it takes all the names and groups that follow it, so an
application and a type are found where nothing follows that would go on with them. A constructor
alone is both an application without arguments and an atom; it is the same type either way. -/

set_option autoImplicit false

namespace HindleyMilner

open Reader

namespace Ty

abbrev VarToken := { token : Token // token.kind = .word ∧ isVarName token.text = true }

abbrev ConToken := { token : Token // token.kind = .word ∧ isVarName token.text = false }

mutual
inductive Phrase where
  | applied (type : Applied)
  | arrow (domain : Applied) (arrow : Token.Of .arrow) (codomain : Phrase)

inductive Applied where
  | con (name : ConToken) (args : Atoms)
  | atom (type : Atom)

inductive Atoms where
  | none
  | more (first : Atom) (others : Atoms)

inductive Atom where
  | var (name : VarToken)
  | con (name : ConToken)
  | group (opening : Token.Of .opening) (type : Phrase) (closing : Token.Of .closing)
end

mutual
def Phrase.tokens : Phrase → List Token
  | .applied type => type.tokens
  | .arrow domain arrow codomain => domain.tokens ++ arrow.val :: codomain.tokens

def Applied.tokens : Applied → List Token
  | .con name args => name.val :: args.tokens
  | .atom type => type.tokens

def Atoms.tokens : Atoms → List Token
  | .none => []
  | .more first others => first.tokens ++ others.tokens

def Atom.tokens : Atom → List Token
  | .var name => [name.val]
  | .con name => [name.val]
  | .group opening type closing => opening.val :: (type.tokens ++ [closing.val])
end

mutual
def Phrase.type : Phrase → Ty
  | .applied type => type.type
  | .arrow domain _ codomain => .arrow domain.type codomain.type

def Applied.type : Applied → Ty
  | .con name args => .app name.val.text args.types
  | .atom type => type.type

def Atoms.types : Atoms → List Ty
  | .none => []
  | .more first others => first.type :: others.types

def Atom.type : Atom → Ty
  | .var name => .var name.val.text
  | .con name => .const name.val.text
  | .group _ type _ => type.type
end

def startsAtom : Token.Kind → Bool
  | .word | .opening => true
  | _ => false

theorem Atom.exists_first (atom : Atom) :
    ∃ first others, atom.tokens = first :: others ∧ startsAtom first.kind = true := by
  cases atom with
  | var name => exact ⟨_, _, by rw [Atom.tokens], by rw [name.property.1]; rfl⟩
  | con name => exact ⟨_, _, by rw [Atom.tokens], by rw [name.property.1]; rfl⟩
  | group opening type closing => exact ⟨_, _, by rw [Atom.tokens], by rw [opening.property]; rfl⟩

section Steps

variable {stop : Position} {tokens rest : List Token} {t : Ty} {ts : List Ty}

theorem gives_read : Gives (read stop tokens) t rest ↔
    (Gives (readApplied stop tokens) t rest ∧ ∀ token ∈ rest.head?, token.kind ≠ .arrow) ∨
      ∃ (domain codomain : Ty) (arrow : Token.Of .arrow) (later : List Token),
        Gives (readApplied stop tokens) domain (arrow.val :: later) ∧ Gives (read stop later) codomain rest ∧
          .arrow domain codomain = t := by
  rw [read]
  simp only [gives_bind]
  constructor
  · rintro ⟨domain, middle, givesDomain, gives⟩
    cases middle with
    | nil =>
      obtain ⟨rfl, rfl⟩ := gives_pure.1 gives
      exact .inl ⟨givesDomain, by simp⟩
    | cons token later =>
      by_cases kind : token.kind = .arrow
      · simp only [kind, if_true, gives_bind, gives_pure, exists_prop] at gives
        obtain ⟨codomain, _, givesCodomain, rfl, rfl⟩ := gives
        exact .inr ⟨domain, codomain, ⟨token, kind⟩, later, givesDomain, givesCodomain, rfl⟩
      · simp only [kind, if_false, gives_pure] at gives
        obtain ⟨rfl, rfl⟩ := gives
        exact .inl ⟨givesDomain, by simpa using kind⟩
  · rintro (⟨gives, ends⟩ | ⟨domain, codomain, arrow, later, givesDomain, givesCodomain, rfl⟩)
    · refine ⟨t, rest, gives, ?_⟩
      cases rest with
      | nil => simp
      | cons token later => simp [ends token rfl]
    · refine ⟨domain, _, givesDomain, ?_⟩
      simp only [arrow.property, if_true, gives_bind, gives_pure, exists_prop]
      exact ⟨codomain, rest, givesCodomain, rfl, rfl⟩

theorem gives_readApplied_con (name : ConToken) : Gives (readApplied stop (name.val :: tokens)) t rest ↔
    ∃ args, Gives (readAtoms stop tokens) args rest ∧ .app name.val.text args = t := by
  rw [readApplied]
  simp only [name.property, and_self, if_true, gives_bind, gives_pure, exists_prop]
  constructor
  · rintro ⟨args, _, gives, rfl, rfl⟩
    exact ⟨args, gives, rfl⟩
  · rintro ⟨args, gives, rfl⟩
    exact ⟨args, rest, gives, rfl, rfl⟩

theorem readApplied_atom {token : Token} (notCon : ¬ (token.kind = .word ∧ isVarName token.text = false)) :
    readApplied stop (token :: tokens) = readAtom stop (token :: tokens) := by
  rw [readApplied, if_neg notCon]

theorem gives_readAtoms_end (ends : ∀ token ∈ tokens.head?, startsAtom token.kind = false) :
    Gives (readAtoms stop tokens) ts rest ↔ [] = ts ∧ tokens = rest := by
  cases tokens with
  | nil => simp [readAtoms]
  | cons token others =>
    have ends : startsAtom token.kind = false := ends token rfl
    have neither : ¬ (token.kind = .word ∨ token.kind = .opening) := by
      rintro (kind | kind) <;> simp [kind, startsAtom] at ends
    rw [readAtoms, if_neg neither, gives_ok]

theorem gives_readAtoms_more {token : Token} (starts : startsAtom token.kind = true) :
    Gives (readAtoms stop (token :: tokens)) ts rest ↔
      ∃ (first : Ty) (others : List Ty) (middle : List Token),
        Gives (readAtom stop (token :: tokens)) first middle ∧ Gives (readAtoms stop middle) others rest ∧
          first :: others = ts := by
  have either : token.kind = .word ∨ token.kind = .opening := by
    cases kind : token.kind <;> simp [kind, startsAtom] at starts ⊢
  rw [readAtoms]
  simp only [either, if_true, gives_bind, gives_pure, exists_prop]
  constructor
  · rintro ⟨first, middle, gives, others, _, givesOthers, rfl, rfl⟩
    exact ⟨first, others, middle, gives, givesOthers, rfl⟩
  · rintro ⟨first, others, middle, gives, givesOthers, rfl⟩
    exact ⟨first, middle, gives, others, rest, givesOthers, rfl, rfl⟩

theorem gives_readAtom_word {token : Token} (kind : token.kind = .word) :
    Gives (readAtom stop (token :: tokens)) t rest ↔ ofName token.text = t ∧ tokens = rest := by
  simp [readAtom, kind]

theorem gives_readAtom_opening {opening : Token} (kind : opening.kind = .opening) :
    Gives (readAtom stop (opening :: tokens)) t rest ↔
      ∃ closing : Token.Of .closing, Gives (read stop tokens) t (closing.val :: rest) := by
  rw [readAtom]
  simp only [kind, gives_bind, gives_expectToken, gives_pure, exists_prop]
  constructor
  · rintro ⟨_, _, gives, closing, _, ⟨rfl, kindClosing⟩, rfl, rfl⟩
    exact ⟨⟨closing, kindClosing⟩, gives⟩
  · rintro ⟨closing, gives⟩
    exact ⟨t, _, gives, closing, rest, ⟨rfl, closing.property⟩, rfl, rfl⟩

end Steps

section Complete

variable (stop : Position)

mutual
theorem Phrase.gives_read {rest : List Token} (ends : ∀ token ∈ rest.head?, startsAtom token.kind = false)
    (noArrow : ∀ token ∈ rest.head?, token.kind ≠ .arrow) :
    ∀ phrase : Phrase, Gives (read stop (phrase.tokens ++ rest)) phrase.type rest
  | .applied type => by
    rw [Phrase.tokens, Phrase.type, Ty.gives_read]
    exact .inl ⟨type.gives_read ends, noArrow⟩
  | .arrow domain arrow codomain => by
    have split : (Phrase.arrow domain arrow codomain).tokens ++ rest =
      domain.tokens ++ arrow.val :: (codomain.tokens ++ rest) := by simp [Phrase.tokens]
    rw [split, Phrase.type, Ty.gives_read]
    refine .inr ⟨domain.type, codomain.type, arrow, _, domain.gives_read ?_, codomain.gives_read ends noArrow, rfl⟩
    simp [startsAtom]

theorem Applied.gives_read {rest : List Token} (ends : ∀ token ∈ rest.head?, startsAtom token.kind = false) :
    ∀ applied : Applied, Gives (readApplied stop (applied.tokens ++ rest)) applied.type rest
  | .con name args => by
    rw [Applied.tokens, Applied.type, List.cons_append, gives_readApplied_con]
    exact ⟨args.types, args.gives_read ends, rfl⟩
  -- The reader takes a constructor for the head of an application, here of one without arguments.
  | .atom (.con name) => by
    rw [Applied.tokens, Atom.tokens, Applied.type, Atom.type, List.cons_append, gives_readApplied_con]
    exact ⟨[], (gives_readAtoms_end ends).2 ⟨rfl, rfl⟩, rfl⟩
  | .atom (.var name) => by
    have notCon : ¬ (name.val.kind = .word ∧ isVarName name.val.text = false) := by simp [name.property.2]
    have gives := (Atom.var name).gives_read rest
    rw [Applied.tokens, Applied.type]
    rw [Atom.tokens, List.cons_append] at gives ⊢
    rwa [readApplied_atom notCon]
  | .atom (.group opening type closing) => by
    have notCon : ¬ (opening.val.kind = .word ∧ isVarName opening.val.text = false) := by simp
    have gives := (Atom.group opening type closing).gives_read rest
    rw [Applied.tokens, Applied.type]
    rw [Atom.tokens, List.cons_append] at gives ⊢
    rwa [readApplied_atom notCon]

theorem Atoms.gives_read {rest : List Token} (ends : ∀ token ∈ rest.head?, startsAtom token.kind = false) :
    ∀ atoms : Atoms, Gives (readAtoms stop (atoms.tokens ++ rest)) atoms.types rest
  | .none => (gives_readAtoms_end ends).2 ⟨rfl, rfl⟩
  | .more first others => by
    obtain ⟨token, left, start, starts⟩ := first.exists_first
    have gives := first.gives_read (others.tokens ++ rest)
    rw [Atoms.tokens, Atoms.types, List.append_assoc]
    rw [start, List.cons_append] at gives ⊢
    exact (gives_readAtoms_more starts).2 ⟨first.type, others.types, _, gives, others.gives_read ends, rfl⟩

theorem Atom.gives_read (rest : List Token) :
    ∀ atom : Atom, Gives (readAtom stop (atom.tokens ++ rest)) atom.type rest
  | .var name => by
    rw [Atom.tokens, Atom.type, List.cons_append, gives_readAtom_word name.property.1]
    exact ⟨by rw [ofName, name.property.2, if_pos rfl], rfl⟩
  | .con name => by
    rw [Atom.tokens, Atom.type, List.cons_append, gives_readAtom_word name.property.1]
    exact ⟨by simp [ofName, name.property.2], rfl⟩
  | .group opening type closing => by
    have split : (Atom.group opening type closing).tokens ++ rest =
      opening.val :: (type.tokens ++ closing.val :: rest) := by simp [Atom.tokens]
    rw [split, Atom.type, gives_readAtom_opening opening.property]
    exact ⟨closing, type.gives_read (by simp [startsAtom]) (by simp)⟩
end

end Complete

section Sound

variable {stop : Position}

mutual
theorem exists_phrase {tokens rest : List Token} {t : Ty} (gives : Gives (read stop tokens) t rest) :
    ∃ phrase : Phrase, tokens = phrase.tokens ++ rest ∧ phrase.type = t := by
  rcases gives_read.1 gives with ⟨gives, _⟩ | ⟨_, _, arrow, later, givesDomain, givesCodomain, rfl⟩
  · obtain ⟨applied, rfl, rfl⟩ := exists_applied gives
    exact ⟨.applied applied, by rw [Phrase.tokens], by rw [Phrase.type]⟩
  · have fewer := givesDomain.fewer
    obtain ⟨domain, rfl, rfl⟩ := exists_applied givesDomain
    obtain ⟨codomain, rfl, rfl⟩ := exists_phrase givesCodomain
    exact ⟨.arrow domain arrow codomain, by simp [Phrase.tokens], by rw [Phrase.type]⟩
termination_by (tokens.length, 2)

theorem exists_applied {tokens rest : List Token} {t : Ty} (gives : Gives (readApplied stop tokens) t rest) :
    ∃ applied : Applied, tokens = applied.tokens ++ rest ∧ applied.type = t := by
  -- Matched together, so that an atom of the same tokens is one step down in the measure.
  match tokens, gives with
  | [], gives => simp [readApplied] at gives
  | token :: others, gives =>
    by_cases isCon : token.kind = .word ∧ isVarName token.text = false
    · obtain ⟨_, givesArgs, rfl⟩ := (gives_readApplied_con ⟨token, isCon⟩).1 gives
      obtain ⟨args, rfl, rfl⟩ := exists_atoms givesArgs
      exact ⟨.con ⟨token, isCon⟩ args, by rw [Applied.tokens, List.cons_append], by rw [Applied.type]⟩
    · rw [readApplied_atom isCon] at gives
      obtain ⟨atom, tokens, rfl⟩ := exists_atom gives
      exact ⟨.atom atom, tokens, by rw [Applied.type]⟩
termination_by (tokens.length, 1)

theorem exists_atoms {tokens rest : List Token} {ts : List Ty} (gives : Gives (readAtoms stop tokens) ts rest) :
    ∃ atoms : Atoms, tokens = atoms.tokens ++ rest ∧ atoms.types = ts := by
  match tokens, gives with
  | [], gives =>
    obtain ⟨rfl, rfl⟩ := (gives_readAtoms_end (by simp)).1 gives
    exact ⟨.none, rfl, rfl⟩
  | token :: left, gives =>
    by_cases starts : startsAtom token.kind = true
    · obtain ⟨_, _, middle, givesFirst, givesOthers, rfl⟩ := (gives_readAtoms_more starts).1 gives
      have fewer := givesFirst.fewer
      obtain ⟨first, same, rfl⟩ := exists_atom givesFirst
      obtain ⟨others, rfl, rfl⟩ := exists_atoms givesOthers
      exact ⟨.more first others, by rw [Atoms.tokens, List.append_assoc, same], by rw [Atoms.types]⟩
    · obtain ⟨rfl, rfl⟩ := (gives_readAtoms_end (by simpa using starts)).1 gives
      exact ⟨.none, rfl, rfl⟩
termination_by (tokens.length, 1)

theorem exists_atom {tokens rest : List Token} {t : Ty} (gives : Gives (readAtom stop tokens) t rest) :
    ∃ atom : Atom, tokens = atom.tokens ++ rest ∧ atom.type = t := by
  cases tokens with
  | nil => simp [readAtom] at gives
  | cons token others =>
    cases kind : token.kind with
    | word =>
      obtain ⟨rfl, rfl⟩ := (gives_readAtom_word kind).1 gives
      by_cases isVar : isVarName token.text = true
      · exact ⟨.var ⟨token, kind, isVar⟩, by rw [Atom.tokens]; rfl, by rw [Atom.type, ofName, if_pos isVar]⟩
      · exact ⟨.con ⟨token, kind, Bool.eq_false_iff.2 isVar⟩, by rw [Atom.tokens]; rfl,
          by rw [Atom.type, ofName, if_neg isVar]⟩
    | opening =>
      obtain ⟨closing, gives⟩ := (gives_readAtom_opening kind).1 gives
      obtain ⟨type, rfl, rfl⟩ := exists_phrase gives
      exact ⟨.group ⟨token, kind⟩ type closing, by simp [Atom.tokens], by rw [Atom.type]⟩
    | _ => simp [readAtom, kind] at gives
termination_by (tokens.length, 0)
end

end Sound

theorem Phrase.gives_read_all (stop : Position) (phrase : Phrase) : Gives (read stop phrase.tokens) phrase.type [] := by
  have all : phrase.tokens = phrase.tokens ++ [] := (List.append_nil _).symm
  rw [all]
  exact phrase.gives_read stop (by simp) (by simp)

theorem parse_eq_ok_iff {text : String} {t : Ty} : parse text = .ok t ↔
    ∃ phrase : Phrase, phrase.tokens = (Token.scan text.toList).1 ∧ phrase.type = t := by
  rw [parse, readAll_eq_ok_iff]
  constructor
  · intro gives
    obtain ⟨phrase, tokens, type⟩ := exists_phrase gives
    exact ⟨phrase, by rw [tokens, List.append_nil], type⟩
  · rintro ⟨phrase, derives, rfl⟩
    rw [← derives]
    exact phrase.gives_read_all _

end Ty

namespace Scheme

def namesOf (tokens : List Ty.VarToken) : List String := tokens.map fun token => token.val.text

/-- A quantifier with one variable or more, all different, or a type that does not start with a
quantifier. -/
inductive Phrase where
  | quantified (quantifier : { token : Token // isQuantifier token = true }) (vars : List Ty.VarToken)
      (nonempty : vars ≠ []) (distinct : (namesOf vars).Nodup) (dot : Token.Of .dot) (type : Ty.Phrase)
  | plain (type : Ty.Phrase) (unquantified : ∀ token ∈ type.tokens.head?, isQuantifier token = false)

def Phrase.tokens : Phrase → List Token
  | .quantified quantifier vars _ _ dot type =>
    quantifier.val :: (vars.map Subtype.val ++ dot.val :: type.tokens)
  | .plain type _ => type.tokens

/-- The first variable is the outermost one. -/
def Phrase.scheme : Phrase → Scheme
  | .quantified _ vars _ _ _ type => (namesOf vars).foldr quantify (.mono type.type)
  | .plain type _ => .mono type.type

section Steps

variable {stop : Position} {tokens rest : List Token} {t : Ty} {scheme : Scheme}

theorem not_gives_readBound_nil {bound names : List String} : ¬ Gives (readBound stop bound []) names rest :=
  not_gives_error

theorem gives_readBound_cons {token : Token} {bound names : List String} :
    Gives (readBound stop bound (token :: tokens)) names rest ↔
      (token.kind = .dot ∧ bound ≠ [] ∧ bound = names ∧ tokens = rest) ∨
      (token.kind = .word ∧ Ty.isVarName token.text = true ∧ token.text ∉ bound ∧
        Gives (readBound stop (bound ++ [token.text]) tokens) names rest) := by
  change Gives (if token.kind = .dot ∧ bound ≠ [] then _ else _) names rest ↔ _
  split
  · rename_i ends
    simp [ends]
  · rename_i goesOn
    split
    · rename_i isVar
      split
      · rename_i repeated
        simp [isVar, repeated]
      · rename_i isNew
        simp only [gives_bind, gives_pure, exists_prop]
        simp [isVar, isNew]
    · rename_i noVar
      constructor
      · exact fun gives => absurd gives not_gives_error
      · rintro (⟨isDot, some, _⟩ | ⟨isWord, isVar, _⟩)
        · exact absurd ⟨isDot, some⟩ goesOn
        · exact absurd ⟨isWord, isVar⟩ noVar

theorem gives_readBound {dot : Token.Of .dot} {vars : List Ty.VarToken} {bound : List String}
    (nonempty : bound ++ namesOf vars ≠ []) (distinct : (bound ++ namesOf vars).Nodup) :
    Gives (readBound stop bound (vars.map Subtype.val ++ dot.val :: rest)) (bound ++ namesOf vars) rest := by
  induction vars generalizing bound with
  | nil =>
    rw [List.map_nil, List.nil_append, gives_readBound_cons]
    exact .inl ⟨dot.property, by simpa [namesOf] using nonempty, (List.append_nil bound).symm, rfl⟩
  | cons token vars ih =>
    have names : bound ++ namesOf (token :: vars) = (bound ++ [token.val.text]) ++ namesOf vars := by
      simp [namesOf]
    rw [names] at nonempty distinct ⊢
    -- The names read before stand in front, so the new one is different from all of them.
    have isNew : token.val.text ∉ bound := by
      intro mem
      have apart := (List.nodup_append.1 (List.nodup_append.1 distinct).1).2.2
      exact apart _ mem _ (List.mem_singleton_self _) rfl
    rw [List.map_cons, List.cons_append, gives_readBound_cons]
    exact .inr ⟨token.property.1, token.property.2, isNew, ih nonempty distinct⟩

theorem exists_variables {bound names : List String} (distinct : bound.Nodup)
    (gives : Gives (readBound stop bound tokens) names rest) :
    ∃ (vars : List Ty.VarToken) (dot : Token.Of .dot), tokens = vars.map Subtype.val ++ dot.val :: rest ∧
      bound ++ namesOf vars = names ∧ names ≠ [] ∧ names.Nodup := by
  induction tokens generalizing bound with
  | nil => exact absurd gives not_gives_readBound_nil
  | cons token others ih =>
    rcases gives_readBound_cons.1 gives with ⟨isDot, nonempty, rfl, rfl⟩ | ⟨isWord, isVar, isNew, givesMore⟩
    · exact ⟨[], ⟨token, isDot⟩, rfl, List.append_nil _, nonempty, distinct⟩
    · have apart : ∀ name ∈ bound, ∀ new ∈ [token.text], name ≠ new := by
        intro name mem new isText same
        exact isNew (List.mem_singleton.1 isText ▸ same ▸ mem)
      obtain ⟨vars, dot, rfl, rfl, nonempty, all⟩ := ih (List.nodup_append.2 ⟨distinct, by simp, apart⟩) givesMore
      exact ⟨⟨token, isWord, isVar⟩ :: vars, dot, rfl, by simp [namesOf], nonempty, all⟩

theorem gives_read_quantified {quantifier : Token} (quantifies : isQuantifier quantifier = true) :
    Gives (read stop (quantifier :: tokens)) scheme rest ↔
      ∃ (names : List String) (t : Ty) (middle : List Token),
        Gives (readBound stop [] tokens) names middle ∧ Gives (Ty.read stop middle) t rest ∧ ⟨names, t⟩ = scheme := by
  rw [read]
  simp only [quantifies, if_true, gives_bind, gives_pure, exists_prop]
  constructor
  · rintro ⟨names, middle, givesNames, t, _, givesType, rfl, rfl⟩
    exact ⟨names, t, middle, givesNames, givesType, rfl⟩
  · rintro ⟨names, t, middle, givesNames, givesType, rfl⟩
    exact ⟨names, middle, givesNames, t, rest, givesType, rfl, rfl⟩

theorem gives_read_plain (unquantified : ∀ token ∈ tokens.head?, isQuantifier token = false) :
    Gives (read stop tokens) scheme rest ↔ ∃ t, Gives (Ty.read stop tokens) t rest ∧ .mono t = scheme := by
  cases tokens with
  | nil =>
    have none (t : Ty) : ¬ Gives (Ty.read stop []) t rest := by
      intro gives
      rcases Ty.gives_read.1 gives with ⟨gives, _⟩ | ⟨_, _, _, _, gives, _⟩ <;> simp [Ty.readApplied] at gives
    simp [read, none]
  | cons token others =>
    have notQuantifier : ¬ isQuantifier token = true := by simp [unquantified token rfl]
    rw [read, if_neg notQuantifier]
    simp only [gives_bind, gives_pure, exists_prop]
    constructor
    · rintro ⟨t, _, gives, rfl, rfl⟩
      exact ⟨t, gives, rfl⟩
    · rintro ⟨t, gives, rfl⟩
      exact ⟨t, rest, gives, rfl, rfl⟩

end Steps

theorem exists_phrase {stop : Position} {tokens rest : List Token} {scheme : Scheme}
    (gives : Gives (read stop tokens) scheme rest) :
    ∃ phrase : Phrase, tokens = phrase.tokens ++ rest ∧ phrase.scheme = scheme := by
  by_cases unquantified : ∀ token ∈ tokens.head?, isQuantifier token = false
  · obtain ⟨_, givesType, rfl⟩ := (gives_read_plain unquantified).1 gives
    obtain ⟨type, rfl, rfl⟩ := Ty.exists_phrase givesType
    refine ⟨.plain type fun token first => unquantified token ?_, by rw [Phrase.tokens], by rw [Phrase.scheme]⟩
    rw [List.head?_append, first, Option.some_or]
    rfl
  · cases tokens with
    | nil => simp at unquantified
    | cons quantifier others =>
      have quantifies : isQuantifier quantifier = true := by simpa using unquantified
      obtain ⟨_, _, middle, givesNames, givesType, rfl⟩ := (gives_read_quantified quantifies).1 gives
      obtain ⟨vars, dot, rfl, rfl, nonempty, distinct⟩ := exists_variables List.nodup_nil givesNames
      obtain ⟨type, rfl, rfl⟩ := Ty.exists_phrase givesType
      refine ⟨.quantified ⟨quantifier, quantifies⟩ vars (fun none => nonempty (by rw [none]; rfl)) distinct dot type, ?_, ?_⟩
      · simp [Phrase.tokens]
      · rw [Phrase.scheme, foldr_quantify, List.nil_append]

theorem Phrase.gives_read (stop : Position) :
    ∀ phrase : Phrase, Gives (Scheme.read stop phrase.tokens) phrase.scheme []
  | .quantified quantifier vars nonempty distinct dot type => by
    have givesNames : Gives (readBound stop [] (vars.map Subtype.val ++ dot.val :: type.tokens)) _ type.tokens :=
      gives_readBound (fun none => nonempty (List.map_eq_nil_iff.1 none)) distinct
    rw [Phrase.tokens, Phrase.scheme, foldr_quantify, gives_read_quantified quantifier.property]
    exact ⟨_, type.type, type.tokens, givesNames, type.gives_read_all stop, rfl⟩
  | .plain type unquantified => by
    rw [Phrase.tokens, Phrase.scheme, gives_read_plain unquantified]
    exact ⟨type.type, type.gives_read_all stop, rfl⟩

theorem parse_of_phrase {text : String} (phrase : Phrase) (scanned : (Token.scan text.toList).1 = phrase.tokens) :
    parse text = .ok phrase.scheme := by
  rw [parse, readAll_eq_ok_iff, scanned]
  exact phrase.gives_read _

theorem exists_phrase_of_parse {text : String} {scheme : Scheme} (parsed : parse text = .ok scheme) :
    ∃ phrase : Phrase, phrase.tokens = (Token.scan text.toList).1 ∧ phrase.scheme = scheme := by
  rw [parse, readAll_eq_ok_iff] at parsed
  obtain ⟨phrase, tokens, same⟩ := exists_phrase parsed
  exact ⟨phrase, by rw [tokens, List.append_nil], same⟩

/-- A text is a type exactly if some phrase derives its tokens, and a scheme exactly if some phrase
of schemes does; what is read is what the phrase stands for. -/
theorem parse_eq_ok_iff_phrase (text : String) :
    (∀ t, Ty.parse text = .ok t ↔
      ∃ phrase : Ty.Phrase, phrase.tokens = (Token.scan text.toList).1 ∧ phrase.type = t) ∧
    (∀ scheme, Scheme.parse text = .ok scheme ↔
      ∃ phrase : Scheme.Phrase, phrase.tokens = (Token.scan text.toList).1 ∧ phrase.scheme = scheme) := by
  refine ⟨fun t => Ty.parse_eq_ok_iff, fun scheme => ?_⟩
  rw [parse, readAll_eq_ok_iff]
  constructor
  · intro gives
    obtain ⟨phrase, tokens, same⟩ := exists_phrase gives
    exact ⟨phrase, by rw [tokens, List.append_nil], same⟩
  · rintro ⟨phrase, derives, rfl⟩
    rw [← derives]
    exact phrase.gives_read _

example : parse "forall a. List a -> forall" = .ok ⟨["a"], .arrow (.app "List" [.var "a"]) (.var "forall")⟩ := by cbv

end Scheme

end HindleyMilner
