import HindleyMilner.Proofs.ExpressionErrors
import HindleyMilner.Proofs.TypeGrammar

/-! Where the readers of types and of type schemes refuse.

A type ends where the next token does not go on with it, so a part of a type is read again only where
the same token follows, or one that no type goes on with. -/

set_option autoImplicit false

namespace HindleyMilner

open Reader

namespace Ty

def Reads (stop : Position) (tokens left : List Token) : Prop := Takes (read stop tokens) left

def ReadsApplied (stop : Position) (tokens left : List Token) : Prop := Takes (readApplied stop tokens) left

def ReadsAtoms (stop : Position) (tokens left : List Token) : Prop := Takes (readAtoms stop tokens) left

def ReadsAtom (stop : Position) (tokens left : List Token) : Prop := Takes (readAtom stop tokens) left

/-- No argument of a constructor starts here. -/
def EndsAtoms (tokens : List Token) : Prop := ∀ token ∈ tokens.head?, startsAtom token.kind = false

/-- Nothing starts here that a type goes on with. -/
def Ends (tokens : List Token) : Prop := EndsAtoms tokens ∧ ∀ token ∈ tokens.head?, token.kind ≠ .arrow

section Takes

variable {stop : Position} {tokens left middle rest : List Token}

theorem endsAtoms_nil : EndsAtoms [] := by simp [EndsAtoms]

theorem endsAtoms_of_kind {token : Token} (kind : startsAtom token.kind = false) : EndsAtoms (token :: rest) := by
  simpa [EndsAtoms] using kind

theorem ends_nil : Ends [] := ⟨endsAtoms_nil, by simp⟩

theorem ends_closing {closing : Token} (kind : closing.kind = .closing) : Ends (closing :: rest) :=
  ⟨endsAtoms_of_kind (by rw [kind]; rfl), by simp [kind]⟩

theorem reads_iff : Reads stop tokens left ↔
    (ReadsApplied stop tokens left ∧ ∀ token ∈ left.head?, token.kind ≠ .arrow) ∨
      ∃ (arrow : Token.Of .arrow) (later : List Token),
        ReadsApplied stop tokens (arrow.val :: later) ∧ Reads stop later left := by
  constructor
  · rintro ⟨_, gives⟩
    rcases gives_read.1 gives with ⟨gives, noArrow⟩ | ⟨_, _, arrow, later, givesDomain, givesCodomain, _⟩
    · exact .inl ⟨⟨_, gives⟩, noArrow⟩
    · exact .inr ⟨arrow, later, ⟨_, givesDomain⟩, ⟨_, givesCodomain⟩⟩
  · rintro (⟨⟨_, gives⟩, noArrow⟩ | ⟨arrow, later, ⟨_, givesDomain⟩, ⟨_, givesCodomain⟩⟩)
    · exact ⟨_, gives_read.2 (.inl ⟨gives, noArrow⟩)⟩
    · exact ⟨_, gives_read.2 (.inr ⟨_, _, arrow, later, givesDomain, givesCodomain, rfl⟩)⟩

theorem readsApplied_con (name : ConToken) :
    ReadsApplied stop (name.val :: tokens) left ↔ ReadsAtoms stop tokens left := by
  constructor
  · rintro ⟨_, gives⟩
    obtain ⟨args, gives, _⟩ := (gives_readApplied_con name).1 gives
    exact ⟨args, gives⟩
  · rintro ⟨args, gives⟩
    exact ⟨_, (gives_readApplied_con name).2 ⟨args, gives, rfl⟩⟩

theorem readsApplied_atom {token : Token} (notCon : ¬ (token.kind = .word ∧ isVarName token.text = false)) :
    ReadsApplied stop (token :: tokens) left ↔ ReadsAtom stop (token :: tokens) left := by
  rw [ReadsApplied, readApplied_atom notCon, ReadsAtom]

theorem readsAtom_word {token : Token} (kind : token.kind = .word) :
    ReadsAtom stop (token :: tokens) left ↔ tokens = left := by
  constructor
  · rintro ⟨_, gives⟩
    exact ((gives_readAtom_word kind).1 gives).2
  · rintro rfl
    exact ⟨_, (gives_readAtom_word kind).2 ⟨rfl, rfl⟩⟩

theorem readsAtom_opening {opening : Token} (kind : opening.kind = .opening) :
    ReadsAtom stop (opening :: tokens) left ↔ ∃ closing : Token.Of .closing, Reads stop tokens (closing.val :: left) := by
  constructor
  · rintro ⟨_, gives⟩
    obtain ⟨closing, gives⟩ := (gives_readAtom_opening kind).1 gives
    exact ⟨closing, _, gives⟩
  · rintro ⟨closing, _, gives⟩
    exact ⟨_, (gives_readAtom_opening kind).2 ⟨closing, gives⟩⟩

theorem ReadsAtom.exists_first (reads : ReadsAtom stop tokens left) :
    ∃ token others, tokens = token :: others ∧ startsAtom token.kind = true := by
  obtain ⟨_, gives⟩ := reads
  obtain ⟨atom, rfl, _⟩ := exists_atom gives
  obtain ⟨token, others, start, starts⟩ := atom.exists_first
  exact ⟨token, others ++ left, by rw [start, List.cons_append], starts⟩

theorem readsAtoms_of_ends (ends : EndsAtoms tokens) : ReadsAtoms stop tokens left ↔ tokens = left := by
  constructor
  · rintro ⟨_, gives⟩
    exact ((gives_readAtoms_end ends).1 gives).2
  · rintro rfl
    exact ⟨_, (gives_readAtoms_end ends).2 ⟨rfl, rfl⟩⟩

theorem readsAtoms_of_starts {token : Token} (starts : startsAtom token.kind = true) :
    ReadsAtoms stop (token :: tokens) left ↔
      ∃ middle, ReadsAtom stop (token :: tokens) middle ∧ ReadsAtoms stop middle left := by
  constructor
  · rintro ⟨_, gives⟩
    obtain ⟨_, _, middle, givesFirst, givesOthers, _⟩ := (gives_readAtoms_more starts).1 gives
    exact ⟨middle, ⟨_, givesFirst⟩, ⟨_, givesOthers⟩⟩
  · rintro ⟨middle, ⟨_, givesFirst⟩, ⟨_, givesOthers⟩⟩
    exact ⟨_, (gives_readAtoms_more starts).2 ⟨_, _, middle, givesFirst, givesOthers, rfl⟩⟩

/-- Behind the domain of a function and its arrow comes the codomain. -/
theorem reads_arrow {front others : List Token} (arrow : Token.Of .arrow)
    (domain : ReadsApplied stop (front ++ arrow.val :: others) (arrow.val :: others)) :
    Reads stop (front ++ [arrow.val] ++ others) left ↔ Reads stop others left := by
  rw [← List.append_cons, reads_iff]
  constructor
  · rintro (⟨other, noArrow⟩ | ⟨_, _, other, codomain⟩)
    · obtain rfl := domain.unique other
      exact absurd arrow.property (noArrow arrow.val rfl)
    · obtain ⟨_, rfl⟩ := List.cons.inj (domain.unique other)
      exact codomain
  · exact fun codomain => .inr ⟨arrow, others, domain, codomain⟩

/-- Behind an atom come the other ones. -/
theorem ReadsAtom.readsAtoms_iff (reads : ReadsAtom stop tokens middle) :
    ReadsAtoms stop tokens left ↔ ReadsAtoms stop middle left := by
  obtain ⟨token, others, rfl, starts⟩ := reads.exists_first
  rw [readsAtoms_of_starts starts]
  constructor
  · rintro ⟨_, first, others⟩
    rwa [reads.unique first]
  · exact fun others => ⟨middle, reads, others⟩

theorem ReadsAtom.readsApplied (reads : ReadsAtom stop tokens left) (ends : EndsAtoms left) :
    ReadsApplied stop tokens left := by
  obtain ⟨token, others, rfl, _⟩ := reads.exists_first
  by_cases isCon : token.kind = .word ∧ isVarName token.text = false
  · obtain rfl := (readsAtom_word isCon.1).1 reads
    exact (readsApplied_con ⟨token, isCon⟩).2 ((readsAtoms_of_ends ends).2 rfl)
  · exact (readsApplied_atom isCon).2 reads

end Takes

section Again

variable {stop : Position}

theorem EndsAtoms.of_head {tokens others : List Token} (ends : EndsAtoms tokens)
    (follows : others.head? = tokens.head? ∨ EndsAtoms others) : EndsAtoms others :=
  follows.elim (fun same => by rwa [EndsAtoms, same]) id

mutual
theorem Reads.takesAgain {tokens rest : List Token} (reads : Reads stop tokens rest) :
    TakesAgain (Reads stop) Ends tokens rest := by
  rcases reads_iff.1 reads with ⟨applied, noArrow⟩ | ⟨arrow, later, domain, codomain⟩
  · obtain ⟨inner, rfl, again⟩ := applied.takesAgain
    refine ⟨inner, rfl, fun others follows => reads_iff.2 (.inl ⟨again others (follows.imp_right And.left), ?_⟩)⟩
    exact follows.elim (fun same => by rwa [same]) And.right
  · have fewer := domain.fewer
    obtain ⟨front, rfl, again⟩ := domain.takesAgain
    rw [List.append_cons]
    exact codomain.takesAgain.past _ (fun others _ => reads_arrow arrow (again (arrow.val :: others) (.inl rfl))) fun _ => id
termination_by (tokens.length, 2)

theorem ReadsApplied.takesAgain {tokens rest : List Token} (reads : ReadsApplied stop tokens rest) :
    TakesAgain (ReadsApplied stop) EndsAtoms tokens rest := by
  match tokens, reads with
  | [], reads => exact absurd reads.fewer (Nat.not_lt_zero _)
  | token :: others, reads =>
    by_cases isCon : token.kind = .word ∧ isVarName token.text = false
    · have args := (readsApplied_con ⟨token, isCon⟩).1 reads
      exact args.takesAgain.past [token] (fun _ _ => readsApplied_con ⟨token, isCon⟩) fun _ => id
    · have atom := (readsApplied_atom isCon).1 reads
      obtain ⟨inner, whole, again⟩ := atom.takesAgain
      obtain ⟨inner, rfl⟩ := exists_inner whole atom.fewer
      exact ⟨token :: inner, whole, fun more _ => (readsApplied_atom isCon).2 (again more (.inr trivial))⟩
termination_by (tokens.length, 1)

theorem ReadsAtoms.takesAgain {tokens rest : List Token} (reads : ReadsAtoms stop tokens rest) :
    TakesAgain (ReadsAtoms stop) EndsAtoms tokens rest := by
  match tokens, reads with
  | [], reads =>
    obtain rfl := (readsAtoms_of_ends endsAtoms_nil).1 reads
    exact ⟨[], rfl, fun others follows => (readsAtoms_of_ends (endsAtoms_nil.of_head follows)).2 rfl⟩
  | token :: later, reads =>
    by_cases starts : startsAtom token.kind = true
    · obtain ⟨middle, atom, atoms⟩ := (readsAtoms_of_starts starts).1 reads
      have fewer := atom.fewer
      obtain ⟨front, whole, again⟩ := atom.takesAgain
      rw [whole]
      exact atoms.takesAgain.past front (fun others _ => (again others (.inr trivial)).readsAtoms_iff) fun _ => id
    · have ends : EndsAtoms (token :: later) := endsAtoms_of_kind (Bool.eq_false_iff.2 starts)
      obtain rfl := (readsAtoms_of_ends ends).1 reads
      exact ⟨[], rfl, fun others follows => (readsAtoms_of_ends (ends.of_head follows)).2 rfl⟩
termination_by (tokens.length, 1)

theorem ReadsAtom.takesAgain {tokens rest : List Token} (reads : ReadsAtom stop tokens rest) :
    TakesAgain (ReadsAtom stop) (fun _ => True) tokens rest := by
  obtain ⟨token, later, rfl, starts⟩ := reads.exists_first
  cases kind : token.kind with
  | word =>
    obtain rfl := (readsAtom_word kind).1 reads
    exact ⟨[token], rfl, fun others _ => (readsAtom_word kind).2 rfl⟩
  | opening =>
    obtain ⟨closing, inside⟩ := (readsAtom_opening kind).1 reads
    obtain ⟨inner, rfl, again⟩ := inside.takesAgain
    refine ⟨token :: (inner ++ [closing.val]), by simp, fun others _ => ?_⟩
    rw [List.cons_append, List.append_assoc]
    exact (readsAtom_opening kind).2 ⟨closing, again (closing.val :: others) (.inl rfl)⟩
  | _ => simp [kind, startsAtom] at starts
termination_by (tokens.length, 0)
end

end Again

section Refusals

variable {stop : Position} {tokens left rest : List Token} {refusal : Refusal}

theorem readsAtom_name (stop : Position) (left : List Token) : ReadsAtom stop (Sample.name.val :: left) left :=
  (readsAtom_word Sample.name.property).2 rfl

theorem reads_name (stop : Position) (ends : Ends left) : Reads stop (Sample.name.val :: left) left :=
  reads_iff.2 (.inl ⟨(readsAtom_name stop left).readsApplied ends.1, ends.2⟩)

/-- Where no atom starts like this, an atom is refused at its first token. -/
theorem pinpoints_start (place : IsAt stop tokens refusal) (ends : EndsAtoms tokens) :
    Pinpoints stop (ReadsAtom stop) (fun _ => True) tokens refusal := by
  refine .here [] place (fun others left same reads => ?_)
    ⟨[Sample.name.val], by decide, fun left _ => readsAtom_name stop left⟩
  obtain ⟨token, later, rfl, starts⟩ := reads.exists_first
  rw [ends token (by rw [← same]; rfl)] at starts
  cases starts

mutual
theorem read_pinpoints {tokens : List Token} {refusal : Refusal} (refused : read stop tokens = .error refusal) :
    Pinpoints stop (Reads stop) Ends tokens refusal := by
  rw [read] at refused
  simp only [error_bind] at refused
  rcases refused with refused | ⟨_, middle, givesDomain, refused⟩
  · refine (readApplied_pinpoints refused).last [] ?_ (fun _ ends => ends.1) ?_
    · intro others left _ reads
      rcases reads_iff.1 reads with ⟨applied, _⟩ | ⟨_, _, applied, _⟩
      · exact ⟨_, applied⟩
      · exact ⟨_, applied⟩
    · exact fun others left _ ends reads => reads_iff.2 (.inl ⟨reads, ends.2⟩)
  · cases middle with
    | nil => cases refused
    | cons arrow later =>
      by_cases kind : arrow.kind = .arrow
      · simp only [kind, if_true, error_bind] at refused
        rcases refused with refused | ⟨_, _, _, impossible⟩
        · have fewer := givesDomain.fewer
          have domain : ReadsApplied stop tokens (arrow :: later) := ⟨_, givesDomain⟩
          obtain ⟨front, rfl, again⟩ := domain.takesAgain
          rw [List.append_cons]
          exact (read_pinpoints refused).past _
            (fun others _ => reads_arrow ⟨arrow, kind⟩ (again (arrow :: others) (.inl rfl))) fun _ => id
        · cases impossible
      · simp only [kind, if_false] at refused
        cases refused
termination_by (tokens.length, 2)

theorem readApplied_pinpoints {tokens : List Token} {refusal : Refusal}
    (refused : readApplied stop tokens = .error refusal) :
    Pinpoints stop (ReadsApplied stop) EndsAtoms tokens refusal := by
  match tokens, refused with
  | [], refused =>
    rw [readApplied] at refused
    cases refused
    refine (pinpoints_start (isAt_refuse .type) endsAtoms_nil).last [] ?_ (fun _ _ => trivial) ?_
    · intro others left same reads
      obtain rfl := List.head?_eq_none_iff.1 same
      exact absurd reads.fewer (Nat.not_lt_zero _)
    · exact fun others left _ ends reads => reads.readsApplied ends
  | token :: others, refused =>
    by_cases isCon : token.kind = .word ∧ isVarName token.text = false
    · rw [readApplied, if_pos isCon] at refused
      simp only [error_bind] at refused
      rcases refused with refused | ⟨_, _, _, impossible⟩
      · exact (readAtoms_pinpoints refused).past [token] (fun _ _ => readsApplied_con ⟨token, isCon⟩) fun _ => id
      · cases impossible
    · rw [readApplied, if_neg isCon] at refused
      refine (readAtom_pinpoints refused).last [] ?_ (fun _ _ => trivial) ?_
      · intro others left same reads
        obtain ⟨later, rfl⟩ := List.head?_eq_some_iff.1 same
        exact ⟨left, (readsApplied_atom isCon).1 reads⟩
      · exact fun others left _ ends reads => reads.readsApplied ends
termination_by (tokens.length, 1)

theorem readAtoms_pinpoints {tokens : List Token} {refusal : Refusal} (refused : readAtoms stop tokens = .error refusal) :
    Pinpoints stop (ReadsAtoms stop) EndsAtoms tokens refusal := by
  match tokens, refused with
  | [], refused =>
    rw [readAtoms] at refused
    cases refused
  | token :: others, refused =>
    rw [readAtoms] at refused
    split at refused
    · rename_i kind
      have starts : startsAtom token.kind = true := kind.elim (fun kind => by rw [kind]; rfl) fun kind => by rw [kind]; rfl
      simp only [error_bind] at refused
      rcases refused with refused | ⟨_, later, givesAtom, refused⟩
      · refine (readAtom_pinpoints refused).last [] ?_ (fun _ _ => trivial) ?_
        · intro others left same reads
          obtain ⟨more, rfl⟩ := List.head?_eq_some_iff.1 same
          obtain ⟨middle, atom, _⟩ := (readsAtoms_of_starts starts).1 reads
          exact ⟨middle, atom⟩
        · exact fun others left _ ends reads => reads.readsAtoms_iff.2 ((readsAtoms_of_ends ends).2 rfl)
      · rcases refused with refused | ⟨_, _, _, impossible⟩
        · have fewer := givesAtom.fewer
          have atom : ReadsAtom stop (token :: others) later := ⟨_, givesAtom⟩
          obtain ⟨front, whole, again⟩ := atom.takesAgain
          rw [whole]
          exact (readAtoms_pinpoints refused).past front (fun more _ => (again more (.inr trivial)).readsAtoms_iff) fun _ => id
        · cases impossible
    · cases refused
termination_by (tokens.length, 1)

theorem readAtom_pinpoints {tokens : List Token} {refusal : Refusal} (refused : readAtom stop tokens = .error refusal) :
    Pinpoints stop (ReadsAtom stop) (fun _ => True) tokens refusal := by
  match tokens, refused with
  | [], refused =>
    rw [readAtom] at refused
    cases refused
    exact pinpoints_start (isAt_refuse _) endsAtoms_nil
  | token :: others, refused =>
    cases kind : token.kind with
    | word => simp [readAtom, kind] at refused
    | opening =>
      rw [readAtom] at refused
      simp only [kind, error_bind] at refused
      rcases refused with refused | ⟨_, rest, gives, refused | ⟨_, _, _, impossible⟩⟩
      · exact (read_pinpoints refused).inGroup (fun _ _ => readsAtom_opening kind) (fun _ => ends_closing rfl)
      · have inside : Reads stop others rest := gives.takes
        exact .unclosed (fun _ _ => readsAtom_opening kind) (fun _ => ends_closing rfl) Takes.unique inside.takesAgain refused
      · cases impossible
    | _ =>
      rw [readAtom] at refused
      simp only [kind] at refused
      cases refused
      exact pinpoints_start (isAt_refuse _) (endsAtoms_of_kind (by rw [kind]; rfl))
termination_by (tokens.length, 0)
end

end Refusals

section Alike

open Token (sign)

theorem exists_var_of_sign {token : VarToken} {tokens : List Token} {others : List (Token.Kind × String)}
    (same : tokens.map sign = token.val.sign :: others) :
    ∃ (first : VarToken) (rest : List Token), tokens = first.val :: rest ∧ first.val.text = token.val.text ∧
      rest.map sign = others := by
  obtain ⟨first, rest, whole, kind, text, isRest⟩ := Token.exists_of_sign same
  exact ⟨⟨first, kind.trans token.property.1, text ▸ token.property.2⟩, rest, whole, text, isRest⟩

theorem exists_con_of_sign {token : ConToken} {tokens : List Token} {others : List (Token.Kind × String)}
    (same : tokens.map sign = token.val.sign :: others) :
    ∃ (first : ConToken) (rest : List Token), tokens = first.val :: rest ∧ rest.map sign = others := by
  obtain ⟨first, rest, whole, kind, text, isRest⟩ := Token.exists_of_sign same
  exact ⟨⟨first, kind.trans token.property.1, text ▸ token.property.2⟩, rest, whole, isRest⟩

mutual
/-- Tokens with the signs of a phrase are derived by a phrase. -/
theorem Phrase.exists_alike {tokens : List Token} : ∀ phrase : Phrase, tokens.map sign = phrase.tokens.map sign →
    ∃ other : Phrase, other.tokens = tokens
  | .applied type, same => by
    rw [Phrase.tokens] at same
    obtain ⟨type', rfl⟩ := type.exists_alike same
    exact ⟨.applied type', by rw [Phrase.tokens]⟩
  | .arrow domain arrow codomain, same => by
    rw [Phrase.tokens, List.map_append] at same
    obtain ⟨domainTokens, later, rfl, sameDomain, same⟩ := List.map_eq_append_iff.1 same
    obtain ⟨arrow', later, rfl, _, sameCodomain⟩ := Token.Of.exists_of_sign same
    obtain ⟨domain', rfl⟩ := domain.exists_alike sameDomain
    obtain ⟨codomain', rfl⟩ := codomain.exists_alike sameCodomain
    exact ⟨.arrow domain' arrow' codomain', by rw [Phrase.tokens]⟩

theorem Applied.exists_alike {tokens : List Token} : ∀ type : Applied, tokens.map sign = type.tokens.map sign →
    ∃ other : Applied, other.tokens = tokens
  | .con name args, same => by
    rw [Applied.tokens] at same
    obtain ⟨name', later, rfl, sameArgs⟩ := exists_con_of_sign same
    obtain ⟨args', rfl⟩ := args.exists_alike sameArgs
    exact ⟨.con name' args', by rw [Applied.tokens]⟩
  | .atom type, same => by
    rw [Applied.tokens] at same
    obtain ⟨type', rfl⟩ := type.exists_alike same
    exact ⟨.atom type', by rw [Applied.tokens]⟩

theorem Atoms.exists_alike {tokens : List Token} : ∀ atoms : Atoms, tokens.map sign = atoms.tokens.map sign →
    ∃ other : Atoms, other.tokens = tokens
  | .none, same => by
    rw [Atoms.tokens] at same
    obtain rfl := List.map_eq_nil_iff.1 same
    exact ⟨.none, by rw [Atoms.tokens]⟩
  | .more first others, same => by
    rw [Atoms.tokens, List.map_append] at same
    obtain ⟨firstTokens, later, rfl, sameFirst, sameOthers⟩ := List.map_eq_append_iff.1 same
    obtain ⟨first', rfl⟩ := first.exists_alike sameFirst
    obtain ⟨others', rfl⟩ := others.exists_alike sameOthers
    exact ⟨.more first' others', by rw [Atoms.tokens]⟩

theorem Atom.exists_alike {tokens : List Token} : ∀ atom : Atom, tokens.map sign = atom.tokens.map sign →
    ∃ other : Atom, other.tokens = tokens
  | .var name, same => by
    rw [Atom.tokens] at same
    obtain ⟨name', rest, rfl, _, nothing⟩ := exists_var_of_sign same
    obtain rfl := List.map_eq_nil_iff.1 nothing
    exact ⟨.var name', by rw [Atom.tokens]⟩
  | .con name, same => by
    rw [Atom.tokens] at same
    obtain ⟨name', rest, rfl, nothing⟩ := exists_con_of_sign same
    obtain rfl := List.map_eq_nil_iff.1 nothing
    exact ⟨.con name', by rw [Atom.tokens]⟩
  | .group opening type closing, same => by
    rw [Atom.tokens] at same
    obtain ⟨opening', inside, rfl, _, same⟩ := Token.Of.exists_of_sign same
    rw [List.map_append] at same
    obtain ⟨typeTokens, inside, rfl, sameType, same⟩ := List.map_eq_append_iff.1 same
    obtain ⟨closing', rest, rfl, _, nothing⟩ := Token.Of.exists_of_sign same
    obtain rfl := List.map_eq_nil_iff.1 nothing
    obtain ⟨type', rfl⟩ := type.exists_alike sameType
    exact ⟨.group opening' type' closing', by rw [Atom.tokens]⟩
end

end Alike

theorem isAccurate_read : IsAccurate read Ends fun tokens => ∃ phrase : Phrase, phrase.tokens = tokens where
  derives_iff stop tokens := by
    constructor
    · rintro ⟨_, gives⟩
      obtain ⟨phrase, rfl, _⟩ := exists_phrase gives
      exact ⟨phrase, (List.append_nil _).symm⟩
    · rintro ⟨phrase, rfl⟩
      exact ⟨_, phrase.gives_read_all stop⟩
  alike := by
    rintro _ others same ⟨phrase, rfl⟩
    exact phrase.exists_alike same
  ends := ends_nil
  refused := read_pinpoints
  again := Reads.takesAgain

end Ty

namespace Scheme

def Reads (stop : Position) (tokens left : List Token) : Prop := Takes (read stop tokens) left

/-- Quantified variables are read from these tokens, where `bound` come before. -/
def ReadsBound (stop : Position) (bound : List String) (tokens left : List Token) : Prop :=
  Takes (readBound stop bound tokens) left

section Takes

variable {stop : Position} {tokens left rest : List Token} {bound : List String}

theorem reads_quantified {quantifier : Token} (quantifies : isQuantifier quantifier = true) :
    Reads stop (quantifier :: tokens) left ↔ ∃ middle, ReadsBound stop [] tokens middle ∧ Ty.Reads stop middle left := by
  constructor
  · rintro ⟨_, gives⟩
    obtain ⟨_, _, middle, givesNames, givesType, _⟩ := (gives_read_quantified quantifies).1 gives
    exact ⟨middle, ⟨_, givesNames⟩, ⟨_, givesType⟩⟩
  · rintro ⟨middle, ⟨_, givesNames⟩, ⟨_, givesType⟩⟩
    exact ⟨_, (gives_read_quantified quantifies).2 ⟨_, _, middle, givesNames, givesType, rfl⟩⟩

/-- Behind the quantified variables comes the type. -/
theorem reads_bound {quantifier : Token} {front others : List Token} (quantifies : isQuantifier quantifier = true)
    (names : ReadsBound stop [] (front ++ others) others) :
    Reads stop (quantifier :: front ++ others) left ↔ Ty.Reads stop others left := by
  rw [List.cons_append, reads_quantified quantifies]
  constructor
  · rintro ⟨_, again, type⟩
    rwa [names.unique again]
  · exact fun type => ⟨others, names, type⟩

theorem reads_plain {token : Token} (plain : isQuantifier token = false) :
    Reads stop (token :: tokens) left ↔ Ty.Reads stop (token :: tokens) left := by
  have unquantified : ∀ first ∈ (token :: tokens).head?, isQuantifier first = false := by simpa using plain
  constructor
  · rintro ⟨_, gives⟩
    obtain ⟨_, gives, _⟩ := (gives_read_plain unquantified).1 gives
    exact ⟨_, gives⟩
  · rintro ⟨_, gives⟩
    exact ⟨_, (gives_read_plain unquantified).2 ⟨_, gives, rfl⟩⟩

theorem readsBound_dot {dot : Token} (kind : dot.kind = .dot) (nonempty : bound ≠ []) :
    ReadsBound stop bound (dot :: tokens) left ↔ tokens = left := by
  constructor
  · rintro ⟨_, gives⟩
    rcases gives_readBound_cons.1 gives with ⟨_, _, _, same⟩ | ⟨isWord, _⟩
    · exact same
    · rw [kind] at isWord
      cases isWord
  · rintro rfl
    exact ⟨_, gives_readBound_cons.2 (.inl ⟨kind, nonempty, rfl, rfl⟩)⟩

theorem readsBound_var {name : Token} (isWord : name.kind = .word) (isVar : Ty.isVarName name.text = true)
    (isNew : name.text ∉ bound) :
    ReadsBound stop bound (name :: tokens) left ↔ ReadsBound stop (bound ++ [name.text]) tokens left := by
  constructor
  · rintro ⟨_, gives⟩
    rcases gives_readBound_cons.1 gives with ⟨isDot, _⟩ | ⟨_, _, _, gives⟩
    · rw [isWord] at isDot
      cases isDot
    · exact ⟨_, gives⟩
  · rintro ⟨_, gives⟩
    exact ⟨_, gives_readBound_cons.2 (.inr ⟨isWord, isVar, isNew, gives⟩)⟩

theorem ReadsBound.takesAgain (reads : ReadsBound stop bound tokens rest) :
    TakesAgain (ReadsBound stop bound) (fun _ => True) tokens rest := by
  obtain ⟨_, gives⟩ := reads
  induction tokens generalizing bound with
  | nil => exact absurd gives not_gives_readBound_nil
  | cons token later ih =>
    rcases gives_readBound_cons.1 gives with ⟨isDot, nonempty, rfl, rfl⟩ | ⟨isWord, isVar, isNew, gives⟩
    · exact ⟨[token], rfl, fun others _ => (readsBound_dot isDot nonempty).2 rfl⟩
    · exact (ih gives).past [token] (fun _ _ => readsBound_var isWord isVar isNew) fun _ => id

theorem Reads.takesAgain (reads : Reads stop tokens rest) : TakesAgain (Reads stop) Ty.Ends tokens rest := by
  cases tokens with
  | nil => exact absurd reads.fewer (Nat.not_lt_zero _)
  | cons token later =>
    by_cases quantifies : isQuantifier token = true
    · obtain ⟨middle, names, type⟩ := (reads_quantified quantifies).1 reads
      obtain ⟨front, rfl, again⟩ := names.takesAgain
      exact type.takesAgain.past (token :: front) (fun others _ => reads_bound quantifies (again others (.inr trivial)))
        fun _ => id
    · have plain : isQuantifier token = false := Bool.eq_false_iff.2 quantifies
      have type := (reads_plain plain).1 reads
      obtain ⟨inner, whole, again⟩ := type.takesAgain
      obtain ⟨inner, rfl⟩ := exists_inner whole type.fewer
      exact ⟨token :: inner, whole, fun others follows => (reads_plain plain).2 (again others follows)⟩

end Takes

section Refusals

variable {stop : Position} {tokens : List Token} {refusal : Refusal} {bound : List String}

/-- Where no variable is bound yet, one and a dot complete the quantified variables, and otherwise a dot. -/
theorem completable_readsBound (stop : Position) (bound : List String) :
    Completable (ReadsBound stop bound) fun _ => True := by
  by_cases none : bound = []
  · subst none
    refine ⟨[Sample.name.val, Sample.dot.val], by decide, fun left _ => ?_⟩
    exact (readsBound_var rfl (by decide) (by simp)).2 ((readsBound_dot rfl (by simp)).2 rfl)
  · exact ⟨[Sample.dot.val], by decide, fun left _ => (readsBound_dot rfl none).2 rfl⟩

theorem readBound_pinpoints (refused : readBound stop bound tokens = .error refusal) :
    Pinpoints stop (ReadsBound stop bound) (fun _ => True) tokens refusal := by
  induction tokens generalizing bound with
  | nil =>
    cases refused
    refine .here [] (isAt_refuse _) (fun others left same reads => ?_) (completable_readsBound stop bound)
    obtain rfl := List.head?_eq_none_iff.1 same
    exact absurd reads.fewer (Nat.not_lt_zero _)
  | cons token later ih =>
    change (if token.kind = .dot ∧ bound ≠ [] then _ else _) = Except.error refusal at refused
    split at refused
    · cases refused
    rename_i noDot
    split at refused
    · rename_i isVar
      split at refused
      · rename_i repeated
        cases refused
        refine .here [] ⟨rfl, rfl⟩ (fun others left same reads => ?_) (completable_readsBound stop bound)
        obtain ⟨rest, rfl⟩ := List.head?_eq_some_iff.1 same
        obtain ⟨_, gives⟩ := reads
        rcases gives_readBound_cons.1 gives with ⟨isDot, nonempty, _⟩ | ⟨_, _, isNew, _⟩
        · exact noDot ⟨isDot, nonempty⟩
        · exact isNew repeated
      · rename_i isNew
        simp only [error_bind] at refused
        rcases refused with refused | ⟨_, _, _, impossible⟩
        · exact (ih refused).past [token] (fun _ _ => readsBound_var isVar.1 isVar.2 isNew) fun _ => id
        · cases impossible
    · rename_i noVar
      cases refused
      refine .here [] (isAt_refuse _) (fun others left same reads => ?_) (completable_readsBound stop bound)
      obtain ⟨rest, rfl⟩ := List.head?_eq_some_iff.1 same
      obtain ⟨_, gives⟩ := reads
      rcases gives_readBound_cons.1 gives with ⟨isDot, nonempty, _⟩ | ⟨isWord, isVar, _⟩
      · exact noDot ⟨isDot, nonempty⟩
      · exact noVar ⟨isWord, isVar⟩

theorem read_pinpoints (refused : read stop tokens = .error refusal) :
    Pinpoints stop (Reads stop) Ty.Ends tokens refusal := by
  cases tokens with
  | nil =>
    rw [read] at refused
    cases refused
    refine .here [] (isAt_refuse _) (fun others left same reads => ?_) ⟨[Sample.name.val], by decide,
      fun left ends => (reads_plain (by decide)).2 (Ty.reads_name stop ends)⟩
    obtain rfl := List.head?_eq_none_iff.1 same
    exact absurd reads.fewer (Nat.not_lt_zero _)
  | cons token later =>
    by_cases quantifies : isQuantifier token = true
    · rw [read, if_pos quantifies] at refused
      simp only [error_bind] at refused
      rcases refused with refused | ⟨_, middle, givesNames, refused⟩
      · refine (readBound_pinpoints refused).within [token] [Sample.name.val] ?_ (by decide) (fun _ _ => trivial) ?_
        · intro others left _ reads
          obtain ⟨middle, names, _⟩ := (reads_quantified quantifies).1 reads
          exact ⟨middle, names⟩
        · exact fun others left _ ends names => (reads_quantified quantifies).2 ⟨_, names, Ty.reads_name stop ends⟩
      rcases refused with refused | ⟨_, _, _, impossible⟩
      · have names : ReadsBound stop [] later middle := ⟨_, givesNames⟩
        obtain ⟨front, rfl, again⟩ := names.takesAgain
        exact (Ty.read_pinpoints refused).past (token :: front)
          (fun others _ => reads_bound quantifies (again others (.inr trivial))) fun _ => id
      · cases impossible
    · have plain : isQuantifier token = false := Bool.eq_false_iff.2 quantifies
      rw [read, if_neg quantifies] at refused
      simp only [error_bind] at refused
      rcases refused with refused | ⟨_, _, _, impossible⟩
      · refine (Ty.read_pinpoints refused).last [] ?_ (fun _ => id) ?_
        · intro others left same reads
          obtain ⟨more, rfl⟩ := List.head?_eq_some_iff.1 same
          exact ⟨left, (reads_plain plain).1 reads⟩
        · rintro others left (same | ⟨more, rfl, listed⟩) _ type
          · obtain ⟨more, rfl⟩ := List.head?_eq_some_iff.1 same
            exact (reads_plain plain).2 type
          · -- No sample is a quantifier.
            cases more with
            | nil => exact absurd type.fewer (Nat.lt_irrefl _)
            | cons first more =>
              have unquantified : ∀ token ∈ samples, isQuantifier token = false := by decide
              exact (reads_plain (unquantified first (listed first List.mem_cons_self))).2 type
      · cases impossible

end Refusals

section Alike

open Token (sign)

theorem exists_vars_alike {tokens : List Token} (vars : List Ty.VarToken)
    (same : tokens.map sign = (vars.map Subtype.val).map sign) :
    ∃ others : List Ty.VarToken, others.map Subtype.val = tokens ∧ namesOf others = namesOf vars := by
  induction vars generalizing tokens with
  | nil =>
    obtain rfl := List.map_eq_nil_iff.1 same
    exact ⟨[], rfl, rfl⟩
  | cons var vars ih =>
    obtain ⟨var', later, rfl, text, sameVars⟩ := Ty.exists_var_of_sign same
    obtain ⟨vars', rfl, names⟩ := ih sameVars
    refine ⟨var' :: vars', rfl, ?_⟩
    rw [namesOf, List.map_cons, text, ← namesOf, names]
    rfl

/-- Tokens with the signs of a phrase are derived by a phrase. -/
theorem Phrase.exists_alike {tokens : List Token} : ∀ phrase : Phrase, tokens.map sign = phrase.tokens.map sign →
    ∃ other : Phrase, other.tokens = tokens
  | .quantified quantifier vars nonempty distinct dot type, same => by
    rw [Phrase.tokens] at same
    obtain ⟨quantifier', inside, rfl, kind, text, same⟩ := Token.exists_of_sign same
    rw [List.map_append] at same
    obtain ⟨varTokens, inside, rfl, sameVars, same⟩ := List.map_eq_append_iff.1 same
    obtain ⟨dot', typeTokens, rfl, _, sameType⟩ := Token.Of.exists_of_sign same
    obtain ⟨vars', rfl, names⟩ := exists_vars_alike vars sameVars
    obtain ⟨type', rfl⟩ := type.exists_alike sameType
    have quantifies : isQuantifier quantifier' = true := by
      rw [isQuantifier, kind, text]
      exact quantifier.property
    have some : vars' ≠ [] := by
      rintro rfl
      exact nonempty (List.map_eq_nil_iff.1 names.symm)
    exact ⟨.quantified ⟨quantifier', quantifies⟩ vars' some (names ▸ distinct) dot' type', by rw [Phrase.tokens]⟩
  | .plain type unquantified, same => by
    rw [Phrase.tokens] at same
    obtain ⟨type', rfl⟩ := type.exists_alike same
    refine ⟨.plain type' fun token first => ?_, by rw [Phrase.tokens]⟩
    have heads := congrArg List.head? same
    rw [List.head?_map, List.head?_map, first] at heads
    obtain ⟨other, firstOther, sameSign⟩ := Option.map_eq_some_iff.1 heads.symm
    obtain ⟨kind, text⟩ := Prod.mk.inj sameSign
    rw [isQuantifier, ← kind, ← text]
    exact unquantified other firstOther

end Alike

theorem isAccurate_read : IsAccurate read Ty.Ends fun tokens => ∃ phrase : Phrase, phrase.tokens = tokens where
  derives_iff stop tokens := by
    constructor
    · rintro ⟨_, gives⟩
      obtain ⟨phrase, rfl, _⟩ := exists_phrase gives
      exact ⟨phrase, (List.append_nil _).symm⟩
    · rintro ⟨phrase, rfl⟩
      exact ⟨_, phrase.gives_read stop⟩
  alike := by
    rintro _ others same ⟨phrase, rfl⟩
    exact phrase.exists_alike same
  ends := Ty.ends_nil
  refused := read_pinpoints
  again := Reads.takesAgain

end Scheme

/-- The readers of expressions, types and type schemes point at the first token that no text goes on with:
what comes before it can be continued, and what it ends cannot. -/
theorem parse_pointsAtFirst : PointsAtFirst Expr.parse ∧ PointsAtFirst Ty.parse ∧ PointsAtFirst Scheme.parse :=
  ⟨Expr.isAccurate_read.pointsAtFirst .expression, Ty.isAccurate_read.pointsAtFirst .type,
    Scheme.isAccurate_read.pointsAtFirst .type⟩

example : Scheme.parse "forall a a. a" = .error ⟨.repeated "a", ⟨1, 10⟩⟩ := by cbv

end HindleyMilner
