import HindleyMilner.Prelude
import HindleyMilner.Proofs.Allocation
import HindleyMilner.Proofs.Annotation
import HindleyMilner.Proofs.ExpressionGrammar
import HindleyMilner.Proofs.PrintedTypes

/-! Accepted preludes.

The bindings of an accepted prelude have different names and closed schemes, so its environment holds
exactly these bindings and no substitution changes it. A name is checked by reading it, which passes
over blanks around it, but it is bound as it is written. So the bindings can be used by their names
exactly if every name is one word. -/

set_option autoImplicit false

namespace HindleyMilner

namespace NameMap

variable {α : Type} {map : NameMap α} {name : String}

theorem nodup_names (map : NameMap α) : map.names.Nodup := by
  refine List.pairwise_map.2 (map.ascending.imp fun below same => ?_)
  rw [same] at below
  exact String.lt_irrefl _ below

theorem mem_names : name ∈ map.names ↔ ∃ value, map.find? name = some value := by
  simp only [← mem_entries, names, List.mem_map, Prod.exists, exists_and_right, exists_eq_right]

end NameMap

def Signature.among (names : List String) : Signature := ⟨(· ∈ names), fun _ _ => True⟩

/-- Function types, and the constructors that can be read with any arguments, belong to the signature. -/
structure Signature.Reads (sig : Signature) : Prop where
  arrow : sig.app Ty.arrowName 2
  con : ∀ name, Ty.isVarName name = false → ∀ count, sig.app name count

theorem Signature.reads_among (names : List String) : (among names).Reads := ⟨trivial, fun _ _ _ => trivial⟩

namespace Ty

variable {sig : Signature}

mutual
/-- A type that was read is within the signature if its words may stand for variables. -/
theorem Phrase.within_type (reads : sig.Reads) : ∀ phrase : Phrase, (∀ token ∈ phrase.tokens, sig.var token.text) →
    phrase.type.Within sig
  | .applied type => by
    rw [Phrase.type, Phrase.tokens]
    exact type.within_type reads
  | .arrow domain arrow codomain => by
    rw [Phrase.type, Phrase.tokens, List.forall_mem_append, List.forall_mem_cons, Ty.arrow, within_app,
      List.forall_mem_cons, List.forall_mem_singleton]
    rintro ⟨inDomain, _, inCodomain⟩
    exact ⟨reads.arrow, domain.within_type reads inDomain, codomain.within_type reads inCodomain⟩

theorem Applied.within_type (reads : sig.Reads) : ∀ applied : Applied,
    (∀ token ∈ applied.tokens, sig.var token.text) → applied.type.Within sig
  | .con name args => by
    rw [Applied.type, Applied.tokens, List.forall_mem_cons, within_app]
    rintro ⟨_, inArgs⟩
    exact ⟨reads.con _ name.property.2 _, args.within_types reads inArgs⟩
  | .atom type => by
    rw [Applied.type, Applied.tokens]
    exact type.within_type reads

theorem Atoms.within_types (reads : sig.Reads) : ∀ atoms : Atoms,
    (∀ token ∈ atoms.tokens, sig.var token.text) → ∀ t ∈ atoms.types, t.Within sig
  | .none => by simp [Atoms.types]
  | .more first others => by
    rw [Atoms.types, Atoms.tokens, List.forall_mem_append, List.forall_mem_cons]
    rintro ⟨inFirst, inOthers⟩
    exact ⟨first.within_type reads inFirst, others.within_types reads inOthers⟩

theorem Atom.within_type (reads : sig.Reads) : ∀ atom : Atom,
    (∀ token ∈ atom.tokens, sig.var token.text) → atom.type.Within sig
  | .var name => by
    rw [Atom.type, Atom.tokens, List.forall_mem_singleton, within_var]
    exact id
  | .con name => by
    rw [Atom.type, const, within_app]
    exact fun _ => ⟨reads.con _ name.property.2 _, nofun⟩
  | .group opening type closing => by
    rw [Atom.type, Atom.tokens, List.forall_mem_cons, List.forall_mem_append]
    exact fun inside => type.within_type reads inside.2.1
end

end Ty

namespace Scheme

variable {text : String} {scheme : Scheme}

/-- The names that a text gives after a quantifier at its start, up to the first dot. -/
def quantifiedIn (text : String) : List String :=
  match (Token.scan text.toList).1 with
  | [] => []
  | first :: others =>
    if isQuantifier first then (others.takeWhile (·.kind ≠ .dot)).map Token.text else []

theorem quantifiedIn_subset (text : String) : quantifiedIn text ⊆ (Token.scan text.toList).1.map Token.text := by
  unfold quantifiedIn
  split
  · exact List.nil_subset _
  · rename_i first others tokens
    rw [tokens]
    split
    · exact List.Subset.trans (List.map_subset _ (List.takeWhile_subset _)) (List.subset_cons_self _ _)
    · exact List.nil_subset _

theorem bound_of_parse (parsed : parse text = .ok scheme) : scheme.bound = quantifiedIn text ∧ scheme.bound.Nodup := by
  obtain ⟨phrase, tokens, rfl⟩ := exists_phrase_of_parse parsed
  unfold quantifiedIn
  rw [← tokens]
  cases phrase with
  | quantified quantifier vars nonempty distinct dot type =>
    have names : (vars.map Subtype.val ++ dot.val :: type.tokens).takeWhile (·.kind ≠ .dot) = vars.map Subtype.val := by
      rw [List.takeWhile_append_of_pos]
      · simp
      · rintro token mem
        obtain ⟨var, _, rfl⟩ := List.mem_map.1 mem
        simp [var.property.1]
    rw [Phrase.scheme, foldr_quantify, Phrase.tokens]
    dsimp only
    rw [if_pos quantifier.property, names, List.map_map]
    exact ⟨rfl, distinct⟩
  | plain type unquantified =>
    rw [Phrase.scheme, Phrase.tokens]
    refine ⟨?_, List.nodup_nil⟩
    split
    · rfl
    · rename_i first others start
      have notQuantifier : isQuantifier first = false := unquantified first (by rw [start]; rfl)
      rw [if_neg (by simp [notQuantifier])]
      rfl

/-- The type of a scheme that was read is within the signature if the words of the text may stand for
variables. -/
theorem within_of_parse {sig : Signature} (reads : sig.Reads) (parsed : parse text = .ok scheme)
    (words : ∀ token ∈ (Token.scan text.toList).1, sig.var token.text) : scheme.type.Within sig := by
  obtain ⟨phrase, tokens, rfl⟩ := exists_phrase_of_parse parsed
  rw [← tokens] at words
  cases phrase with
  | quantified quantifier vars nonempty distinct dot type =>
    rw [Phrase.scheme, foldr_quantify]
    refine type.within_type reads fun token mem => words token ?_
    simp [Phrase.tokens, mem]
  | plain type unquantified => exact type.within_type reads words

theorem within_among_of_parse (parsed : parse text = .ok scheme) :
    scheme.type.Within (.among ((Token.scan text.toList).1.map Token.text)) :=
  within_of_parse (Signature.reads_among _) parsed fun _ mem => List.mem_map_of_mem mem

theorem mem_bound_close {v : String} (inside : scheme.type.occurs v = true) : v ∈ scheme.close.bound := by
  by_cases bound : v ∈ scheme.bound
  · exact List.mem_append_left _ bound
  · exact List.mem_append_right _ (mem_freeVars.2 ⟨inside, bound⟩)

theorem nodup_bound_close (distinct : scheme.bound.Nodup) : scheme.close.bound.Nodup := by
  refine List.nodup_append.2 ⟨distinct, Ty.nodup_collect List.nodup_nil, ?_⟩
  rintro v bound w free rfl
  exact (mem_freeVars.1 free).2 bound

theorem length_bound_close_le (parsed : parse text = .ok scheme) : scheme.close.bound.length ≤ text.length := by
  obtain ⟨bound, distinct⟩ := bound_of_parse parsed
  have listed : scheme.close.bound ⊆ (Token.scan text.toList).1.map Token.text := by
    intro v mem
    rcases List.mem_append.1 mem with explicit | free
    · rw [bound] at explicit
      exact quantifiedIn_subset text explicit
    · exact (within_among_of_parse parsed).var_of_occurs (mem_freeVars.1 free).1
  calc scheme.close.bound.length
    _ ≤ ((Token.scan text.toList).1.map Token.text).length := ((nodup_bound_close distinct).subperm listed).length_le
    _ = (Token.scan text.toList).1.length := List.length_map _
    _ ≤ text.toList.length := Token.length_scanFrom_le _ _ _
    _ = text.length := String.length_toList

end Scheme

namespace Expr

variable {text name : String} {mark : Mark}

theorem calls_ne_var {fn first : Expr} {others : List Expr} {group : Mark} :
    calls fn (first :: others) group ≠ .var name mark := by
  induction others generalizing fn first with
  | nil => nofun
  | cons second others ih => exact ih

/-- The variable that a text reads as is a word. The text may have blanks around it. -/
theorem lexes_of_parse_var (parsed : parse text = .ok (.var name mark)) : Token.Lexes .word name := by
  obtain ⟨phrase, tokens, tree⟩ := exists_phrase_of_parse parsed
  cases phrase with
  | name token =>
    have mem : token.val ∈ (Token.scan text.toList).1 := by
      rw [← tokens]
      exact List.mem_singleton_self _
    have lexes := (Token.lexes_of_mem mem).1
    cases tree
    rwa [token.property] at lexes
  | call opening fn args closing => cases args <;> exact absurd tree calls_ne_var
  | _ => cases tree

theorem parse_of_word {pos : Position} (scanned : (Token.scan text.toList).1 = [⟨.word, name, pos⟩]) :
    parse text = .ok (.var name ⟨pos, .absent⟩) :=
  @parse_of_tokens text (.name ⟨⟨.word, name, pos⟩, rfl⟩) (by rw [scanned]; rfl)

end Expr

theorem Session.outcome_infer_var {session : Session} {env : Env} {v : String} {mark : Mark} :
    (session.infer env (.var v mark)).outcome =
      match env.find? v with
      | none => .error (.failed (.undefined v mark.pos))
      | some scheme =>
        .ok ⟨∅, (session.supply.instantiate scheme).1, .var v { mark with type := (session.supply.instantiate scheme).1 }⟩ := by
  have given : Expr.var v mark ≠ .absent := nofun
  rw [outcome_infer given, Infer.run_var]
  cases env.find? v <;> rfl

namespace Prelude

variable {seen : List String} {entry : Entry} {entries : List Entry} {binding : Binding} {bindings : List Binding}
  {path name : String} {prelude : Prelude}

/-- What is known of the bindings for some entries that were accepted after those with the names
`seen`. -/
structure Admits (seen : List String) (entries : List Entry) (bindings : List Binding) : Prop where
  entries : bindings.map Binding.entry = entries
  distinct : (bindings.map (·.entry.name)).Nodup
  unseen : ∀ binding ∈ bindings, binding.entry.name ∉ seen
  identifier : ∀ binding ∈ bindings, isIdentifier binding.entry.name = true
  closed : ∀ binding ∈ bindings, ∃ parsed, Scheme.parse binding.entry.type = .ok parsed ∧ binding.scheme = parsed.close

theorem Entry.check_eq_ok (checked : entry.check seen = .ok binding) :
    isIdentifier entry.name = true ∧ entry.name ∉ seen ∧
      ∃ parsed, Scheme.parse entry.type = .ok parsed ∧ binding = ⟨entry, parsed.close⟩ := by
  unfold Entry.check at checked
  split at checked
  · cases checked
  split at checked
  · cases checked
  rename_i identifier
  split at checked
  · cases checked
  rename_i unseen
  split at checked
  · cases checked
  split at checked
  · cases checked
  · rename_i parsed isParsed
    cases checked
    exact ⟨by simpa using identifier, unseen, parsed, isParsed, rfl⟩

theorem admits_of_checkFrom (checked : checkFrom seen entries = (bindings, none)) : Admits seen entries bindings := by
  induction entries generalizing seen bindings with
  | nil =>
    cases checked
    exact ⟨rfl, List.nodup_nil, nofun, nofun, nofun⟩
  | cons entry rest ih =>
    rw [checkFrom] at checked
    cases first : entry.check seen with
    | error problem =>
      rw [first] at checked
      cases checked
    | ok binding =>
      rw [first] at checked
      obtain ⟨identifier, unseen, parsed, isParsed, rfl⟩ := Entry.check_eq_ok first
      rcases later : checkFrom (entry.name :: seen) rest with ⟨others, problem⟩
      rw [later] at checked
      cases checked
      have admits := ih later
      refine ⟨by rw [List.map_cons, admits.entries], ?_, ?_, ?_, ?_⟩
      · refine List.nodup_cons.2 ⟨fun mem => ?_, admits.distinct⟩
        obtain ⟨other, inOthers, same⟩ := List.mem_map.1 mem
        exact admits.unseen other inOthers (same ▸ List.mem_cons_self)
      · refine List.forall_mem_cons.2 ⟨unseen, fun other mem isSeen => ?_⟩
        exact admits.unseen other mem (List.mem_cons_of_mem _ isSeen)
      · exact List.forall_mem_cons.2 ⟨identifier, admits.identifier⟩
      · exact List.forall_mem_cons.2 ⟨⟨parsed, isParsed, rfl⟩, admits.closed⟩

theorem admits_of_check (accepted : (check path entries).outcome = .ok prelude) : Admits [] entries prelude.bindings := by
  unfold check at accepted
  split at accepted
  · rename_i bindings checked
    cases accepted
    exact admits_of_checkFrom checked
  · cases accepted

/-- The scheme of the binding is its signature under different quantifiers for all its variables, and
those that the signature gives come first. -/
structure Binding.IsClosed (binding : Binding) : Prop where
  signature : ∃ parsed, Scheme.parse binding.entry.type = .ok parsed ∧ binding.scheme.type = parsed.type
  distinct : binding.scheme.bound.Nodup
  covers : ∀ v, binding.scheme.type.occurs v = true → v ∈ binding.scheme.bound
  explicit : Scheme.quantifiedIn binding.entry.type <+: binding.scheme.bound

theorem Admits.isClosed (admits : Admits seen entries bindings) (mem : binding ∈ bindings) : binding.IsClosed := by
  obtain ⟨parsed, isParsed, same⟩ := admits.closed binding mem
  obtain ⟨bound, distinct⟩ := Scheme.bound_of_parse isParsed
  constructor
  · exact ⟨parsed, isParsed, by rw [same]; rfl⟩
  · rw [same]
    exact Scheme.nodup_bound_close distinct
  · intro v inside
    rw [same] at inside ⊢
    exact Scheme.mem_bound_close inside
  · rw [← bound, same]
    exact List.prefix_append _ _

section Admitted

variable (admits : Admits seen entries prelude.bindings)

include admits

theorem Admits.eq_of_name {first second : Binding} (mem : first ∈ prelude.bindings) (memSecond : second ∈ prelude.bindings)
    (same : first.entry.name = second.entry.name) : first = second :=
  List.inj_on_of_nodup_map admits.distinct mem memSecond same

/-- The environment holds exactly the bindings. -/
theorem Admits.find?_env {scheme : Scheme} : prelude.env.find? name = some scheme ↔
    ∃ binding ∈ prelude.bindings, binding.entry.name = name ∧ binding.scheme = scheme := by
  have env : prelude.env = NameMap.ofList (prelude.bindings.map fun binding => (binding.entry.name, binding.scheme)) := by
    rw [NameMap.ofList, List.foldl_map]
    rfl
  rw [env]
  constructor
  · intro found
    rw [NameMap.find?_ofList] at found
    simpa using NameMap.mem_of_findEntry found
  · rintro ⟨binding, mem, rfl, rfl⟩
    refine NameMap.find?_ofList_of_mem (List.mem_map_of_mem mem) fun other listed => ?_
    obtain ⟨same, memSame, pair⟩ := List.mem_map.1 listed
    obtain ⟨sameName, rfl⟩ := Prod.mk.inj pair
    rw [admits.eq_of_name memSame mem sameName]

theorem Admits.find? (mem : binding ∈ prelude.bindings) : prelude.find? binding.entry.name = some binding := by
  unfold Prelude.find?
  cases found : prelude.bindings.find? (·.entry.name = binding.entry.name) with
  | none => simpa using List.find?_eq_none.1 found binding mem
  | some other =>
    have same : other.entry.name = binding.entry.name := by simpa using List.find?_some found
    rw [admits.eq_of_name (List.mem_of_find?_eq_some found) mem same]

theorem Admits.size_env : prelude.env.size = entries.length := by
  have perm : prelude.env.names.Perm (prelude.bindings.map (·.entry.name)) := by
    refine (List.perm_ext_iff_of_nodup (NameMap.nodup_names _) admits.distinct).2 fun name => ?_
    rw [NameMap.mem_names, List.mem_map]
    constructor
    · rintro ⟨scheme, found⟩
      obtain ⟨binding, mem, same, _⟩ := admits.find?_env.1 found
      exact ⟨binding, mem, same⟩
    · rintro ⟨binding, mem, same⟩
      exact ⟨binding.scheme, admits.find?_env.2 ⟨binding, mem, same, rfl⟩⟩
  rw [← admits.entries]
  simpa [NameMap.names, NameMap.size] using perm.length_eq

theorem Admits.isClosed_env : prelude.env.IsClosed := by
  rintro v ⟨name, scheme, found, inside, outside⟩
  obtain ⟨binding, mem, _, rfl⟩ := admits.find?_env.1 found
  exact outside ((admits.isClosed mem).covers v inside)

end Admitted

/-- An accepted prelude gives an environment of exactly its bindings, which is closed: it has no free
type variables, and no substitution changes it. -/
theorem env_of_check (path : String) (entries : List Entry) (prelude : Prelude)
    (accepted : (check path entries).outcome = .ok prelude) :
    prelude.bindings.map Binding.entry = entries ∧
    (∀ binding ∈ prelude.bindings, binding.IsClosed ∧ prelude.env.find? binding.entry.name = some binding.scheme ∧
      prelude.find? binding.entry.name = some binding) ∧
    (∀ name scheme, prelude.env.find? name = some scheme →
      ∃ binding ∈ prelude.bindings, binding.entry.name = name ∧ binding.scheme = scheme) ∧
    prelude.env.size = entries.length ∧ prelude.env.freeVars = ∅ ∧ ∀ s, prelude.env.subst s = prelude.env := by
  have admits := admits_of_check accepted
  refine ⟨admits.entries, fun binding mem => ⟨admits.isClosed mem, ?_, admits.find? mem⟩,
    fun name scheme found => admits.find?_env.1 found, admits.size_env, ?_, Env.subst_of_isClosed admits.isClosed_env⟩
  · exact admits.find?_env.2 ⟨binding, mem, rfl, rfl⟩
  · refine NameMap.ext_find? fun v => ?_
    rw [NameMap.find?_emptyCollection, ← Option.not_isSome_iff_eq_none]
    exact fun free => admits.isClosed_env v (Env.contains_freeVars.1 free)

/-- The name that the first signature does not quantify comes after the one that it does. -/
theorem env_of_check_implicit :
    let entries : List Entry := [⟨"k", "∀b.a -> b", ""⟩, ⟨"same", "a -> a", ""⟩]
    ∃ prelude, (check "prelude" entries).outcome = .ok prelude ∧
      prelude.env.find? "k" = some ⟨["b", "a"], .arrow (.var "a") (.var "b")⟩ ∧
      prelude.env.find? "same" = some ⟨["a"], .arrow (.var "a") (.var "a")⟩ ∧
      prelude.env.size = 2 ∧ prelude.env.freeVars = ∅ := by
  intro entries
  let first : Binding := ⟨⟨"k", "∀b.a -> b", ""⟩, ⟨["b", "a"], .arrow (.var "a") (.var "b")⟩⟩
  let second : Binding := ⟨⟨"same", "a -> a", ""⟩, ⟨["a"], .arrow (.var "a") (.var "a")⟩⟩
  have accepted : (check "prelude" entries).outcome = .ok ⟨[first, second]⟩ := by cbv
  obtain ⟨_, bound, _, size, closed, _⟩ := env_of_check "prelude" entries _ accepted
  exact ⟨_, accepted, (bound first (by simp)).2.1, (bound second (by simp)).2.1, size, closed⟩

theorem exists_parse_of_isIdentifier (identifier : isIdentifier name = true) :
    ∃ v mark, Expr.parse name = .ok (.var v mark) := by
  unfold isIdentifier at identifier
  split at identifier
  · rename_i v mark parsed
    exact ⟨v, mark, parsed⟩
  · cases identifier

/-- The name of the binding reads as a variable, and the type inferred for that variable is the type of
the binding with other names, from any number on. -/
def Binding.IsUsable (env : Env) (binding : Binding) : Prop :=
  ∃ v mark, Expr.parse binding.entry.name = .ok (.var v mark) ∧ ∀ session : Session, ∃ found,
    (session.infer env (.var v mark)).outcome = .ok found ∧ binding.scheme.type.alphaEquals found.type = true

/-- No two bindings have names that read as the same variable. -/
def AreApart (bindings : List Binding) : Prop :=
  ∀ first ∈ bindings, ∀ second ∈ bindings, ∀ v mark mark', Expr.parse first.entry.name = .ok (.var v mark) →
    Expr.parse second.entry.name = .ok (.var v mark') → first = second

/-- A binding whose name is one word can be used. -/
theorem Admits.isUsable (admits : Admits seen entries prelude.bindings) (mem : binding ∈ prelude.bindings)
    (short : binding.entry.type.length ≤ Supply.cycle) (word : Token.Lexes .word binding.entry.name) :
    binding.IsUsable prelude.env := by
  obtain ⟨parsed, isParsed, same⟩ := admits.closed binding mem
  have wholeParsed := (Scheme.within_among_of_parse isParsed).isComplete
  have whole : binding.scheme.type.isComplete = true := by
    rw [same]
    exact wholeParsed
  have few : binding.scheme.bound.length ≤ Supply.cycle := by
    rw [same]
    exact (Scheme.length_bound_close_le isParsed).trans short
  have bound : prelude.env.find? binding.entry.name = some binding.scheme := admits.find?_env.2 ⟨binding, mem, rfl, rfl⟩
  refine ⟨binding.entry.name, _, Expr.parse_of_word word, fun session => ?_⟩
  rw [Session.outcome_infer_var, bound]
  exact ⟨_, rfl, Supply.alphaEquals_instantiate whole (admits.isClosed mem).covers few⟩

/-- The variable that the name of a usable binding reads as is the name of a binding. -/
theorem Admits.exists_binding (admits : Admits seen entries prelude.bindings) (usable : binding.IsUsable prelude.env) :
    ∃ other ∈ prelude.bindings, ∃ mark, Expr.parse binding.entry.name = .ok (.var other.entry.name mark) := by
  obtain ⟨v, mark, parsed, infers⟩ := usable
  obtain ⟨found, answered, _⟩ := infers {}
  rw [Session.outcome_infer_var] at answered
  split at answered
  · cases answered
  · rename_i lookup
    obtain ⟨other, memOther, rfl, _⟩ := admits.find?_env.1 lookup
    exact ⟨other, memOther, mark, parsed⟩

/-- Every name of an accepted prelude reads as a variable. The bindings can be used by their names, and
are never mistaken for each other, exactly if every name is that variable itself, without blanks around
it. The signatures are no longer than the counter of 64 bits can number their variables. -/
theorem usable_iff_of_check (path : String) (entries : List Entry) (prelude : Prelude)
    (accepted : (check path entries).outcome = .ok prelude)
    (short : ∀ entry ∈ entries, entry.type.length ≤ Supply.cycle) :
    (∀ binding ∈ prelude.bindings, ∃ v mark, Expr.parse binding.entry.name = .ok (.var v mark)) ∧
    ((∀ binding ∈ prelude.bindings, binding.IsUsable prelude.env) ∧ AreApart prelude.bindings ↔
      ∀ binding ∈ prelude.bindings, Token.Lexes .word binding.entry.name) := by
  have admits := admits_of_check accepted
  refine ⟨fun binding mem => exists_parse_of_isIdentifier (admits.identifier binding mem), ⟨?_, fun words => ⟨?_, ?_⟩⟩⟩
  · rintro ⟨usable, apart⟩ binding mem
    -- The binding that is found by the variable has a name that reads as the same variable.
    obtain ⟨other, memOther, mark, parsed⟩ := admits.exists_binding (usable binding mem)
    have word := Expr.lexes_of_parse_var parsed
    rwa [apart binding mem other memOther _ _ _ parsed (Expr.parse_of_word word)]
  · intro binding mem
    have inEntries : binding.entry ∈ entries := admits.entries ▸ List.mem_map_of_mem mem
    exact admits.isUsable mem (short _ inEntries) (words binding mem)
  · intro first mem second memSecond v mark mark' parsed parsedSecond
    rw [Expr.parse_of_word (words first mem)] at parsed
    rw [Expr.parse_of_word (words second memSecond)] at parsedSecond
    cases parsed
    obtain ⟨same, _⟩ := Expr.var.inj (Except.ok.inj parsedSecond)
    exact admits.eq_of_name mem memSecond same.symm

theorem usable_iff_of_check_identity :
    let entries : List Entry := [⟨"id'", "a -> a", ""⟩, ⟨"one", "Int", "a number"⟩]
    ∃ prelude, (check "prelude" entries).outcome = .ok prelude ∧ prelude.bindings.length = 2 ∧
      (∀ binding ∈ prelude.bindings, binding.IsUsable prelude.env) ∧ AreApart prelude.bindings := by
  intro entries
  let prelude : Prelude := ⟨[⟨⟨"id'", "a -> a", ""⟩, ⟨["a"], .arrow (.var "a") (.var "a")⟩⟩,
    ⟨⟨"one", "Int", "a number"⟩, .mono .int⟩]⟩
  have accepted : (check "prelude" entries).outcome = .ok prelude := by cbv
  have short : ∀ entry ∈ entries, entry.type.length ≤ Supply.cycle := by decide
  have words : ∀ binding ∈ prelude.bindings, Token.Lexes .word binding.entry.name := by decide
  have usable := (usable_iff_of_check "prelude" entries prelude accepted short).2.2 words
  exact ⟨prelude, accepted, rfl, usable⟩

/-- A name with a blank after it is accepted, also next to the name without it. The variable that both
read as is not bound by the first. -/
theorem check_accepts_blank :
    let blank : Prelude := ⟨[⟨⟨"x ", "Int", ""⟩, .mono .int⟩]⟩
    let both : Prelude := ⟨[⟨⟨"x", "Int", ""⟩, .mono .int⟩, ⟨⟨"x ", "Bool", ""⟩, .mono .bool⟩]⟩
    (check "prelude" [⟨"x ", "Int", ""⟩]).outcome = .ok blank ∧
    Expr.parse "x " = .ok (.var "x" ⟨.start, .absent⟩) ∧
    (Session.infer {} blank.env (.var "x" ⟨.start, .absent⟩)).outcome = .error (.failed (.undefined "x" .start)) ∧
    (check "prelude" [⟨"x", "Int", ""⟩, ⟨"x ", "Bool", ""⟩]).outcome = .ok both ∧ ¬ AreApart both.bindings := by
  have reads : Expr.parse "x" = .ok (.var "x" ⟨.start, .absent⟩) := Expr.parse_of_word (by decide)
  have readsBlank : Expr.parse "x " = .ok (.var "x" ⟨.start, .absent⟩) := Expr.parse_of_word (by decide)
  refine ⟨by cbv, readsBlank, by rw [Session.outcome_infer_var]; rfl, by cbv, fun apart => ?_⟩
  have same := apart _ List.mem_cons_self _ (List.mem_cons_of_mem _ List.mem_cons_self) "x" _ _ reads readsBlank
  revert same
  decide

end Prelude

end HindleyMilner
