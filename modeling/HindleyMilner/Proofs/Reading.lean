import HindleyMilner.Reader

/-! Readers that succeed.

A reader gives a value and the tokens left. Reading one thing after the other gives what the parts
give, so a reader can be followed step by step without looking at its refusals. -/

set_option autoImplicit false

namespace HindleyMilner

abbrev Token.Of (kind : Token.Kind) := { token : Token // token.kind = kind }

@[simp] theorem Token.kind_of {kind : Token.Kind} (token : Token.Of kind) : token.val.kind = kind := token.property

namespace Reader

variable {α β : Type} {bound wider : Nat} {value other : α} {rest left : List Token}

/-- The value was read and `rest` is left. -/
def Gives (outcome : Except Refusal (Read α bound)) (value : α) (rest : List Token) : Prop :=
  ∃ fewer, outcome = .ok ⟨value, rest, fewer⟩

theorem Gives.fewer {outcome : Except Refusal (Read α bound)} (gives : Gives outcome value rest) : rest.length < bound := by
  obtain ⟨fewer, _⟩ := gives
  exact fewer

@[simp] theorem gives_ok {fewer : left.length < bound} :
    Gives (.ok ⟨other, left, fewer⟩) value rest ↔ other = value ∧ left = rest := by
  constructor
  · rintro ⟨_, same⟩
    cases same
    exact ⟨rfl, rfl⟩
  · rintro ⟨rfl, rfl⟩
    exact ⟨fewer, rfl⟩

@[simp] theorem gives_pure {fewer : left.length < bound} :
    Gives (pure ⟨other, left, fewer⟩) value rest ↔ other = value ∧ left = rest := gives_ok

@[simp] theorem not_gives_error {refusal : Refusal} :
    ¬ Gives (.error refusal : Except Refusal (Read α bound)) value rest := nofun

@[simp] theorem gives_bind {step : Except Refusal (Read α bound)} {next : Read α bound → Except Refusal (Read β wider)}
    {value : β} : Gives (step >>= next) value rest ↔
      ∃ first middle, ∃ gives : Gives step first middle, Gives (next ⟨first, middle, gives.fewer⟩) value rest := by
  cases step with
  | error refusal => exact ⟨nofun, fun ⟨_, _, impossible, _⟩ => absurd impossible not_gives_error⟩
  | ok read =>
    constructor
    · exact fun gives => ⟨read.value, read.rest, ⟨read.fewer, rfl⟩, gives⟩
    · rintro ⟨first, middle, ⟨_, same⟩, gives⟩
      cases same
      exact gives

@[simp] theorem gives_expect {stop : Position} {kind : Token.Kind} {what : Expected} {tokens : List Token}
    {token : Token} : Gives (expect stop kind what tokens) token rest ↔ tokens = token :: rest ∧ token.kind = kind := by
  cases tokens with
  | nil => simp [expect]
  | cons first others =>
    rw [expect]
    split
    · rename_i same
      rw [gives_ok, List.cons.injEq]
      exact ⟨fun both => ⟨both, both.1 ▸ same⟩, And.left⟩
    · rename_i differs
      rw [List.cons.injEq]
      exact ⟨fun gives => absurd gives not_gives_error, fun both => absurd (both.1.1 ▸ both.2) differs⟩

@[simp] theorem gives_expectToken {stop : Position} {kind : Token.Kind} {tokens : List Token} {token : Token} :
    Gives (expectToken stop kind tokens) token rest ↔ tokens = token :: rest ∧ token.kind = kind := gives_expect

theorem run_of_gives {tokens : List Token} {outcome : Except Refusal (Read α tokens.length)}
    (gives : Gives outcome value rest) : run tokens outcome = (.ok value, rest) := by
  obtain ⟨_, rfl⟩ := gives
  rfl

/-- A whole text is read exactly if no token is left. -/
theorem readAll_eq_ok_iff {after : Category}
    {reader : Position → (tokens : List Token) → Except Refusal (Read α tokens.length)} {text : String} :
    readAll after reader text = .ok value ↔
      Gives (reader (Token.scan text.toList).2 (Token.scan text.toList).1) value [] := by
  unfold readAll
  dsimp only
  cases reader (Token.scan text.toList).2 (Token.scan text.toList).1 with
  | error refusal => simp
  | ok read =>
    obtain ⟨found, rest, fewer⟩ := read
    cases rest with
    | nil => simp [expectEnd, Functor.map, Except.map]
    | cons token others => simp [expectEnd, Functor.map, Except.map]

end Reader

end HindleyMilner
