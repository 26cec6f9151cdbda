import HindleyMilner.Error

/-! Readers of token lists.

A reader takes what it reads from the front of the tokens and leaves the rest. When it refuses a
token it leaves the tokens from that one on, so that another reader can go on there. -/

set_option autoImplicit false

namespace HindleyMilner

/-- A value that was read and the tokens left, of which there are fewer than `bound`. -/
structure Read (α : Type) (bound : Nat) where
  value : α
  rest : List Token
  fewer : rest.length < bound

structure Refusal where
  error : SyntaxError
  rest : List Token

namespace Reader

/-- The next token, where `stop` is the position at the end of the text. -/
def next (stop : Position) : List Token → Token
  | [] => .endAt stop
  | token :: _ => token

def refuse (stop : Position) (what : Expected) (tokens : List Token) : Refusal :=
  let token := next stop tokens
  -- A character that starts no token is refused as such, whatever was expected.
  let cause := if token.kind = .stray then .stray token.text else .expected what token
  ⟨⟨cause, token.pos⟩, tokens⟩

def expect (stop : Position) (kind : Token.Kind) (what : Expected) (tokens : List Token) :
    Except Refusal (Read Token tokens.length) :=
  match tokens with
  | [] => .error (refuse stop what [])
  | token :: rest =>
    if token.kind = kind then .ok ⟨token, rest, by simp⟩ else .error (refuse stop what (token :: rest))

def expectToken (stop : Position) (kind : Token.Kind) (tokens : List Token) :
    Except Refusal (Read Token tokens.length) :=
  expect stop kind (.token kind) tokens

def expectEnd (after : Category) : List Token → Except SyntaxError Unit
  | [] => .ok ()
  | token :: _ =>
    .error ⟨if token.kind = .stray then .stray token.text else .trailing token after, token.pos⟩

def run {α : Type} (tokens : List Token) (outcome : Except Refusal (Read α tokens.length)) :
    Except SyntaxError α × List Token :=
  match outcome with
  | .ok read => (.ok read.value, read.rest)
  | .error refusal => (.error refusal.error, refusal.rest)

def readAll {α : Type} (after : Category)
    (reader : Position → (tokens : List Token) → Except Refusal (Read α tokens.length))
    (text : String) : Except SyntaxError α :=
  let (tokens, stop) := Token.scan text.toList
  match reader stop tokens with
  | .error refusal => .error refusal.error
  | .ok read => do
    expectEnd after read.rest
    return read.value

end Reader

end HindleyMilner
