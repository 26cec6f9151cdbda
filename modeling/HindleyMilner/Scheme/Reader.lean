import HindleyMilner.Scheme
import HindleyMilner.Ty.Reader

/-! Reading type schemes.

A scheme is a type, or a quantifier (`∀` or the word `forall`) with one type variable or more, all
different, a dot and a type. -/

set_option autoImplicit false

namespace HindleyMilner.Scheme

open Reader

/-- A leading word `forall` is always a quantifier. -/
def isQuantifier (token : Token) : Bool :=
  token.kind = .quantifier || (token.kind = .word && token.text == "forall")

/-- Read type variables up to a dot, at least one in all; `bound` are those before. -/
def readBound (stop : Position) (bound : List String) (tokens : List Token) :
    Except Refusal (Read (List String) tokens.length) :=
  match tokens with
  | [] => .error (refuse stop .typeVariable [])
  | token :: rest =>
    if token.kind = .dot ∧ bound ≠ [] then .ok ⟨bound, rest, Nat.lt_succ_self _⟩
    else if token.kind = .word ∧ Ty.isVarName token.text then
      if token.text ∈ bound then .error ⟨⟨.repeated token.text, token.pos⟩, token :: rest⟩
      else do
        let ⟨bound, rest, fewer⟩ ← readBound stop (bound ++ [token.text]) rest
        return ⟨bound, rest, Nat.lt_succ_of_lt fewer⟩
    else .error (refuse stop .typeVariable (token :: rest))

def read (stop : Position) (tokens : List Token) : Except Refusal (Read Scheme tokens.length) :=
  match tokens with
  | [] => .error (refuse stop .type [])
  | token :: rest =>
    if isQuantifier token then do
      let ⟨bound, rest, fewer⟩ ← readBound stop [] rest
      let ⟨t, rest, fewer'⟩ ← Ty.read stop rest
      return ⟨⟨bound, t⟩, rest, Nat.lt_succ_of_lt (Nat.lt_trans fewer' fewer)⟩
    else do
      let ⟨t, rest, fewer⟩ ← Ty.read stop (token :: rest)
      return ⟨.mono t, rest, fewer⟩

def parse (text : String) : Except SyntaxError Scheme := readAll .type read text

end HindleyMilner.Scheme
