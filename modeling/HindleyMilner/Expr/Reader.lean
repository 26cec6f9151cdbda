import HindleyMilner.Expr
import HindleyMilner.Reader

/-! Reading expressions.

An expression is a number, `true`, `false`, a name, or a group in parentheses: a function
`(\x -> e)`, a local definition `(let x = e in e)`, or a call `(e e ...)` with one argument or
more. A node that a group makes has the position of the opening parenthesis. -/

set_option autoImplicit false

namespace HindleyMilner.Expr

def greatestNumber : Nat := 0x7FFFFFFFFFFFFFFF

open Reader

mutual
def read (stop : Position) (tokens : List Token) : Except Refusal (Read Expr tokens.length) :=
  match tokens with
  | [] => .error (refuse stop .expression [])
  | token :: rest =>
    match token.kind with
    | .number =>
      if Text.numeralValue token.text.toList ≤ greatestNumber then
        .ok ⟨.lit .int token.text ⟨token.pos, .absent⟩, rest, by simp⟩
      else .error ⟨⟨.outOfRange token.text, token.pos⟩, token :: rest⟩
    | .kwTrue | .kwFalse => .ok ⟨.lit .bool token.text ⟨token.pos, .absent⟩, rest, by simp⟩
    | .word => .ok ⟨.var token.text ⟨token.pos, .absent⟩, rest, by simp⟩
    | .opening => do
      let ⟨e, rest, fewer⟩ ← readGroup stop token.pos rest
      let ⟨_, rest, fewer'⟩ ← expectToken stop .closing rest
      return ⟨e, rest, by simp only [List.length_cons]; omega⟩
    | _ => .error (refuse stop .expression (token :: rest))
termination_by (tokens.length, 0)

def readGroup (stop pos : Position) (tokens : List Token) :
    Except Refusal (Read Expr tokens.length) :=
  match (next stop tokens).kind with
  | .kwLet => do
    let ⟨_, tokens, fewer₁⟩ ← expectToken stop .kwLet tokens
    let ⟨name, tokens, fewer₂⟩ ← expect stop .word .variableName tokens
    let ⟨_, tokens, fewer₃⟩ ← expectToken stop .equals tokens
    let ⟨value, tokens, fewer₄⟩ ← read stop tokens
    let ⟨_, tokens, fewer₅⟩ ← expectToken stop .kwIn tokens
    let ⟨body, tokens, fewer₆⟩ ← read stop tokens
    return ⟨.letIn name.text value body pos, tokens, by omega⟩
  | .lambda => do
    let ⟨_, tokens, fewer₁⟩ ← expectToken stop .lambda tokens
    let ⟨param, tokens, fewer₂⟩ ← expect stop .word .parameterName tokens
    let ⟨_, tokens, fewer₃⟩ ← expectToken stop .arrow tokens
    let ⟨body, tokens, fewer₄⟩ ← read stop tokens
    return ⟨.func param.text body ⟨pos, .absent⟩, tokens, by omega⟩
  | _ => do
    let ⟨fn, tokens, fewer₁⟩ ← read stop tokens
    let ⟨first, tokens, fewer₂⟩ ← read stop tokens
    let ⟨others, tokens, fewer₃⟩ ← readArgs stop tokens
    return ⟨.calls fn (first :: others) ⟨pos, .absent⟩, tokens, by omega⟩
termination_by (tokens.length, 2)

/-- Read arguments up to a closing parenthesis or the end. -/
def readArgs (stop : Position) (tokens : List Token) :
    Except Refusal (Read (List Expr) (tokens.length + 1)) :=
  match tokens with
  | [] => .ok ⟨[], [], by simp⟩
  | token :: rest =>
    if token.kind = .closing then .ok ⟨[], token :: rest, by simp⟩
    else do
      let ⟨arg, tokens, fewer⟩ ← read stop (token :: rest)
      let ⟨others, tokens, fewer'⟩ ← readArgs stop tokens
      return ⟨arg :: others, tokens, by omega⟩
termination_by (tokens.length, 1)
end

def parse (text : String) : Except SyntaxError Expr := readAll .expression read text

end HindleyMilner.Expr
