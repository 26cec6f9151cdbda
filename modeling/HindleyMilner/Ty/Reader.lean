import HindleyMilner.Reader
import HindleyMilner.Text.Upper

/-! Reading types.

A name with an upper-case first letter is a constructor, and any other name a variable. A
constructor takes the names and groups after it as its arguments; `->` binds weaker than that and
associates to the right. -/

set_option autoImplicit false

namespace HindleyMilner.Ty

def isVarName (name : String) : Bool :=
  match name.toList with
  | [] => true
  | first :: _ => !Text.isUpper first

def ofName (name : String) : Ty := if isVarName name then .var name else .const name

open Reader

mutual
def read (stop : Position) (tokens : List Token) : Except Refusal (Read Ty tokens.length) := do
  let ⟨domain, rest, fewer⟩ ← readApplied stop tokens
  match rest, fewer with
  | [], fewer => return ⟨domain, [], fewer⟩
  | token :: rest, fewer =>
    if token.kind = .arrow then
      let ⟨codomain, rest, fewer'⟩ ← read stop rest
      return ⟨.arrow domain codomain, rest, by simp only [List.length_cons] at fewer; omega⟩
    else return ⟨domain, token :: rest, fewer⟩
termination_by (tokens.length, 2)
decreasing_by
  · exact Prod.Lex.right _ (by decide)
  · exact Prod.Lex.left _ _ (by simp only [List.length_cons] at fewer; omega)

def readApplied (stop : Position) (tokens : List Token) :
    Except Refusal (Read Ty tokens.length) :=
  match tokens with
  | [] => .error (refuse stop .type [])
  | token :: rest =>
    if token.kind = .word ∧ isVarName token.text = false then do
      let ⟨args, rest, fewer⟩ ← readAtoms stop rest
      return ⟨.app token.text args, rest, by simpa using fewer⟩
    else readAtom stop (token :: rest)
termination_by (tokens.length, 1)

/-- Read arguments of a constructor as long as names and groups follow. -/
def readAtoms (stop : Position) (tokens : List Token) :
    Except Refusal (Read (List Ty) (tokens.length + 1)) :=
  match tokens with
  | [] => .ok ⟨[], [], Nat.lt_succ_self _⟩
  | token :: rest =>
    if token.kind = .word ∨ token.kind = .opening then do
      let ⟨arg, tokens, fewer⟩ ← readAtom stop (token :: rest)
      let ⟨others, tokens, fewer'⟩ ← readAtoms stop tokens
      return ⟨arg :: others, tokens, Nat.lt_trans fewer' (Nat.succ_lt_succ fewer)⟩
    else .ok ⟨[], token :: rest, Nat.lt_succ_self _⟩
termination_by (tokens.length, 1)

def readAtom (stop : Position) (tokens : List Token) : Except Refusal (Read Ty tokens.length) :=
  match tokens with
  | [] => .error (refuse stop .type [])
  | token :: rest =>
    match token.kind with
    | .word => .ok ⟨ofName token.text, rest, by simp⟩
    | .opening => do
      let ⟨t, rest, fewer⟩ ← read stop rest
      let ⟨_, rest, fewer'⟩ ← expectToken stop .closing rest
      return ⟨t, rest, by simp only [List.length_cons]; omega⟩
    | _ => .error (refuse stop .type (token :: rest))
termination_by (tokens.length, 0)
end

def parse (text : String) : Except SyntaxError Ty := readAll .type read text

end HindleyMilner.Ty
