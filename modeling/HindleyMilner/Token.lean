import HindleyMilner.Position
import HindleyMilner.Text.Blank
import HindleyMilner.Text.Digit
import HindleyMilner.Text.Letter
import HindleyMilner.Text.Numeral

/-! Tokens of expressions and type signatures, and how a text is cut into them.

Blanks separate tokens and are dropped. A number or a word extends as far as it can, so two of them
need a blank between them only where they would run together. Every character belongs to some
token: one that starts no other token is a stray token of its own. -/

set_option autoImplicit false

namespace HindleyMilner

inductive Token.Kind where
  /-- A character that starts no token. -/
  | stray
  | endOfInput
  | word
  | number
  | kwTrue
  | kwFalse
  | kwLet
  | kwIn
  | lambda
  | equals
  | arrow
  | opening
  | closing
  | dot
  | quantifier
  deriving DecidableEq, Repr

def Token.Kind.render : Token.Kind → String
  | .stray => "ILLEGAL"
  | .endOfInput => "EOF"
  | .word => "IDENT"
  | .number => "INT"
  | .kwTrue => "true"
  | .kwFalse => "false"
  | .kwLet => "let"
  | .kwIn => "in"
  | .lambda => "\\"
  | .equals => "="
  | .arrow => "->"
  | .opening => "("
  | .closing => ")"
  | .dot => "."
  | .quantifier => "∀"

structure Token where
  kind : Token.Kind
  text : String
  pos : Position
  deriving DecidableEq, Repr

def Token.endAt (pos : Position) : Token := ⟨.endOfInput, "", pos⟩

def Token.describe (token : Token) : String :=
  if token.kind = .endOfInput then "end of input" else "'" ++ token.text ++ "'"

namespace Lexeme

def startsWord (c : Char) : Bool := c == '_' || Text.isLetter c

/-- A word goes on with letters, underscores, digits of any script and primes. -/
def continuesWord (c : Char) : Bool := startsWord c || Text.isDecimal c || c == '\''

def kindOfWord (word : List Char) : Token.Kind :=
  if word = ['t', 'r', 'u', 'e'] then .kwTrue
  else if word = ['f', 'a', 'l', 's', 'e'] then .kwFalse
  else if word = ['l', 'e', 't'] then .kwLet
  else if word = ['i', 'n'] then .kwIn
  else .word

/-- The token that starts with `first`: its kind, and its characters after `first`. -/
def leading (first : Char) (rest : List Char) : Token.Kind × List Char :=
  if first = '(' then (.opening, [])
  else if first = ')' then (.closing, [])
  else if first = '\\' || first = 'λ' then (.lambda, [])
  else if first = '=' then (.equals, [])
  else if first = '.' then (.dot, [])
  else if first = '∀' then (.quantifier, [])
  -- A dash alone starts no token.
  else if first = '-' && rest.head? = some '>' then (.arrow, ['>'])
  else if Text.isNumeral first then (.number, rest.takeWhile Text.isNumeral)
  else if startsWord first then
    let more := rest.takeWhile continuesWord
    (kindOfWord (first :: more), more)
  else (.stray, [])

end Lexeme

namespace Token

/-- The tokens of a text and the position at its end. The text starts at `pos`, and its first
`inside` characters belong to a token that has been listed already. -/
def scanFrom (pos : Position) (inside : Nat) : List Char → List Token × Position
  | [] => ([], pos)
  | c :: rest =>
    match inside with
    -- The position moves on through a token that is listed.
    | inside + 1 => scanFrom (pos.after c) inside rest
    | 0 =>
      if Text.isBlank c then scanFrom (pos.after c) 0 rest
      else
        let (kind, more) := Lexeme.leading c rest
        let (tokens, stop) := scanFrom (pos.after c) more.length rest
        (⟨kind, String.ofList (c :: more), pos⟩ :: tokens, stop)

def scan (text : List Char) : List Token × Position := scanFrom .start 0 text

end Token

end HindleyMilner
