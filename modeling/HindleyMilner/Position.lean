/-! Places in a source text. -/

set_option autoImplicit false

namespace HindleyMilner

/-- A line and a column, both counted from one. A position whose line is not positive is unknown:
it belongs to a node that was built and not read. -/
structure Position where
  line : Int := 0
  col : Int := 0
  deriving DecidableEq, Repr, Inhabited

def Position.start : Position := ⟨1, 1⟩

def Position.isKnown (pos : Position) : Bool := decide (0 < pos.line)

def Position.render (pos : Position) : String :=
  if pos.isKnown then toString pos.line ++ ":" ++ toString pos.col else "-"

def Position.clause (pos : Position) : String :=
  if pos.isKnown then " at " ++ pos.render else ""

def Position.after (pos : Position) (c : Char) : Position :=
  if c = '\n' then ⟨pos.line + 1, 1⟩ else ⟨pos.line, pos.col + 1⟩

end HindleyMilner
