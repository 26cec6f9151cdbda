/-! Lines of a byte sequence.

A newline ends a line and a carriage return before it, or before the end, is dropped. What follows
the last newline is a line unless it is empty. A line of `limit` bytes or more is not delivered, and
neither is anything after it. -/

set_option autoImplicit false

namespace HindleyMilner.Text

def lineLimit : Nat := 65536

def dropReturn (line : List UInt8) : List UInt8 :=
  if line.getLast? = some 0x0D then line.dropLast else line

structure Lines where
  lines : List (List UInt8)
  tooLong : Bool

/-- Cut into lines; `reversed` holds the bytes of the current line, the latest first, and `count`
their number. -/
def linesFrom (limit : Nat) (reversed : List UInt8) (count : Nat) : List UInt8 → Lines
  | [] => if count = 0 then ⟨[], false⟩ else ⟨[dropReturn reversed.reverse], false⟩
  | byte :: rest =>
    if byte = 0x0A then
      let ⟨lines, tooLong⟩ := linesFrom limit [] 0 rest
      ⟨dropReturn reversed.reverse :: lines, tooLong⟩
    else if limit ≤ count + 1 then ⟨[], true⟩
    else linesFrom limit (byte :: reversed) (count + 1) rest

def lines (bytes : List UInt8) : Lines := linesFrom lineLimit [] 0 bytes

end HindleyMilner.Text
