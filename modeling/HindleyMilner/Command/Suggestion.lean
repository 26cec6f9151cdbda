import HindleyMilner.Text.Lower

/-! Names that a mistyped command may have been meant for.

A command is suggested if the text is the start of its name, or if at most two edits turn the one
into the other; case does not count. An edit inserts, removes or replaces one byte. -/

set_option autoImplicit false

namespace HindleyMilner.Command

def lowerBytes (text : String) : List UInt8 :=
  (String.ofList (text.toList.map Text.toLower)).toUTF8.toList

/-- At most `budget` edits turn one list into the other. Equal heads need no edit, since keeping
both is never worse than another choice. -/
def withinEdits (budget : Nat) (first second : List UInt8) : Bool :=
  match first, second with
  | [], second => second.length ≤ budget
  | first, [] => first.length ≤ budget
  | a :: first, b :: second =>
    if a = b then withinEdits budget first second
    else
      match budget with
      | 0 => false
      | budget + 1 =>
        withinEdits budget first second || withinEdits budget first (b :: second)
          || withinEdits budget (a :: first) second
termination_by first.length + second.length

def suggested : List String := ["repl", "infer", "completion"]

def suggestions (text : String) : List String :=
  let typed := lowerBytes text
  suggested.filter fun name =>
    withinEdits 2 typed (lowerBytes name) || typed.isPrefixOf (lowerBytes name)

def hint (text : String) : String :=
  match suggestions text with
  | [] => ""
  | names => "\n\nDid you mean this?\n" ++ String.join (names.map fun name => "\t" ++ name ++ "\n")

end HindleyMilner.Command
