import HindleyMilner.Expr
import HindleyMilner.Text.Quoted

/-! An outline of an expression: a line for each field of each node, nested by indentation.

The values of fields on consecutive lines stand in one column. A child takes several lines, so the
field that holds it is the last of its run. Nodes that are nested too deep are left out. -/

set_option autoImplicit false

namespace HindleyMilner.Expr

structure Field where
  label : String
  first : String
  others : List String

def firstRun : List Field → List Field × List Field
  | [] => ([], [])
  | field :: rest =>
    if field.others.isEmpty then
      let (run, after) := firstRun rest
      (field :: run, after)
    -- A field of several lines ends its run.
    else ([field], rest)

/-- How many fields in a row make up the run that a field belongs to; each field is listed with the
width of the labels of its run. -/
def alignFrom : Nat → List Field → List (Field × Nat)
  | 0, _ => []
  | fuel + 1, fields =>
    match firstRun fields with
    | ([], _) => []
    | (run, after) =>
      let width := run.foldl (fun width field => max width field.label.length) 0
      run.map (·, width) ++ alignFrom fuel after

def indent (line : String) : String := "    " ++ line

def fieldLines (field : Field) (width : Nat) : List String :=
  let padding := String.ofList (List.replicate (width - field.label.length) ' ')
  let head := field.label ++ ": " ++ padding ++ field.first
  match field.others.getLast? with
  | none => [indent (head ++ ",")]
  | some last =>
    indent head :: (field.others.dropLast.map indent ++ [indent (last ++ ",")])

def nodeLines (kind : String) (fields : List Field) : List String :=
  ("&ast." ++ kind ++ "\x7b")
    :: ((alignFrom fields.length fields).flatMap (fun (field, width) => fieldLines field width) ++ ["\x7d"])

def textField (label value : String) : Field := ⟨label, value, []⟩

def childField (label : String) : List String → Field
  | [] => textField label "nil"
  | first :: others => ⟨label, first, others⟩

def depthLimit : Nat := 10

def leftOut : String := "&!%v(DEPTH EXCEEDED)"

def posField (pos : Position) : Field :=
  textField "At" ("ast.Pos\x7bLine:" ++ toString pos.line ++ ", Col:" ++ toString pos.col ++ "\x7d")

/-- The place of a node that was read, which has no type yet. -/
def markFields (mark : Mark) : List Field := [posField mark.pos, textField "inferred" "nil"]

/-- The lines of a node within which `depth` nodes may enclose each other. -/
def outlineLines (depth : Nat) (expr : Expr) : List String :=
  match depth, expr with
  | _, .absent => []
  | 0, _ => [leftOut]
  | _ + 1, .lit kind text mark =>
    nodeLines "Literal"
      (textField "Kind" (toString kind.code) :: textField "Syntax" (Text.quote text) :: markFields mark)
  | _ + 1, .var name mark => nodeLines "Var" (textField "Name" (Text.quote name) :: markFields mark)
  | depth + 1, .call fn arg mark =>
    nodeLines "Call"
      (childField "Func" (fn.outlineLines depth) :: childField "Arg" (arg.outlineLines depth)
        :: markFields mark)
  | depth + 1, .func param body mark =>
    nodeLines "Func"
      (textField "ArgName" (Text.quote param) :: childField "Body" (body.outlineLines depth)
        :: markFields mark)
  | depth + 1, .letIn name value body pos =>
    nodeLines "Let"
      [textField "Var" (Text.quote name), childField "Value" (value.outlineLines depth),
        childField "Body" (body.outlineLines depth), posField pos]

def outline (expr : Expr) : String :=
  String.join ((expr.outlineLines depthLimit).map (· ++ "\n"))

end HindleyMilner.Expr
