import HindleyMilner.Text.Base64
import HindleyMilner.Text.Utf8
import HindleyMilner.Yaml.Node
import HindleyMilner.Yaml.Scalar.Kind

/-! Reading nodes as texts and records.

A record is read from a mapping by the names of its fields. Other keys count for nothing, but no key
may be given twice. The key `<<` merges other mappings into one, for names that it does not give
itself; of several merged mappings the first one counts. -/

set_option autoImplicit false

namespace HindleyMilner.Yaml

/-- The text of a scalar, with nothing for a scalar that stands for no value. A tag that does not fit
is refused. -/
def scalarText? (tag : String) (plain : Bool) (text : String) : Option (Option String) :=
  if tag = "" then some (if plain && isNullText text then none else some text)
  else if tag = Kind.tag .text then some (some text)
  else if tag = "!!binary" then
    (Text.decodeBase64 text.toList).map fun bytes => some (String.ofList (Text.decode bytes))
  else
    let kind := Kind.ofText (tag = Kind.tag .time) text
    if kind.fits tag then some (if kind = .null then none else some text) else none

def Node.isMerge : Node → Bool
  | .scalar tag plain text => text == "<<" && (tag == Kind.tag .merge || (tag == "" && plain))
  | _ => false

/-- Two keys are taken for the same by how they are written. -/
def Node.sameKey : Node → Node → Bool
  | .scalar _ _ first, .scalar _ _ second => first == second
  | .reference first _ _, .reference second _ _ => first == second
  | .sequence _, .sequence _ => true
  | .mapping _, .mapping _ => true
  | _, _ => false

def hasSameKeys : List (Node × Node) → Bool
  | [] => false
  | (key, _) :: rest => rest.any (fun (other, _) => key.sameKey other) || hasSameKeys rest

structure Effort where
  total : Nat := 0
  repeated : Nat := 0
  deriving DecidableEq, Repr

/-- More than 99 of 100 nodes are repeated, in a document that is not small. -/
def Effort.isExcessive (effort : Effort) : Bool :=
  100 < effort.repeated && 1000 < effort.total && 99 * effort.total < 100 * effort.repeated

structure Place where
  document : Document
  within : List Nat := []

abbrev Decode := StateT Effort Option

def Place.visit (place : Place) : Decode Unit := do
  modify fun effort =>
    { total := effort.total + 1
      repeated := if place.within.isEmpty then effort.repeated else effort.repeated + 1 }
  if (← get).isExcessive then failure

/-- The node itself or, for a reference, its target. A reference is not followed within itself. -/
def Place.resolve (place : Place) (node : Node) : Decode (Place × Node) := do
  place.visit
  match node with
  | .reference _ target number =>
    if number ∈ place.within then failure
    match place.document.anchored[target]? with
    | none => failure
    | some node =>
      let place := { place with within := number :: place.within }
      place.visit
      return (place, node)
  | node => return (place, node)

def Place.text (place : Place) (node : Node) : Decode (Option String) := do
  match (← place.resolve node).2 with
  | .scalar tag plain text =>
    match scalarText? tag plain text with
    | none => failure
    | some text => return text
  | _ => failure

structure Fields (α : Type) where
  names : List String
  set : Place → α → String → Node → Decode α

structure Progress (α : Type) where
  value : α
  /-- The names that merged mappings cannot give any more, while mappings are merged. -/
  given : Option (List String)
  /-- The fields that are set. -/
  done : List String := []
  /-- What is to be merged. -/
  merged : Option Node := none

def Progress.add {α : Type} (fields : Fields α) (place : Place) (state : Progress α) (entry : Node × Node) :
    Decode (Progress α) := do
  let (key, node) := entry
  if key.isMerge then return { state with merged := some node }
  else
    match ← place.text key with
    | none => return state
    | some name =>
      -- A name that was given before counts, and a merged mapping does not change it.
      if state.given.any (·.contains name) then return state
      else
        let state := { state with given := state.given.map (name :: ·) }
        if name ∉ fields.names then return state
        -- Keys that are written differently may still give one name.
        else if name ∈ state.done then failure
        else return { state with
          value := ← fields.set place state.value name node, done := name :: state.done }

def Place.names (place : Place) (entries : List (Node × Node)) : Decode (List String) := do
  return (← entries.mapM fun (key, _) => place.text key).filterMap id

mutual
def Fields.read {α : Type} (fields : Fields α) (place : Place) (given : Option (List String)) (value : α)
    (entries : List (Node × Node)) : Nat → Decode (α × Option (List String))
  | 0 => failure
  | fuel + 1 => do
    if hasSameKeys entries then failure
    let state ← entries.foldlM (Progress.add fields place) { value, given }
    -- What is merged comes last, since all names of the mapping itself come before it.
    match state.merged with
    | none => return (state.value, state.given)
    | some node =>
      let names ←
        match state.given with
        | some names => pure names
        | none => place.names entries
      let sources :=
        match node with
        | .sequence items => items
        | node => [node]
      let (value, names) ← fields.merge place state.value names sources fuel
      return (value, state.given.map fun _ => names)

/-- Read further mappings for names that are not given yet. -/
def Fields.merge {α : Type} (fields : Fields α) (place : Place) (value : α) (names : List String)
    (sources : List Node) : Nat → Decode (α × List String)
  | 0 => failure
  | fuel + 1 => do
    match sources with
    | [] => return (value, names)
    | source :: rest =>
      match ← place.resolve source with
      | (inner, .mapping entries) =>
        let (value, given) ← fields.read inner (some names) value entries fuel
        fields.merge place value (given.getD names) rest fuel
      | _ => failure
end

def Fields.readNode {α : Type} (fields : Fields α) (place : Place) (value : α) (node : Node) :
    Decode (Option α) := do
  match ← place.resolve node with
  | (place, .mapping entries) =>
    let fuel := (place.document.references + 1) * place.document.bound
    return some (← fields.read place none value entries fuel).1
  | (_, .scalar tag plain text) =>
    if scalarText? tag plain text == some none then return none else failure
  | _ => failure

def Place.items {α : Type} (place : Place) (read : Place → Node → Decode (Option α)) (node : Node) :
    Decode (List α) := do
  match ← place.resolve node with
  | (place, .sequence items) => return (← items.mapM (read place)).filterMap id
  | (_, .scalar tag plain text) =>
    if scalarText? tag plain text == some none then return [] else failure
  | _ => failure

end HindleyMilner.Yaml
