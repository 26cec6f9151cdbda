import HindleyMilner.Yaml.Tokens

/-! Nodes of a YAML document.

A node is a scalar, a sequence, a mapping, or a reference to a node with an anchor, which may be one
that it is part of. A value that is not written is an empty plain scalar. -/

set_option autoImplicit false

namespace HindleyMilner.Yaml

inductive Node where
  /-- A text; the tag is empty if none is given. -/
  | scalar (tag : String) (plain : Bool) (text : String)
  | sequence (items : List Node)
  | mapping (entries : List (Node × Node))
  /-- A reference, with the place of its target among the anchored nodes and a number of its own. -/
  | reference (name : String) (target number : Nat)
  deriving Repr, Inhabited

def Node.missing : Node := .scalar "" true ""

/-- The first document of a stream: its node, unless the stream is empty, and the nodes that have
anchors. -/
structure Document where
  root : Option Node
  anchored : Array Node
  /-- How many references it has. -/
  references : Nat
  /-- More than its nodes are nested. -/
  bound : Nat
  deriving Repr, Inhabited

structure Draft where
  tokens : Tokens
  /-- What the handles of tags stand for. -/
  handles : List (String × String) := []
  /-- For the names of anchors, the places of their nodes; the latest is first. -/
  anchors : List (String × Nat) := []
  anchored : Array Node := #[]
  references : Nat := 0

abbrev Compose := StateT Draft Option

namespace Compose

def feed {α : Type} (action : Feed α) : Compose α := do
  let draft ← get
  match action.run draft.tokens with
  | none => failure
  | some (value, tokens) =>
    set { draft with tokens }
    return value

def peek : Compose Token := feed Feed.peek

def take : Compose Unit := feed Feed.take

def takePeek : Compose Token := do
  take
  peek

def standardHandles : List (String × String) := [("!", "!"), ("!!", "tag:yaml.org,2002:")]

/-- Read directives. The version is given at most once and is 1.1, and no handle is given twice. -/
def directives (versioned : Bool) : Nat → Compose Unit
  | 0 => failure
  | fuel + 1 => do
    match ← peek with
    | .version major minor =>
      if versioned || major != 1 || minor != 1 then failure
      take
      directives true fuel
    | .handle name start =>
      let draft ← get
      if (draft.handles.lookup name).isSome then failure
      set { draft with handles := draft.handles ++ [(name, start)] }
      take
      directives versioned fuel
    | _ =>
      -- A handle that a directive gives comes before the standard one.
      modify fun draft => { draft with handles := draft.handles ++ standardHandles }

/-- The tag that a handle and what follows make, in its short form if it is one of the language. -/
def resolveTag (handle rest : String) : Compose String := do
  let tag ←
    if handle == "" then pure rest
    else
      match (← get).handles.lookup handle with
      | none => failure
      | some start => pure (start ++ rest)
  let common := "tag:yaml.org,2002:".toList
  if common.isPrefixOf tag.toList then
    return String.ofList ('!' :: '!' :: tag.toList.drop common.length)
  else return tag

structure Properties where
  anchor : Option String := none
  /-- The tag; a lone exclamation mark is one. -/
  tag : Option String := none

def properties : Compose Properties := do
  match ← peek with
  | .anchor name =>
    match ← takePeek with
    | .tag handle rest =>
      discard takePeek
      return { anchor := some name, tag := some (← resolveTag handle rest) }
    | _ => return { anchor := some name }
  | .tag handle rest =>
    match ← takePeek with
    | .anchor name =>
      discard takePeek
      return { anchor := some name, tag := some (← resolveTag handle rest) }
    | _ => return { tag := some (← resolveTag handle rest) }
  | _ => return {}

/-- A lone exclamation mark leaves a scalar as it is. -/
def Properties.scalarTag (properties : Properties) : String :=
  match properties.tag with
  | none | some "!" => ""
  | some tag => tag

/-- Read a node and keep it under its anchor, which may be referred to from within. -/
def anchored (name : Option String) (node : Compose Node) : Compose Node := do
  match name with
  | none => node
  | some name =>
    let place := (← get).anchored.size
    modify fun draft =>
      { draft with
        anchors := (name, place) :: draft.anchors
        anchored := draft.anchored.push .missing }
    let node ← node
    modify fun draft => { draft with anchored := draft.anchored.setIfInBounds place node }
    return node

def reference (name : String) : Compose Node := do
  let draft ← get
  match draft.anchors.lookup name with
  | none => failure
  | some target =>
    set { draft with references := draft.references + 1 }
    take
    return .reference name target draft.references

def flowStep (first : Bool) (last : Token) : Compose Token := do
  let token ← peek
  -- Parts after the first stand behind a comma.
  if first || token == last then return token
  else if token == .flowEntry then takePeek
  else failure

mutual
/-- Read a node. Block collections are read only where `block` holds, and only where `indentless`
holds may the entries of a sequence stand at the column of the mapping around it. -/
def node (block indentless : Bool) : Nat → Compose Node
  | 0 => failure
  | fuel + 1 => do
    match ← peek with
    | .reference name => reference name
    | _ =>
      let properties ← properties
      let keep := anchored properties.anchor
      match ← peek with
      | .scalar plain text =>
        take
        keep (return .scalar properties.scalarTag plain text)
      | .flowSequence =>
        take
        keep (return .sequence (← flowItems true fuel))
      | .flowMapping =>
        take
        keep (return .mapping (← flowEntries true fuel))
      | token =>
        if indentless && token == .blockEntry then
          keep (return .sequence (← indentlessItems fuel))
        else if block && token == .blockSequence then
          take
          keep (return .sequence (← blockItems fuel))
        else if block && token == .blockMapping then
          take
          keep (return .mapping (← blockEntries fuel))
        -- Properties without a node are those of an empty scalar.
        else if properties.anchor.isSome || properties.tag.isSome then
          keep (return .scalar properties.scalarTag true "")
        else failure

def blockItems : Nat → Compose (List Node)
  | 0 => failure
  | fuel + 1 => do
    match ← peek with
    | .blockEntry =>
      let token ← takePeek
      let item ←
        if token == .blockEntry || token == .blockEnd then pure Node.missing
        else node true false fuel
      return item :: (← blockItems fuel)
    | .blockEnd =>
      take
      return []
    | _ => failure

def indentlessItems : Nat → Compose (List Node)
  | 0 => failure
  | fuel + 1 => do
    match ← peek with
    | .blockEntry =>
      let token ← takePeek
      let item ←
        if token == .blockEntry || token == .key || token == .value || token == .blockEnd then
          pure Node.missing
        else node true false fuel
      return item :: (← indentlessItems fuel)
    | _ => return []

def blockEntries : Nat → Compose (List (Node × Node))
  | 0 => failure
  | fuel + 1 => do
    match ← peek with
    | .key =>
      let key ← blockPart (← takePeek) fuel
      let value ←
        match ← peek with
        | .value => blockPart (← takePeek) fuel
        | _ => pure Node.missing
      return (key, value) :: (← blockEntries fuel)
    | .blockEnd =>
      take
      return []
    | _ => failure

def blockPart (token : Token) : Nat → Compose Node
  | 0 => failure
  | fuel + 1 =>
    if token == .key || token == .value || token == .blockEnd then return .missing
    else node true true fuel

/-- The items of a flow sequence up to its end. A key makes a mapping of one entry. -/
def flowItems (first : Bool) : Nat → Compose (List Node)
  | 0 => failure
  | fuel + 1 => do
    match ← flowStep first .flowSequenceEnd with
    | .flowSequenceEnd =>
      take
      return []
    | .key =>
      take
      let key ← pairKey fuel
      let value ← flowValue .flowSequenceEnd fuel
      discard peek
      return .mapping [(key, value)] :: (← flowItems false fuel)
    | _ =>
      let item ← node false false fuel
      return item :: (← flowItems false fuel)

/-- The key of a mapping of one entry. Where it is missing, the token in its place is passed over. -/
def pairKey : Nat → Compose Node
  | 0 => failure
  | fuel + 1 => do
    let token ← peek
    if token == .value || token == .flowEntry || token == .flowSequenceEnd then
      take
      return .missing
    else node false false fuel

def flowValue (last : Token) : Nat → Compose Node
  | 0 => failure
  | fuel + 1 => do
    match ← peek with
    | .value =>
      let token ← takePeek
      if token == .flowEntry || token == last then return .missing else node false false fuel
    | _ => return .missing

def flowEntries (first : Bool) : Nat → Compose (List (Node × Node))
  | 0 => failure
  | fuel + 1 => do
    match ← flowStep first .flowMappingEnd with
    | .flowMappingEnd =>
      take
      return []
    | .key =>
      let token ← takePeek
      let key ←
        if token == .value || token == .flowEntry || token == .flowMappingEnd then pure Node.missing
        else node false false fuel
      let value ← flowValue .flowMappingEnd fuel
      return (key, value) :: (← flowEntries false fuel)
    | _ =>
      let key ← node false false fuel
      discard peek
      return (key, Node.missing) :: (← flowEntries false fuel)
end

def endsDocument : Token → Bool
  | .version _ _ | .handle _ _ | .documentStart | .documentEnd | .streamEnd => true
  | _ => false

def document : Compose (Option Node) := do
  let bound := (← get).tokens.cursor.bound
  let fuel := 8 * bound
  discard peek
  match ← takePeek with
  | .streamEnd => return none
  | first =>
    directives false bound
    let root ←
      -- After directives or a start marker the node may be missing.
      if endsDocument first && first != .documentEnd then
        if (← peek) != .documentStart then failure
        if endsDocument (← takePeek) then pure Node.missing else node true false fuel
      else node true false fuel
    if (← peek) == .documentEnd then take
    return some root

end Compose

/-- The first document of a stream, or nothing if it is malformed. What follows it is looked at only
as far as needed to see its end. -/
def Document.parse (bytes : List UInt8) : Option Document := do
  let (root, draft) ← Compose.document.run { tokens := .ofBytes bytes }
  return ⟨root, draft.anchored, draft.references, draft.tokens.cursor.bound⟩

end HindleyMilner.Yaml
