import JanetEmbedding.Yaml.Tag
import JanetEmbedding.Yaml.Token

/-!
# The graph of a document

A document is read into a graph: its nodes are numbered in the order in which they begin, and the parts
of a collection are given by their numbers, their **places**. An alias is the place of the node that it
stands for. A node has its anchor as soon as it begins, so a collection can be a part of itself.

Tokens are read by recursive descent. Every call is given one less of a number that is large enough
from the start, since a call that reads no token is followed by one that does.

## Main definitions

* `Yaml.Graph`: the nodes of a document.
* `Yaml.Build`: reading nodes from tokens.
* `Yaml.readGraph`: the graph of a document.
-/

namespace JanetEmbedding.Yaml

/-- What a node is. -/
inductive Form where
  | scalar (text : Text)
  | sequence (items : List Nat)
  | mapping (entries : List (Nat × Nat))

/-- A node of a graph. -/
structure Vertex where
  tag : Tag
  form : Form

/-- The nodes of a document by their places, and the place of the one that holds all. -/
structure Graph where
  nodes : Array Vertex
  root : Nat

/-! ### Reading -/

/-- What reading nodes goes by. -/
structure Parse where
  tokens : List Token
  /-- the nodes so far; a collection that is not complete has no parts yet -/
  nodes : Array Vertex := #[]
  /-- the places of the anchors so far -/
  anchors : List (String × Nat) := []
  /-- what the tag handles stand for -/
  handles : List (String × String) := []
  /-- the number of collections around -/
  depth : Nat := 0

/-- A step of reading nodes. -/
abbrev Build (α : Type) := StateT Parse (Except DataError) α

/-- The number of collections that may stand inside of each other. -/
def maxDepth : Nat := 489

namespace Build

/-- The token that comes next. Where the document could not be read on, this is where it fails. -/
def peek : Build (Option Token) := do
  match (← get).tokens with
  | .fault e :: _ => throw e
  | t :: _ => return some t
  | [] => return none

/-- Goes on by one token. -/
def next : Build Unit := modify fun s => { s with tokens := s.tokens.tail }

/-- Goes on by one token if it is the given one. -/
def skip? (t : Token) : Build Bool := do
  if (← peek) = some t then
    next
    return true
  else return false

/-- Goes on by one token, which has to be the given one. -/
def expect (t : Token) : Build Unit := do
  unless ← skip? t do throw malformed

/-- Whether the next token is among some. -/
def at? (ts : List Token) : Build Bool := do
  match ← peek with
  | some t => return ts.contains t
  | none => return false

/-- Begins a node, under its anchor if it has one. No two nodes have the same anchor. -/
def begin (anchor : Option String) (tag : Tag) (form : Form) : Build Nat := do
  let s ← get
  let place := s.nodes.size
  if anchor.any fun name => (s.anchors.lookup name).isSome then throw malformed
  set { s with
    nodes := s.nodes.push ⟨tag, form⟩
    anchors := (anchor.map (·, place)).toList ++ s.anchors }
  return place

/-- Reads a collection whose parts are read by the given step. It must not be nested too deeply. -/
def collection (anchor : Option String) (tag : Tag) (parts : Build Form) : Build Nat := do
  let place ← begin anchor tag (.sequence [])
  if maxDepth ≤ (← get).depth then throw .tooDeep
  modify fun s => { s with depth := s.depth + 1 }
  let form ← parts
  modify fun s => { s with depth := s.depth - 1, nodes := s.nodes.setIfInBounds place ⟨tag, form⟩ }
  return place

/-- An empty scalar, which stands where a node is missing. -/
def missing : Build Nat := begin none .null (.scalar default)

/-- The tag that a tag is short for. -/
def resolve (t : TagMark) : Build Tag := do
  match t.handle with
  | none => return .ofName t.suffix
  | some h =>
    match (← get).handles.lookup h with
    | some meaning => return .ofName (meaning ++ t.suffix)
    | none => throw malformed

/-- Reads what stands before a node: an anchor and a tag, in either order. -/
def properties : Build (Option String × Option TagMark) := do
  match ← peek with
  | some (.anchor name) =>
    next
    match ← peek with
    | some (.tag t) =>
      next
      return (some name, some t)
    | _ => return (some name, none)
  | some (.tag t) =>
    next
    match ← peek with
    | some (.anchor name) =>
      next
      return (some name, some t)
    | _ => return (none, some t)
  | _ => return (none, none)

/-- The collections that a node may be, by where it stands. -/
inductive Room where
  /-- inside a flow collection -/
  | flow
  | block
  /-- in an entry of a block mapping, where a sequence need not be indented -/
  | entry
  deriving DecidableEq

mutual

/-- Reads a node: its place. -/
def node : Nat → Room → Build Nat
  | 0, _ => throw malformed
  | fuel + 1, room => do
    if let some (.alias name) ← peek then
      next
      match (← get).anchors.lookup name with
      | some place => return place
      | none => throw malformed
    let (anchor, mark) ← properties
    let tag? ← mark.mapM resolve
    -- a lone exclamation mark leaves the tag to the form of the node
    let own? := tag?.filter (· != .other "!")
    let sequence (items : Build (List Nat)) : Build Nat :=
      collection anchor (own?.getD .sequence) (return .sequence (← items))
    let mapping (entries : Build (List (Nat × Nat))) : Build Nat :=
      collection anchor (own?.getD .mapping) (return .mapping (← entries))
    match ← peek, room with
    | some .blockEntry, .entry => sequence (plainItems fuel)
    | some (.scalar plain text), _ =>
      next
      let byForm := (plain && tag?.isNone) || tag? == some (.other "!")
      begin anchor (own?.getD (if byForm then .ofPlain text else .text)) (.scalar text)
    | some .flowSequenceStart, _ => next; sequence (flowItems fuel true)
    | some .flowMappingStart, _ => next; mapping (flowEntries fuel true)
    | some .blockSequenceStart, .block | some .blockSequenceStart, .entry =>
      next; sequence (blockItems fuel)
    | some .blockMappingStart, .block | some .blockMappingStart, .entry =>
      next; mapping (blockEntries fuel)
    | _, _ =>
      if anchor.isNone && mark.isNone then throw malformed
      begin anchor (own?.getD .null) (.scalar default)

/-- Reads a node, unless one of some tokens stands in its place. -/
def nodeUnless : Nat → Room → List Token → Build Nat
  | 0, _, _ => throw malformed
  | fuel + 1, room, ts => do if ← at? ts then missing else node fuel room

/-- Reads the items of a block sequence and its end. -/
def blockItems : Nat → Build (List Nat)
  | 0 => throw malformed
  | fuel + 1 => do
    if ← skip? .blockEntry then
      let item ← nodeUnless fuel .block [.blockEntry, .blockEnd]
      return item :: (← blockItems fuel)
    expect .blockEnd
    return []

/-- Reads the items of a sequence that is not indented. -/
def plainItems : Nat → Build (List Nat)
  | 0 => throw malformed
  | fuel + 1 => do
    if ← skip? .blockEntry then
      let item ← nodeUnless fuel .block [.blockEntry, .key, .value, .blockEnd]
      return item :: (← plainItems fuel)
    return []

/-- Reads the entries of a block mapping and its end. -/
def blockEntries : Nat → Build (List (Nat × Nat))
  | 0 => throw malformed
  | fuel + 1 => do
    if ← skip? .key then
      let key ← nodeUnless fuel .entry [.key, .value, .blockEnd]
      let value ← if ← skip? .value then nodeUnless fuel .entry [.key, .value, .blockEnd] else missing
      return (key, value) :: (← blockEntries fuel)
    expect .blockEnd
    return []

/-- Reads the items of a flow sequence and its end. An item with a colon is a mapping of its own. -/
def flowItems : Nat → Bool → Build (List Nat)
  | 0, _ => throw malformed
  | fuel + 1, first => do
    if ← skip? .flowSequenceEnd then return []
    unless first do expect .flowEntry
    if ← skip? .key then
      let place ← collection none .mapping do
        let key ← nodeUnless fuel .flow [.value, .flowEntry, .flowSequenceEnd]
        let value ←
          if ← skip? .value then nodeUnless fuel .flow [.flowEntry, .flowSequenceEnd] else missing
        return .mapping [(key, value)]
      return place :: (← flowItems fuel false)
    if ← skip? .flowSequenceEnd then return []
    let item ← node fuel .flow
    return item :: (← flowItems fuel false)

/-- Reads the entries of a flow mapping and its end. A key alone has an empty value. -/
def flowEntries : Nat → Bool → Build (List (Nat × Nat))
  | 0, _ => throw malformed
  | fuel + 1, first => do
    if ← skip? .flowMappingEnd then return []
    unless first do expect .flowEntry
    if ← skip? .key then
      let key ← nodeUnless fuel .flow [.value, .flowEntry, .flowMappingEnd]
      let value ← if ← skip? .value then nodeUnless fuel .flow [.flowEntry, .flowMappingEnd] else missing
      return (key, value) :: (← flowEntries fuel false)
    if ← skip? .flowMappingEnd then return []
    let key ← node fuel .flow
    return (key, ← missing) :: (← flowEntries fuel false)

end

/-! ### Documents -/

/-- What the tag handles stand for by themselves. -/
def standardHandles : List (String × String) := [("!", "!"), ("!!", Tag.domain)]

/-- Reads the directives before a document. There may be one version, and it has to be the first
one; a handle may be given one meaning. -/
def directives : Nat → (versioned : Bool) → List (String × String) → Build (List (String × String))
  | 0, _, handles => return handles
  | fuel + 1, versioned, handles => do
    match ← peek with
    | some (.directive d) =>
      next
      match d with
      | .version major =>
        if versioned || major != 1 then throw malformed
        directives fuel true handles
      | .handle name meaning =>
        if (handles.lookup name).isSome then throw malformed
        directives fuel versioned (handles ++ [(name, meaning)])
      | .other => directives fuel versioned handles
    | _ => return handles

/-- Skips the marks of the end of a document. -/
def documentEnds : Nat → Build Unit
  | 0 => return
  | fuel + 1 => do if ← skip? .documentEnd then documentEnds fuel

/-- Whether the content of a marked document is missing. -/
def isContentMissing : Build Bool := do
  match ← peek with
  | none => return true
  | some (.directive _) | some .documentStart | some .documentEnd => return true
  | _ => return false

/-- Reads a document without a mark of its start. -/
def bareDocument (fuel : Nat) : Build Nat := do
  modify fun s => { s with handles := standardHandles }
  node fuel .block

/-- Reads a document with a mark of its start, after its directives. -/
def markedDocument (fuel : Nat) : Build Nat := do
  let own ← directives fuel false []
  modify fun s => { s with handles := own ++ standardHandles }
  expect .documentStart
  if ← isContentMissing then missing else node fuel .block

/-- Reads a document, if there is one, and makes sure that no other follows. -/
def document (fuel : Nat) : Build (Option Nat) := do
  let marked ← match ← peek with
    | some (.directive _) | some .documentStart => pure true
    | _ => pure false
  if (← peek).isNone then return none
  let n ← if marked then markedDocument fuel else bareDocument fuel
  documentEnds fuel
  if (← peek).isSome then throw malformed
  return some n

end Build

/-- The graph of a document, or `none` if it is empty. A character that may not stand in a document at
all is found before anything else. -/
def readGraph (s : String) : Except DataError (Option Graph) := do
  let cs := s.toList
  unless cs.all isPrintable do throw malformed
  let ts := tokens cs
  let (root?, parse) ← (Build.document (4 * ts.length + 8)).run { tokens := ts }
  return root?.map fun root => ⟨parse.nodes, root⟩

end JanetEmbedding.Yaml
