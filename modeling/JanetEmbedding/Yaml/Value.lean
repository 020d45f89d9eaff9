import JanetEmbedding.Yaml.Graph
import JanetEmbedding.Yaml.Leaf

/-!
# The values of the nodes of a document

Every node of a graph stands for a plain value, by its tag, and a node that occurs at several places stands
for the same one. Values are made in order: a collection comes into being empty, and is **filled** only
when every collection that came before it is. So a key that is a list is refused before anything in the
list is looked at, and a collection can be a part of itself.

A mapping may **merge** others in: their entries come before its own, and of several merged ones those of
the last come first. From then on it is a mapping with all these entries, wherever else it occurs.

## Main definitions

* `Yaml.Value`: the value of a node, its parts given by their places.
* `Yaml.Making`: what making values goes by.
* `Yaml.Values`: the values of a document.
* `Yaml.Values.datum`: the value at a place, with all its parts.
* `Yaml.read`: the values of a document.
-/

namespace JanetEmbedding.Yaml

/-- The value of a node. The parts of a collection are given by their places, apart from keys, which are
never collections. -/
inductive Value where
  | leaf (x : Datum)
  | list (items : List Nat)
  /-- a list of pairs -/
  | pairs (items : List (Nat × Nat))
  | dict (entries : List (Datum × Nat))
  | set (members : List Datum)

instance : Inhabited Value := ⟨.leaf .null⟩

/-- What making values goes by. -/
structure Making where
  /-- the nodes; merging changes their entries -/
  nodes : Array Vertex
  /-- the values so far, by their places -/
  values : Array (Option Value)
  /-- how many entries there are, of which some are to be merged in -/
  entryCount : Nat
  /-- the collections that have come into being and are not filled, the last one first -/
  empty : List Nat := []

/-- A step of making values. -/
abbrev Make (α : Type) := StateT Making (Except DataError) α

namespace Make

/-- The node at a place. -/
def node (place : Nat) : Make Vertex := do
  return (← get).nodes[place]?.getD ⟨.null, .scalar default⟩

/-- Gives a node another tag. -/
def setTag (place : Nat) (tag : Tag) : Make Unit :=
  modify fun s => { s with nodes := s.nodes.modify place fun n => { n with tag } }

/-- Gives a node another form. -/
def setForm (place : Nat) (form : Form) : Make Unit :=
  modify fun s => { s with nodes := s.nodes.modify place fun n => { n with form } }

/-- Notes the value of a node. -/
def setValue (place : Nat) (v : Value) : Make Unit :=
  modify fun s => { s with values := s.values.setIfInBounds place (some v) }

/-! ### Merging -/

/-- The entries of a node that has to be a mapping. -/
def entries (place : Nat) : Make (List (Nat × Nat)) := do
  match (← node place).form with
  | .mapping es => return es
  | _ => throw malformed

/-- The position of the first entry to be merged in, with what it holds. -/
def findMerge? : List (Nat × Nat) → Make (Option (Nat × Nat))
  | [] => return none
  | (k, v) :: es => do
    if (← node k).tag = .merge then return some (0, v)
    return (← findMerge? es).map fun (i, v) => (i + 1, v)

/-- Turns the value keys among the keys of some entries into texts. -/
def plainKeys (es : List (Nat × Nat)) : Make Unit :=
  es.forM fun (k, _) => do if (← node k).tag = .value then setTag k .text

/-- Merges into a mapping what it merges in, behind the entries that have been merged so far. Every call
is made when one entry to be merged in has been taken away, so the number of these bounds the calls. -/
def merge : Nat → (place : Nat) → (merged : List (Nat × Nat)) → Make Unit
  | 0, _, _ => throw malformed
  | fuel + 1, place, merged => do
    let es ← entries place
    match ← findMerge? es with
    | none =>
      plainKeys es
      setForm place (.mapping (merged ++ es))
    | some (i, source) =>
      setForm place (.mapping (es.eraseIdx i))
      match (← node source).form with
      | .mapping _ =>
        merge fuel source []
        merge fuel place (merged ++ (← entries source))
      | .sequence sources =>
        let parts ← sources.mapM fun source => do
          discard (entries source)
          merge fuel source []
          entries source
        merge fuel place (merged ++ parts.reverse.flatten)
      | .scalar _ => throw malformed

/-- Merges into a mapping what it merges in. -/
def mergeAll (place : Nat) : Make Unit := do merge ((← get).entryCount + 1) place []

/-! ### Values -/

/-- The text of a node that has to be a scalar. A mapping stands for the value of its first entry under
the value key. A chain of these that comes back to itself never ends. -/
def scalarText : Nat → (place : Nat) → Make Text
  | 0, _ => throw .tooDeep
  | fuel + 1, place => do
    match (← node place).form with
    | .scalar t => return t
    | .sequence _ => throw malformed
    | .mapping es =>
      match ← es.findM? fun (k, _) => return (← node k).tag = .value with
      | some (_, v) => scalarText fuel v
      | none => throw malformed

/-- The value of a node whose tag is not that of a collection. -/
def leaf (place : Nat) : Make Datum := do
  let n ← node place
  unless n.tag.isScalar do throw malformed
  let t ← scalarText ((← get).nodes.size + 1) place
  match n.tag, n.form with
  | .timestamp, .mapping _ => throw .mappingTimestamp
  | tag, _ => leafOf place tag t

/-- The collection that a tag stands for, when it is empty. -/
def emptyOf? : Tag → Option Value
  | .sequence => some (.list [])
  | .mapping => some (.dict [])
  | .set => some (.set [])
  | .orderedMap => some (.pairs [])
  | .pairs => some (.pairs [])
  | _ => none

/-- Makes the value of a node, unless it has been made. A collection is empty at first. -/
def make (place : Nat) : Make Value := do
  match ((← get).values[place]?).join with
  | some v => return v
  | none =>
    match emptyOf? (← node place).tag with
    | some v =>
      setValue place v
      modify fun s => { s with empty := place :: s.empty }
      return v
    | none =>
      let v := .leaf (← leaf place)
      setValue place v
      return v

/-- Makes a key, which must not be a collection. -/
def makeKey (place : Nat) : Make Datum := do
  match ← make place with
  | .leaf x => return x
  | _ => throw malformed

/-- The entries of a mapping. Each value is made after its key. -/
def makeEntries (place : Nat) : Make (List (Datum × Nat)) := do
  discard (entries place)
  mergeAll place
  (← entries place).foldlM (fun made (k, v) => do
    let key ← makeKey k
    discard (make v)
    return Entries.insert made key v) []

/-- The pairs of a sequence of mappings with one entry each. -/
def makePairs (place : Nat) : Make (List (Nat × Nat)) := do
  match (← node place).form with
  | .sequence items =>
    items.mapM fun item => do
      match ← entries item with
      | [(k, v)] =>
        discard (make k)
        discard (make v)
        return (k, v)
      | _ => throw malformed
  | _ => throw malformed

/-- Fills a collection. -/
def fill (place : Nat) : Make Unit := do
  let n ← node place
  match n.tag with
  | .sequence =>
    match n.form with
    | .sequence items =>
      items.forM fun item => discard (make item)
      setValue place (.list items)
    | _ => throw malformed
  | .mapping => setValue place (.dict (← makeEntries place))
  | .set => setValue place (.set ((← makeEntries place).map (·.1)))
  | _ => setValue place (.pairs (← makePairs place))

/-- Fills the collections that are empty, and those that come into being by that. No collection is filled
twice, so the number of nodes bounds the rounds. -/
def fillAll : Nat → Make Unit
  | 0 => return
  | rounds + 1 => do
    let places := (← get).empty.reverse
    unless places.isEmpty do
      modify fun s => { s with empty := [] }
      places.forM fill
      fillAll rounds

end Make

/-! ### The values of a document -/

/-- The values of a document by their places, and the place of the one that holds all. -/
structure Values where
  values : Array Value
  root : Nat

namespace Values

/-- The values of the nodes of a graph. -/
def ofGraph (g : Graph) : Except DataError Values := do
  let size := g.nodes.size
  let entryCount := g.nodes.foldl (fun n v => match v.form with
    | .mapping es => n + es.length
    | _ => n) 0
  let start : Making := { nodes := g.nodes, values := Array.replicate size none, entryCount }
  let (_, s) ← (do discard (Make.make g.root); Make.fillAll (size + 1) : Make Unit).run start
  return ⟨s.values.map fun v? => v?.getD default, g.root⟩

/-- The values that are complete and do not hold themselves, by their places. -/
abbrev Known := Array (Option Datum)

/-- The value at a place inside of the collections at some other places, and whether none of these is met
in it. A value that is known is not made again. -/
def datumIn (vs : Values) : Nat → (around : List Nat) → (place : Nat) → StateM Known (Datum × Bool)
  | 0, _, _ => return (.null, true)
  | fuel + 1, around, place => do
    if let some x := ((← get)[place]?).join then return (x, true)
    let part := vs.datumIn fuel (place :: around)
    let finish (x : Datum) (closed : Bool) : StateM Known (Datum × Bool) := do
      if closed then modify fun known => known.setIfInBounds place (some x)
      return (x, closed)
    match vs.values[place]?.getD default with
    | .leaf x => return (x, true)
    | .set members => return (.set members place, true)
    | .list items =>
      if around.contains place then return (.itself .list, false)
      let parts ← items.mapM part
      finish (.list (parts.map (·.1))) (parts.all (·.2))
    | .pairs items =>
      if around.contains place then return (.itself .list, false)
      let parts ← items.mapM fun (k, v) => do return (← part k, ← part v)
      finish (.list (parts.map fun (k, v) => .tuple [k.1, v.1])) (parts.all fun (k, v) => k.2 && v.2)
    | .dict entries =>
      if around.contains place then return (.itself .dict, false)
      let parts ← entries.mapM fun (k, v) => do return (k, ← part v)
      finish (.dict (parts.map fun (k, v) => (k, v.1))) (parts.all fun (_, v) => v.2)

/-- The value at a place, with all its parts. -/
def datumAt (vs : Values) (place : Nat) : Datum :=
  let size := vs.values.size
  ((vs.datumIn (size + 1) [] place).run (Array.replicate size none)).1.1

/-- The value of a document. -/
def datum (vs : Values) : Datum := vs.datumAt vs.root

/-- The entries of a document that is a dictionary. -/
def entries? (vs : Values) : Option (List (Datum × Values)) :=
  match vs.values[vs.root]? with
  | some (.dict entries) => some (entries.map fun (k, v) => (k, { vs with root := v }))
  | _ => none

end Values

/-- The values of a document. An empty one has the value nothing. -/
def read (s : String) : Except DataError Values := do
  match ← readGraph s with
  | none => return ⟨#[.leaf .null], 0⟩
  | some g => Values.ofGraph g

end JanetEmbedding.Yaml
