import JanetEmbedding.Datum.Plain
import JanetEmbedding.Text.Base64
import JanetEmbedding.Yaml.Tag

/-!
# The node of a value

A document is written from a tree of nodes, each with its tag. Every plain value but a time of day has a
node. Numbers are written in the forms that are read as numbers again; bytes are in base 64.

A node has a place if its value came from a document and two of its kind can be one and the same: it is
the place that the value was read from.

The nodes within a collection are made with three more calls open. To write a node takes fewer.

## Main definitions

* `Yaml.Node`: a node.
* `Yaml.Node.ofPlain`: the node of a value with text keys.
-/

namespace JanetEmbedding.Yaml

/-- A node, with its place if it has one. -/
inductive Node where
  | scalar (place : Option Nat) (tag : Tag) (text : Text)
  | sequence (place : Option Nat) (tag : Tag) (items : List Node)
  | mapping (place : Option Nat) (tag : Tag) (entries : List (Node × Node))

/-- The text of a floating-point number. One with an exponent has a point too, since it would be read
as a text without. -/
def floatText : Double → String
  | .nan => ".nan"
  | .infinite false => ".inf"
  | .infinite true => "-.inf"
  | x =>
    let cs := x.text.toList
    if cs.contains '.' || !cs.contains 'e' then x.text
    else String.ofList (cs.takeWhile (· != 'e') ++ ['.', '0'] ++ cs.dropWhile (· != 'e'))

namespace Node

instance : Inhabited Node := ⟨scalar none .null default⟩

/-- The tag of a node. -/
def tag : Node → Tag
  | scalar _ t _ => t
  | sequence _ t _ => t
  | mapping _ t _ => t

/-- The place of a node. -/
def place : Node → Option Nat
  | scalar p _ _ => p
  | sequence p _ _ => p
  | mapping p _ _ => p

mutual

/-- The node of a value. -/
def ofDatum (room : Nat) : Datum → Except DataError Node
  | .null => .ok (scalar none .null (Text.ofString "null"))
  | .bool b => .ok (scalar none .bool (Text.ofString (if b then "true" else "false")))
  | .int n => (Datum.integerLiteral n).map fun s => scalar none .int s
  | .float x => .ok (scalar none .float (floatText x))
  | .text s => .ok (scalar none .text s)
  | .bytes bs => .ok (scalar none .binary (Base64.encode bs))
  | .list items =>
    Nesting.within .tooDeep 3 room fun room => (ofData room items).map (sequence none .sequence)
  | .tuple items =>
    Nesting.within .tooDeep 3 room fun room => (ofData room items).map (sequence none .sequence)
  | .dict entries =>
    Nesting.within .tooDeep 3 room fun room => (ofEntries room entries).map (mapping none .mapping)
  | .date d place => .ok (scalar place .timestamp d.iso)
  | .moment m place => .ok (scalar place .timestamp (m.iso " "))
  | .time t => .error (.notYaml t.constructed)
  | .itself _ => .error .tooDeep
  | .set items place =>
    Nesting.within .tooDeep 3 room fun room => do
      let members ← ofData room items
      return mapping place .set (members.map fun n => (n, scalar none .null "null"))

/-- The nodes of values. -/
def ofData (room : Nat) : List Datum → Except DataError (List Node)
  | [] => .ok []
  | x :: xs => do
    let n ← ofDatum room x
    return n :: (← ofData room xs)

/-- The nodes of the entries of a dictionary. -/
def ofEntries (room : Nat) : List (Datum × Datum) → Except DataError (List (Node × Node))
  | [] => .ok []
  | (k, v) :: es => do
    let key ← ofDatum room k
    let value ← ofDatum room v
    return (key, value) :: (← ofEntries room es)

end

mutual

/-- The node of a value with text keys. -/
def ofPlain (room : Nat) : Plain → Except DataError Node
  | .leaf x => ofDatum room x
  | .list items =>
    Nesting.within .tooDeep 3 room fun room => (ofPlains room items).map (sequence none .sequence)
  | .object fields =>
    Nesting.within .tooDeep 3 room fun room => (ofFields room fields).map (mapping none .mapping)

/-- The nodes of the items of a list. -/
def ofPlains (room : Nat) : List Plain → Except DataError (List Node)
  | [] => .ok []
  | p :: ps => do
    let n ← ofPlain room p
    return n :: (← ofPlains room ps)

/-- The nodes of the fields of an object. -/
def ofFields (room : Nat) : List (Text × Plain) → Except DataError (List (Node × Node))
  | [] => .ok []
  | (k, p) :: fs => do
    let n ← ofPlain room p
    return (scalar none .text k, n) :: (← ofFields room fs)

end

end Node

end JanetEmbedding.Yaml
