import JanetEmbedding.Yaml.Node
import JanetEmbedding.Yaml.Page

/-!
# The text of a node

Collections are written either as blocks, with every item and every entry on a line of its own, or on
one line as far as it goes. A node that occurs twice is written once, with an anchor, and is an alias
after that.

## Main definitions

* `Yaml.Anchors`: the nodes that need an anchor.
* `Yaml.Node.write`: the text of a node.
-/

namespace JanetEmbedding.Yaml

/-! ### Anchors -/

/-- The places that nodes have been met at, and those met twice, in order. -/
structure Anchors where
  met : List Nat := []
  repeated : List Nat := []

namespace Anchors

/-- Meets a node. Also tells whether it is new. -/
def meet (a : Anchors) : Option Nat → Anchors × Bool
  | none => (a, true)
  | some place =>
    if a.met.contains place then
      ({ a with repeated := if a.repeated.contains place then a.repeated else a.repeated ++ [place] },
        false)
    else ({ a with met := place :: a.met }, true)

mutual

/-- Meets a node and the nodes inside of it. -/
def meetAll (a : Anchors) : Node → Anchors
  | .scalar place _ _ => (a.meet place).1
  | .sequence place _ items => if (a.meet place).2 then meetItems (a.meet place).1 items else (a.meet place).1
  | .mapping place _ entries =>
    if (a.meet place).2 then meetEntries (a.meet place).1 entries else (a.meet place).1

/-- Meets the items of a sequence. -/
def meetItems (a : Anchors) : List Node → Anchors
  | [] => a
  | n :: ns => meetItems (meetAll a n) ns

/-- Meets the entries of a mapping. -/
def meetEntries (a : Anchors) : List (Node × Node) → Anchors
  | [] => a
  | (k, v) :: es => meetEntries (meetAll (meetAll a k) v) es

end

/-- The name of the anchor of a place. -/
def name? (a : Anchors) (place : Option Nat) : Option String := do
  let n ← a.repeated.idxOf? (← place)
  let digits := toString (n + 1)
  return "id" ++ String.ofList (List.replicate (3 - digits.length) '0') ++ digits

end Anchors

/-! ### Nodes -/

/-- Where a node is written. -/
structure Setting where
  anchors : Anchors
  /-- whether collections are written on one line -/
  compact : Bool
  /-- the column of the collection around; `none` at the root -/
  column : Option Nat := none
  /-- whether the node is inside a collection on one line -/
  flow : Bool := false
  /-- whether the node is a key or a value -/
  inMapping : Bool := false
  /-- whether the node is a key on the line of its value -/
  simpleKey : Bool := false

namespace Setting

/-- The column of a scalar's further lines and of the parts of a collection on one line. -/
def further (s : Setting) : Nat := (s.column.map (· + 2)).getD 2

/-- The column of the parts of a block collection. -/
def deeper (s : Setting) : Nat := (s.column.map (· + 2)).getD 0

end Setting

/-- The text that a tag is written as. -/
def Tag.written (t : Tag) : String := "!!" ++ t.shortName

namespace Node

/-- Whether a node is a collection without parts. -/
def isEmptyCollection : Node → Bool
  | sequence _ _ [] => true
  | mapping _ _ [] => true
  | _ => false

/-- Whether a key is written on the line of its value: it takes one line and is not long. -/
def isSimpleKey (anchors : Anchors) (isAlias : Bool) (n : Node) : Bool :=
  let anchorLength := ((anchors.name? n.place).map String.length).getD 0
  if isAlias then anchorLength < 128
  else match n with
    | scalar _ tag text =>
      let traits := Traits.of text
      anchorLength + tag.written.length + text.length < 128 && !traits.empty && !traits.multiline
    | n => anchorLength + n.tag.written.length < 128 && n.isEmptyCollection

/-- Writes the tag of a node unless the node is read back with it anyway. -/
def writeTag (tag : Tag) (implied : Bool) (p : Page) : Page :=
  if implied then p else p.indicator tag.written true false false

/-- Writes a scalar. -/
def writeScalar (s : Setting) (tag : Tag) (text : Text) (p : Page) : Page :=
  let cs := text.toChars?.getD []
  let style := Style.choose tag text (Traits.of text) s.flow s.simpleKey
  let implied := if style = .plain then tag = .ofPlain text else tag = .text
  let p := writeTag tag implied p
  match style with
  | .plain => p.plain s.further (!s.simpleKey) s.column.isNone cs
  | .apostrophes => p.inApostrophes s.further (!s.simpleKey) cs
  | .quotationMarks => p.inQuotationMarks s.further (!s.simpleKey) text
  | .block => p.block s.further cs

/-- Writes the anchor of a node, or an alias if the node has been written. Also tells whether the node
itself is still to be written. -/
def writeAnchor (s : Setting) (place : Option Nat) (p : Page) : Page × Bool :=
  match s.anchors.name? place, place with
  | some name, some place =>
    if p.anchored.contains place then (p.indicator ("*" ++ name) true false false, false)
    else ({ p.indicator ("&" ++ name) true false false with anchored := place :: p.anchored }, true)
  | _, _ => (p, true)

/-- Whether a node has been written. -/
def isWritten (s : Setting) (p : Page) (n : Node) : Bool :=
  (s.anchors.name? n.place).isSome && n.place.any p.anchored.contains

/-- Goes to a new line if the line is long. -/
def breakLong (column : Nat) (p : Page) : Page := if Page.width < p.column then p.indent column else p

mutual

/-- Writes a node. -/
def writeOn (s : Setting) (p : Page) : Node → Page
  | scalar place tag text =>
    let (p, new) := writeAnchor s place p
    if new then writeScalar s tag text p else p
  | sequence place tag items =>
    let (p, new) := writeAnchor s place p
    if !new then p
    else
      let p := writeTag tag (tag = .sequence) p
      if s.flow || s.compact || items.isEmpty then
        let inner := { s with column := some s.further, flow := true, inMapping := false, simpleKey := false }
        (writeFlowItems inner true (p.indicator "[" true true false) items).indicator "]" false false
          false
      else
        let column := if s.inMapping && !p.indented then s.column.getD 0 else s.deeper
        writeItems { s with column := some column, inMapping := false, simpleKey := false } p items
  | mapping place tag entries =>
    let (p, new) := writeAnchor s place p
    if !new then p
    else
      let p := writeTag tag (tag = .mapping) p
      if s.flow || s.compact || entries.isEmpty then
        let inner := { s with column := some s.further, flow := true, inMapping := true, simpleKey := false }
        (writeFlowEntries inner true (p.indicator "\x7b" true true false) entries).indicator "\x7d" false
          false false
      else writeEntries { s with column := some s.deeper, inMapping := true, simpleKey := false } p entries

/-- Writes the items of a block sequence. -/
def writeItems (s : Setting) (p : Page) : List Node → Page
  | [] => p
  | n :: ns =>
    let p := (p.indent (s.column.getD 0)).indicator "-" true false true
    writeItems s (writeOn s p n) ns

/-- Writes the entries of a block mapping. -/
def writeEntries (s : Setting) (p : Page) : List (Node × Node) → Page
  | [] => p
  | (k, v) :: es =>
    let p := p.indent (s.column.getD 0)
    let p :=
      if k.isSimpleKey s.anchors (isWritten s p k) then
        (writeOn { s with simpleKey := true } p k).indicator ":" false false false
      else
        let p := writeOn s (p.indicator "?" true false true) k
        (p.indent (s.column.getD 0)).indicator ":" true false true
    writeEntries s (writeOn s p v) es

/-- Writes the items of a flow sequence. -/
def writeFlowItems (s : Setting) (first : Bool) (p : Page) : List Node → Page
  | [] => p
  | n :: ns =>
    let p := if first then p else p.indicator "," false false false
    writeFlowItems s false (writeOn s (breakLong (s.column.getD 0) p) n) ns

/-- Writes the entries of a flow mapping. -/
def writeFlowEntries (s : Setting) (first : Bool) (p : Page) : List (Node × Node) → Page
  | [] => p
  | (k, v) :: es =>
    let p := if first then p else p.indicator "," false false false
    let p := breakLong (s.column.getD 0) p
    let p :=
      if k.isSimpleKey s.anchors (isWritten s p k) then
        (writeOn { s with simpleKey := true } p k).indicator ":" false false false
      else
        let p := writeOn s (p.indicator "?" true false false) k
        (breakLong (s.column.getD 0) p).indicator ":" true false false
    writeFlowEntries s false (writeOn s p v) es

end

/-- The text of a node, with its collections on one line if `compact`. A plain scalar alone is followed
by the mark of the end of a document. -/
def write (compact : Bool) (n : Node) : String :=
  let p := (writeOn { anchors := Anchors.meetAll {} n, compact } {} n).indent 0
  let p := if p.openEnded then (p.indicator "..." true false false).indent 0 else p
  String.ofList p.written.reverse

end Node

/-- The text of a value with text keys. -/
def write (room : Nat) (pretty : Bool) (p : Plain) : Except DataError String :=
  (Node.ofPlain room p).map (Node.write (!pretty))

end JanetEmbedding.Yaml
