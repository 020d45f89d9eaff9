import JanetEmbedding.Nesting
import JanetEmbedding.Toml.Scalar
import JanetEmbedding.Toml.Table

/-!
# Reading a TOML document

A document is a sequence of statements: a key with a value, the header of a table, or the header of a
table in an array. A table may be declared once, and once a section has ended, the tables that its
dotted keys went through cannot be declared either.

The items of an array are read with two more calls open, the fields of a table on one line with three.

## Main definitions

* `Toml.readValue`: a value.
* `Toml.Draft`: a document that is being read.
* `Toml.read`: the value of a document.
-/

namespace JanetEmbedding.Toml

open Text (Point)

/-! ### Keys -/

/-- Whether a character may be part of a key without quotes. -/
def isBareKeyChar (c : Char) : Bool := c.isAlphanum || c == '-' || c == '_'

/-- Whether a point may be part of a key without quotes. -/
def isBareKeyPoint (p : Point) : Bool := p.char?.any isBareKeyChar

/-- Reads one part of a key. -/
def readKeyPart (ps : List Point) : Except DataError (Parsed Text) :=
  let bare := ps.takeWhile isBareKeyPoint
  if !bare.isEmpty then .ok (⟨bare⟩, ps.dropWhile isBareKeyPoint)
  else match ps with
    | .char '\'' :: rest => readLiteral rest
    | .char '"' :: rest => readBasic rest
    | _ => .error malformed

/-- Reads the parts of a key, with dots between them, and the blanks after it. -/
def readKey : Nat → List Point → Except DataError (Parsed Key)
  | 0, _ => .error malformed
  | fuel + 1, ps => do
    let (part, rest) ← readKeyPart ps
    match dropBlanks rest with
    | .char '.' :: rest => do
      let (parts, rest) ← readKey fuel (dropBlanks rest)
      return (part :: parts, rest)
    | rest => return ([part], rest)

/-! ### Values -/

/-- Skips a comment, if there is one, up to the end of its line. -/
def dropComment (ps : List Point) : Except DataError (List Point) :=
  match ps with
  | .char '#' :: rest =>
    if (rest.takeWhile (!isLineEnd ·)).any isIllegal then .error malformed
    else .ok (rest.dropWhile (!isLineEnd ·))
  | _ => .ok ps

/-- Skips the blanks, line ends and comments between the items of an array. -/
def dropArrayGap : Nat → List Point → Except DataError (List Point)
  | 0, ps => .ok ps
  | fuel + 1, ps => do
    let rest := ps.dropWhile fun p => isBlank p || isLineEnd p
    let after ← dropComment rest
    if after.length = ps.length then return after else dropArrayGap fuel after

mutual

/-- Reads a value. Every call is given one less of a number that exceeds the number of points. -/
def readValue : Nat → (room : Nat) → List Point → Except DataError (Parsed Datum)
  | 0, _, _ => .error malformed
  | fuel + 1, room, ps =>
    match ps with
    | .char '[' :: rest =>
      Nesting.within .tooDeep 2 room fun room => do
        let rest ← dropArrayGap (rest.length + 1) rest
        match rest with
        | .char ']' :: rest => return (.list [], rest)
        | _ => (readItems fuel room rest).map fun (items, rest) => (.list items, rest)
    | .char '\x7b' :: rest =>
      Nesting.within .tooDeep 3 room fun room =>
        match dropBlanks rest with
        | .char '\x7d' :: rest => .ok (.dict [], rest)
        | rest => (readFields fuel room [] rest).map fun (fs, rest) => (Fields.toDatum fs, rest)
    | _ => readScalar ps

/-- Reads the items of an array and its end. A comma may stand after the last. -/
def readItems : Nat → (room : Nat) → List Point → Except DataError (Parsed (List Datum))
  | 0, _, _ => .error malformed
  | fuel + 1, room, ps => do
    let (x, rest) ← readValue fuel room ps
    match ← dropArrayGap (rest.length + 1) rest with
    | .char ']' :: rest => return ([x], rest)
    | .char ',' :: rest =>
      match ← dropArrayGap (rest.length + 1) rest with
      | .char ']' :: rest => return ([x], rest)
      | rest => do
        let (xs, rest) ← readItems fuel room rest
        return (x :: xs, rest)
    | _ => .error malformed

/-- Reads the fields of a table on one line and its end. -/
def readFields : Nat → (room : Nat) → Fields → List Point → Except DataError (Parsed Fields)
  | 0, _, _, _ => .error malformed
  | fuel + 1, room, fs, ps => do
    let ((key, x), rest) ← readField fuel room ps
    match fs.addAt? key x with
    | none => .error malformed
    | some fs =>
      match dropBlanks rest with
      | .char '\x7d' :: rest => return (fs, rest)
      | .char ',' :: rest => readFields fuel room fs (dropBlanks rest)
      | _ => .error malformed

/-- Reads a key, an equals sign and a value. -/
def readField : Nat → (room : Nat) → List Point → Except DataError (Parsed (Key × Datum))
  | 0, _, _ => .error malformed
  | fuel + 1, room, ps => do
    let (key, rest) ← readKey (ps.length + 1) ps
    match rest with
    | .char '=' :: rest => do
      let (x, rest) ← readValue fuel room (dropBlanks rest)
      return ((key, x), rest)
    | _ => .error malformed

end

/-! ### Statements -/

/-- A document that is being read. -/
structure Draft where
  root : Fields := []
  /-- the key of the table that a section belongs to -/
  header : Key := []
  /-- the keys that no table can be declared under any more -/
  declared : List Key := []
  /-- the keys that join them at the end of the section -/
  pending : List Key := []

namespace Draft

/-- Reads the key of a header and the brackets after it. -/
def readHeader (closing ps : List Point) : Except DataError (Parsed Key) := do
  let ps := dropBlanks ps
  let (key, rest) ← readKey (ps.length + 1) ps
  if closing.isPrefixOf rest then return (key, rest.drop closing.length) else throw malformed

/-- Ends a section. -/
def endSection (d : Draft) : Draft := { d with declared := d.pending ++ d.declared, pending := [] }

/-- Declares a table. -/
def declareTable (d : Draft) (key : Key) : Except DataError Draft :=
  if d.declared.contains key then .error malformed
  else match Fields.modifyAt? some key d.root with
    | some root => .ok { d with root, header := key, declared := key :: d.declared }
    | none => .error malformed

/-- Declares one more table of an array. Whatever was declared in the one before is free again. -/
def declareInArray (d : Draft) (key : Key) : Except DataError Draft :=
  match key.getLast? with
  | none => .error malformed
  | some k =>
    match Fields.modifyAt? (Fields.append? k) key.dropLast d.root with
    | some root =>
      .ok { d with root, header := key, declared := key :: d.declared.filter (!key.isPrefixOf ·) }
    | none => .error malformed

/-- The tables that a dotted key goes through, from the outermost. -/
def passed (header key : Key) : List Key :=
  (List.range (key.length - 1)).map fun n => header ++ key.take (n + 1)

/-- Sets the value of a dotted key. -/
def setValue (d : Draft) (key : Key) (x : Datum) : Except DataError Draft :=
  let passed := passed d.header key
  if passed.any d.declared.contains then .error malformed
  else match Fields.addAt? (d.header ++ key) x d.root with
    | some root => .ok { d with root, pending := passed ++ d.pending }
    | none => .error malformed

/-- Reads a statement, which starts with a given character. -/
def readStatement (room : Nat) (d : Draft) (ps : List Point) : Except DataError (Draft × List Point) :=
  match ps with
  | .char '[' :: .char '[' :: rest => do
    let (key, rest) ← readHeader [.char ']', .char ']'] rest
    return (← d.endSection.declareInArray key, rest)
  | .char '[' :: rest => do
    let (key, rest) ← readHeader [.char ']'] rest
    return (← d.endSection.declareTable key, rest)
  | .char '#' :: _ => .ok (d, ps)
  | p :: _ =>
    if isBareKeyPoint p || p.isChar '"' || p.isChar '\'' then do
      let ((key, x), rest) ← readField (2 * ps.length + 2) room ps
      return (← d.setValue key x, rest)
    else .error malformed
  | [] => .ok (d, [])

/-- Reads statements, each with the end of its line. -/
def readStatements (room : Nat) : Nat → Draft → List Point → Except DataError Draft
  | 0, d, _ => .ok d
  | fuel + 1, d, ps =>
    match dropBlanks ps with
    | [] => .ok d
    | .char '\n' :: rest => readStatements room fuel d rest
    | ps => do
      let (d, rest) ← d.readStatement room ps
      match ← dropComment (dropBlanks rest) with
      | [] => return d
      | .char '\n' :: rest => readStatements room fuel d rest
      | _ => throw malformed

end Draft

/-- Reads one more point after a text in reverse. A line feed takes the place of a carriage return
before it. -/
def joinLineEnd (out : List Point) (p : Point) : List Point :=
  match out with
  | .char '\r' :: rest => if isLineEnd p then p :: rest else p :: out
  | _ => p :: out

/-- Turns every carriage return with its line feed into a line feed. -/
def joinLineEnds (ps : List Point) : List Point := (ps.foldl joinLineEnd []).reverse

/-- The value of a document. -/
def read (room : Nat) (t : Text) : Except DataError Datum := do
  let ps := joinLineEnds t.points
  return (← Draft.readStatements room (ps.length + 1) {} ps).root.toDatum

end JanetEmbedding.Toml
