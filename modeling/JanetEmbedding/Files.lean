import JanetEmbedding.Text.Encoding
import JanetEmbedding.Text.Newline

/-!
# Files

A tree of files, the paths into it, and what goes wrong when a file is read as text.

## Main definitions

* `Files.Path`: a path in its normal form.
* `Files.Tree`: a tree of files, as the list of what is in it.
* `Files.Tree.readText`: the text of a file.
-/

namespace JanetEmbedding.Files

/-! ### Paths -/

/-- A path without empty parts and without parts that stand for where they are. -/
structure Path where
  /-- the slashes that an absolute path starts with -/
  root : String
  parts : List Text
  deriving DecidableEq, Repr

namespace Path

/-- Puts one more point before parts that are set apart by slashes. -/
def addPoint (p : Text.Point) : List Text → List Text
  | [] => []
  | part :: parts => if p.isChar '/' then ⟨[]⟩ :: part :: parts else ⟨p :: part.points⟩ :: parts

/-- The parts of a text that are set apart by slashes. -/
def splitSlashes (t : Text) : List Text := t.points.foldr addPoint [⟨[]⟩]

/-- The path of a text. Two slashes at the start are kept, three or more are one. -/
def ofText (t : Text) : Path :=
  let root := match (t.points.takeWhile (·.isChar '/')).length with
    | 0 => ""
    | 2 => "//"
    | _ => "/"
  ⟨root, (splitSlashes t).filter fun part => !part.isEmpty && part != "."⟩

/-- The text of a path. The empty path is the place itself. -/
def text (p : Path) : Text :=
  if p.root.isEmpty && p.parts.isEmpty then "." else p.root ++ Text.intercalate "/" p.parts

/-- The last part of a path, or nothing if it has none. -/
def name (p : Path) : Text := p.parts.getLast?.getD ""

end Path

/-! ### Trees -/

/-- What is at a place. -/
inductive Entry where
  | file (bytes : List UInt8)
  | directory
  deriving DecidableEq, Repr

/-- A tree of files: what is in it, by the parts of its path. -/
abbrev Tree := List (List Text × Entry)

/-- Why a file cannot be opened. -/
inductive OpenFault where
  | missing
  | notDirectory
  | isDirectory
  | nameTooLong
  deriving DecidableEq, Repr

namespace OpenFault

/-- The wording of a fault, with the path that was asked for. -/
def message (f : OpenFault) (path : Text) : String :=
  let reason := match f with
    | missing => "[Errno 2] No such file or directory: "
    | notDirectory => "[Errno 20] Not a directory: "
    | isDirectory => "[Errno 21] Is a directory: "
    | nameTooLong => "[Errno 36] File name too long: "
  reason ++ Text.quoted path

end OpenFault

/-- Why a file cannot be read as text. -/
inductive ReadFault where
  | unopened (fault : OpenFault)
  | undecodable (fault : Utf8.Fault)
  /-- a path that has no bytes -/
  | unencodable (fault : Text.EncodingFault)
  /-- a path with the character zero in it -/
  | zeroInPath
  deriving DecidableEq, Repr

namespace Tree

/-- What is at a place. Whatever holds something is a directory. -/
def at? (t : Tree) (place : List Text) : Option Entry :=
  if place.isEmpty then some .directory
  else match t.lookup place with
    | some e => some e
    | none => if t.any fun (other, _) => place.isPrefixOf other then some .directory else none

/-- The number of bytes that a name may have. -/
def maxNameBytes : Nat := 255

/-- The number of bytes that a path may have. -/
def maxPathBytes : Nat := 4095

/-- Follows the parts of a path. What lies outside of the tree is a directory with nothing else in
it. -/
def follow (t : Tree) : (place : Option (List Text)) → List Text → Except OpenFault Entry
  | none, [] => .ok .directory
  | some place, [] => match t.at? place with
    | some e => .ok e
    | none => .error .missing
  | none, part :: parts => if part = ".." then follow t none parts else .error .missing
  | some place, part :: parts =>
    match t.at? place with
    | none => .error .missing
    | some (.file _) => .error .notDirectory
    | some .directory =>
      if part = ".." then follow t (if place.isEmpty then none else some place.dropLast) parts
      else if maxNameBytes < part.nameBytes.length then .error .nameTooLong
      else follow t (some (place ++ [part])) parts

/-- The bytes of a file. -/
def readBytes (t : Tree) (p : Path) : Except OpenFault (List UInt8) :=
  if maxPathBytes < p.text.nameBytes.length then .error .nameTooLong
  else match t.follow (if p.root.isEmpty then some [] else none) p.parts with
  | .ok (.file bytes) => .ok bytes
  | .ok .directory => .error .isDirectory
  | .error f => .error f

/-- The text of a file, with every line ended by a line feed. -/
def readText (t : Tree) (p : Path) : Except ReadFault String :=
  match p.text.nameFault? with
  | some f => .error (.unencodable f)
  | none =>
    if p.text.nameBytes.contains 0 then .error .zeroInPath
    else match t.readBytes p with
      | .error f => .error (.unopened f)
      | .ok bytes =>
        match Utf8.decodeStrict bytes with
        | .error f => .error (.undecodable f)
        | .ok cs => .ok (String.ofList (Text.unifyNewlines cs))

end Tree

end JanetEmbedding.Files
