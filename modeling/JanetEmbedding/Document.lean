import JanetEmbedding.Json.Reading
import JanetEmbedding.Json.Text
import JanetEmbedding.Toml.Reading
import JanetEmbedding.Yaml.Text
import JanetEmbedding.Yaml.Value

/-!
# Documents

Plain data as text in one of three formats, and back. The format of a text is the one asked for, or
else follows from the name of its file, or else from its first character; a text that nothing is known
about is YAML.

YAML is read and written by a library of its own. Whatever is said of documents can be said of any such
library: the one that is here stands for it unless another is given.

## Main definitions

* `Yaml.Loader`, `Yaml.Dumper`: how YAML is read, and how it is written.
* `Format.detect`: the format of a text.
* `Document.Content`: what a text holds.
* `Document.read`: the content of a text.
* `Document.write`: the text of a value.
-/

namespace JanetEmbedding

/-- The endings of file names, with the formats that they stand for. -/
def Format.endings : List (String × Format) :=
  [(".json", .json), (".yaml", .yaml), (".yml", .yaml), (".toml", .toml)]

/-- The format of a text, by the name of its file or else by how the text begins. -/
def Format.detect (fileName text : Option Text) : Option Format :=
  let name := (Text.lower (fileName.getD "")).points
  match endings.find? fun (ending, _) => (Text.ofString ending).points.isSuffixOf name with
  | some (_, f) => some f
  | none =>
    match text with
    | none => none
    | some text =>
      match (text.points.dropWhile fun p => p.char?.any Text.isBlank).head? with
      | some (.char '\x7b') => some .json
      | some (.char '[') => some .json
      | _ => none

/-- How a text is read as YAML. -/
abbrev Yaml.Loader := String → Except DataError Yaml.Values

/-- How a value with text keys is written as YAML, where there is room for some calls. -/
abbrev Yaml.Dumper := (room : Nat) → (pretty : Bool) → Plain → Except DataError String

namespace Document

/-- What a text holds: a value, or a value whose parts may be shared and hold each other. -/
inductive Content where
  | plain (x : Datum)
  | shared (vs : Yaml.Values)

namespace Content

/-- The value that a text holds. -/
def datum : Content → Datum
  | plain x => x
  | shared vs => vs.datum

/-- Whether a text holds nothing. -/
def isNull : Content → Bool
  | plain x => x.isNull
  | shared vs => vs.values[vs.root]?.any fun v => v matches .leaf .null

/-- The entries of content that is a dictionary. What they hold is looked at on its own. -/
def entries? : Content → Option (List (Datum × Content))
  | plain (.dict entries) => some (entries.map fun (k, v) => (k, plain v))
  | plain _ => none
  | shared vs => vs.entries?.map fun entries => entries.map fun (k, v) => (k, shared v)

end Content

/-- The content of YAML. A surrogate may not stand in it. -/
def readYaml (t : Text) (yaml : Yaml.Loader := Yaml.read) : Except DataError Content :=
  match t.toString? with
  | some s => (yaml s).map .shared
  | none => .error (.malformed .yaml)

/-- The content of a text in a format. What is no JSON is read as YAML, but not what is nested too deeply. -/
def readIn (room : Nat) (f : Format) (t : Text) (yaml : Yaml.Loader := Yaml.read) :
    Except DataError Content :=
  match f with
  | .json =>
    match Json.read room t with
    | .ok j => .ok (.plain j.toDatum)
    | .error (.malformed _) => (readYaml t yaml).mapError fun
      | .malformed _ => .malformedJson
      | e => e
    | .error e => .error e
  | .yaml => readYaml t yaml
  | .toml => (Toml.read room t).map .plain

/-- The content of a text. An empty name of a format asks for none. -/
def read (room : Nat) (format fileName : Option Text) (t : Text)
    (yaml : Yaml.Loader := Yaml.read) : Except DataError Content :=
  match format.filter (!·.isEmpty) with
  | none => readIn room ((Format.detect fileName (some t)).getD .yaml) t yaml
  | some name =>
    match name.toString?.bind Format.ofName? with
    | some f => readIn room f t yaml
    | none => .error (.unreadableFormat name)

/-- The text of a value in the format of a name, in which letter case does not matter. A pretty text
has every part on a line of its own. -/
def write (room : Nat) (format : Option Text) (pretty : Bool) (x : Datum)
    (yaml : Yaml.Dumper := Yaml.write) : Except DataError Text := do
  let p ← x.toPlain room
  match Format.ofName? (Text.lower (format.getD "")).shown with
  | some .json => return (← Json.ofPlain p).write pretty
  | some .yaml => return Text.ofString (← yaml room pretty p)
  | _ => throw (.unwritableFormat ((format.map fun name => Text.quoted name).getD "None"))

end Document

end JanetEmbedding
