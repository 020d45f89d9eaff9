import JanetEmbedding.Config.Coercion
import JanetEmbedding.Document
import JanetEmbedding.Files

/-!
# Loading a configuration

A configuration is loaded from a file, if one is given, and from the environment, whose variables
win over the file. The file may keep its settings in a section of its own.

## Main definitions

* `Config.ofFile`: the configuration of a file.
* `Config.ofEnvironment`: what the environment sets.
* `Config.load`: both together.
-/

namespace JanetEmbedding.Config

/-- The variables of an environment. -/
abbrev Environment := List (String × Text)

/-- The section of a document that holds the settings. -/
def sectionName : String := "janethost"

/-- What the name of a variable starts with. -/
def variableStart : String := "JANETHOST_"

/-- The name of the variable of a setting. -/
def variableName (s : Setting) : String :=
  variableStart ++ String.ofList (s.name.toList.map Char.toUpper)

/-- The content of the document at a path. That the text is no document is a fault of the
configuration; other errors of the data are passed on. -/
def readDocument (path : Files.Path) (text : String) (yaml : Yaml.Loader := Yaml.read) :
    Except Failure Document.Content :=
  match Document.read Nesting.limit none (some path.name) text yaml with
  | .ok x => .ok x
  | .error e =>
    if e.kind = .value then .error (.fault (.badDocument path.text e.message)) else .error (.data e)

/-- The settings of a document: those of its section, if that is a dictionary, or else all of it. An
empty document has none. -/
def settingsOf (path : Files.Path) (c : Document.Content) :
    Except Failure (List (Datum × Document.Content)) :=
  match c.entries? with
  | some entries => .ok (((Entries.find? entries (.text sectionName)).bind (·.entries?)).getD entries)
  | none => if c.isNull then .ok [] else .error (.fault (.notMapping path.text))

/-- The configuration of a file. -/
def ofFile (files : Files.Tree) (path : Files.Path) (yaml : Yaml.Loader := Yaml.read) :
    Except Failure Config := do
  match files.readText path with
  | .error (.unopened f) => throw (.fault (.unreadable path.text (f.message path.text)))
  | .error (.undecodable f) => throw (.undecodable f)
  | .error (.unencodable f) => throw (.unencodable f)
  | .error .zeroInPath => throw .zeroInPath
  | .ok text =>
    let settings ← settingsOf path (← readDocument path text yaml)
    ofEntries (settings.map fun (k, v) => (k, v.datum))

/-- What the environment sets, in the order of the settings. A variable that is there counts even if
it leaves its setting open. -/
def ofEnvironment (env : Environment) : Except Failure (List Assignment) :=
  (Setting.all.filterMap fun s => (env.lookup (variableName s)).map (s, ·)).mapM fun (s, value) =>
    coerce s (variableName s) (.text value)

/-- The configuration of a file and the environment. The file is looked at first. -/
def load (files : Files.Tree) (path : Option Text) (env : Environment)
    (yaml : Yaml.Loader := Yaml.read) : Except Failure Config := do
  let base ← match path with
    | none => pure {}
    | some p => ofFile files (.ofText p) yaml
  return base.setAll (← ofEnvironment env)

end JanetEmbedding.Config
