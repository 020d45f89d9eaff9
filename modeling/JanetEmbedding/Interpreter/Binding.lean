import JanetEmbedding.Config.Basic
import JanetEmbedding.Evaluation.Result
import JanetEmbedding.Text.Case
import JanetEmbedding.Text.Encoding

/-!
# Binding to the interpreter library

The interpreter is a shared library of the system. It is found by its name or by a search, opened, and
has to export every function that the host calls. The system takes the path of a library as bytes that end
with a zero, so a path that has no bytes, or a zero among them, cannot even be handed over.

## Main definitions

* `Interpreter.System`: what the system answers.
* `Interpreter.BindingFault`: why there is no library.
* `Interpreter.findLibrary`, `Interpreter.load`: finding and opening the library.
-/

namespace JanetEmbedding.Interpreter

/-- What the system answers when the library is looked for and opened. -/
structure System where
  /-- what a search finds -/
  found : Option Text := none
  /-- why the library cannot be opened -/
  loadError : Option Text := none
  /-- the functions that the library does not export -/
  missing : List String := []
  machine : Text := "x86_64"
  /-- whether a library stands in for every other, and is opened without its path being handed over -/
  standIn : Bool := false

/-- Why there is no library. -/
inductive BindingFault where
  | notFound
  /-- The path has no bytes. -/
  | unencodable (f : Text.EncodingFault)
  /-- There is a zero among the bytes of the path. -/
  | zeroInPath
  | notLoaded (path reason : Text)
  | notExported (path : Text) (function : String)
  deriving DecidableEq, Repr

namespace BindingFault

/-- The wording of a fault. -/
def message : BindingFault → Text
  | notFound =>
    "could not find the Janet shared library; set JANETHOST_LIBRARY or the `library` configuration key"
  | unencodable f => f.message
  | zeroInPath => "embedded null byte"
  | notLoaded path reason => "could not load " ++ path ++ ": " ++ reason
  | notExported path function => path ++ " does not export " ++ function

/-- What kind of fault it is. A path that cannot be handed over is none of the host's own faults. -/
def kind : BindingFault → FaultKind
  | unencodable _ => .encoding
  | zeroInPath => .value
  | notFound => .libraryMissing
  | notLoaded .. => .libraryMissing
  | notExported .. => .libraryMissing

/-- The fault that whoever wants the library is told. -/
def fault (f : BindingFault) : Fault := ⟨f.kind, f.message⟩

/-- Whatever is wrong, there is no library, or it is none of the host's own faults. -/
theorem kind_cases (f : BindingFault) : f.kind = .libraryMissing ∨ f.kind.isHost = false := by
  cases f with
  | notFound | notLoaded | notExported => exact .inl rfl
  | unencodable | zeroInPath => exact .inr rfl

end BindingFault

/-- A library that has been opened: its name, and whether its values take one word each. -/
structure Binding where
  name : Text
  nanbox : Bool
  deriving DecidableEq, Repr

/-- What is said of a library that has been opened. -/
def Binding.announcement (b : Binding) : Text :=
  "loaded " ++ b.name ++ " (nanbox=" ++ (if b.nanbox then "True" else "False") ++ ")"

/-- The machines on which values take one word each unless something else is said. -/
def nanboxMachines : List Text := ["x86_64", "amd64", "riscv64"]

/-- A text that is not empty. -/
def nonEmpty (t : Option Text) : Option Text := t.filter (!·.isEmpty)

/-- Whether values take one word each on a machine, or on the host's if none is named. -/
def defaultNanbox (machine : Option Text) (host : Text) : Bool :=
  nanboxMachines.contains (Text.lower ((nonEmpty machine).getD host))

/-- The functions that the host calls, in the order in which they are looked up. -/
def exports : List String :=
  ["janet_init", "janet_deinit", "janet_core_env", "janet_dostring", "janet_type", "janet_checktype",
    "janet_unwrap_boolean", "janet_unwrap_number", "janet_unwrap_string", "janet_unwrap_symbol",
    "janet_unwrap_keyword", "janet_to_string", "janet_indexed_view", "janet_dictionary_view",
    "janet_gcroot", "janet_gcunroot"]

/-- The path of the library: the one that is named, or else the one that a search finds. -/
def findLibrary (sys : System) (name : Option Text) : Except BindingFault Text :=
  match nonEmpty name, nonEmpty sys.found with
  | some path, _ => .ok path
  | none, some path => .ok path
  | none, none => .error .notFound

/-- Why the path of a library cannot be handed over to the system. -/
def System.pathFault? (sys : System) (path : Text) : Option BindingFault :=
  if sys.standIn then none
  else match path.nameFault? with
    | some f => some (.unencodable f)
    | none => if path.nameBytes.contains 0 then some .zeroInPath else none

/-- Opens the library at a path. -/
def openLibrary (sys : System) (path : Text) (nanbox : Option Bool) : Except BindingFault Binding :=
  match sys.pathFault? path, sys.loadError with
  | some f, _ => .error f
  | none, some reason => .error (.notLoaded path reason)
  | none, none => .ok ⟨path, nanbox.getD (defaultNanbox none sys.machine)⟩

/-- Looks up the functions of an opened library. -/
def checkExports (sys : System) (b : Binding) : Except BindingFault Binding :=
  match exports.find? sys.missing.contains with
  | some function => .error (.notExported b.name function)
  | none => .ok b

/-- Opens the library of a configuration, up to looking up its functions. -/
def openFor (sys : System) (c : Config) : Except BindingFault Binding := do
  openLibrary sys (← findLibrary sys c.library) c.nanbox

/-- The library of a configuration. -/
def load (sys : System) (c : Config) : Except BindingFault Binding := do
  checkExports sys (← openFor sys c)

end JanetEmbedding.Interpreter
