import JanetEmbedding.Datum.Basic
import JanetEmbedding.Number.Text

/-!
# Configurations

The settings of an interpreter. Each may be left open.

## Main definitions

* `Seconds`: a length of time.
* `Config`: the settings.
* `Config.replacedBy`: settings replaced by others.
* `Config.overridden`: settings replaced by plain values, whatever they are.
-/

namespace JanetEmbedding

/-- A length of time in seconds, as it was given: a whole or a floating-point number. -/
inductive Seconds where
  | whole (n : Int)
  | real (x : Double)
  deriving DecidableEq

namespace Seconds

/-- Whether no time is left. Not-a-number counts as some. -/
def isOver : Seconds → Bool
  | whole n => n ≤ 0
  | real x => x.isNonPositive

/-- Whether a length of time is positive. -/
def isPositive (t : Seconds) : Bool := !t.isOver && t ≠ .real .nan

/-- The text of a length of time. -/
def text : Seconds → String
  | whole n => toString n
  | real x => x.text

/-- A length of time as a plain value. -/
def toDatum : Seconds → Datum
  | whole n => .int n
  | real x => .float x

end Seconds

/-- The settings of an interpreter. -/
structure Config where
  /-- the name or the path of the interpreter library; without it the system is searched -/
  library : Option Text := none
  /-- whether values take one word each; without it the machine decides -/
  nanbox : Option Bool := none
  /-- how long a caller waits for an evaluation -/
  timeout : Option Seconds := none
  /-- what the source of an evaluation is called -/
  sourcePath : Option Text := none
  deriving DecidableEq

/-- The settings, by name. -/
inductive Setting where
  | library
  | nanbox
  | timeout
  | sourcePath
  deriving DecidableEq, Repr

namespace Setting

/-- All settings, in order. -/
def all : List Setting := [library, nanbox, timeout, sourcePath]

/-- The name of a setting. -/
def name : Setting → String
  | library => "library"
  | nanbox => "nanbox"
  | timeout => "timeout"
  | sourcePath => "source_path"

/-- The setting of a name. -/
def ofName? (s : String) : Option Setting := all.find? (·.name == s)

theorem mem_all (s : Setting) : s ∈ all := by cases s <;> decide

theorem ofName?_name (s : Setting) : ofName? s.name = some s := by cases s <;> decide

end Setting

namespace Config

/-- A setting with its value, which may be left open. -/
inductive Assignment where
  | library (s : Option Text)
  | nanbox (b : Option Bool)
  | timeout (t : Option Seconds)
  | sourcePath (s : Option Text)
  deriving DecidableEq

/-- Sets one setting. -/
def set (c : Config) : Assignment → Config
  | .library s => { c with library := s }
  | .nanbox b => { c with nanbox := b }
  | .timeout t => { c with timeout := t }
  | .sourcePath s => { c with sourcePath := s }

/-- Sets several settings, one after the other. -/
def setAll (c : Config) (assignments : List Assignment) : Config := assignments.foldl set c

/-- Whether an assignment leaves its setting open. -/
def Assignment.isOpen : Assignment → Bool
  | library s => s.isNone
  | nanbox b => b.isNone
  | timeout t => t.isNone
  | sourcePath s => s.isNone

/-- Replaces settings by those that are not open. -/
def replacedBy (c : Config) (assignments : List Assignment) : Config :=
  c.setAll (assignments.filter (!·.isOpen))

/-- A setting as a plain value, nothing if it is open. -/
def datum (c : Config) : Setting → Datum
  | .library => (c.library.map .text).getD .null
  | .nanbox => (c.nanbox.map .bool).getD .null
  | .timeout => (c.timeout.map Seconds.toDatum).getD .null
  | .sourcePath => (c.sourcePath.map .text).getD .null

/-- The settings as plain values, some of them replaced by other values, which are taken as they are.
Nothing replaces nothing; the first name that no setting has is an error. -/
def overridden (c : Config) (overrides : List (Text × Datum)) : Except Text (Setting → Datum) :=
  let overrides := overrides.filter fun (_, x) => !x.isNull
  match overrides.find? fun (name, _) => (name.toString?.bind Setting.ofName?).isNone with
  | some (name, _) => .error name
  | none => .ok fun s => (overrides.lookup (Text.ofString s.name)).getD (c.datum s)

end Config

end JanetEmbedding
