import JanetEmbedding.Config.Basic
import JanetEmbedding.Datum.Kind
import JanetEmbedding.Datum.Literal
import JanetEmbedding.Number.Reading
import JanetEmbedding.Text.Case
import JanetEmbedding.Text.Encoding

/-!
# Settings from plain data

A configuration is read from a dictionary of plain values. Its keys are settings by name, in any
letter case and with hyphens or underscores; its values are coerced to what the setting takes.

## Main definitions

* `Config.Fault`: what is wrong with a configuration.
* `Config.coerce`: the value of one setting.
* `Config.ofEntries`: the configuration of a dictionary.
-/

namespace JanetEmbedding.Config

/-- What is wrong with a configuration. Values are shown by their literal. -/
inductive Fault where
  | unknownKey (literal : String)
  | notTruth (name literal : String)
  | notSeconds (name literal : String)
  | notPositive (name literal : String)
  | notText (name literal : String)
  /-- The file cannot be opened. -/
  | unreadable (path : Text) (reason : String)
  /-- The file is no document. -/
  | badDocument (path : Text) (reason : String)
  /-- The document is no dictionary. -/
  | notMapping (path : Text)
  deriving DecidableEq, Repr

namespace Fault

/-- The wording of a fault. -/
def message : Fault → Text
  | unknownKey literal => s!"unknown configuration key: {literal}"
  | notTruth name literal => s!"{name}: expected a boolean, got {literal}"
  | notSeconds name literal => s!"{name}: expected a number of seconds, got {literal}"
  | notPositive name literal => s!"{name}: must be positive, got {literal}"
  | notText name literal => s!"{name}: expected a string, got {literal}"
  | unreadable path reason => "cannot read configuration file " ++ path ++ ": " ++ reason
  | badDocument path reason => path ++ ": " ++ reason
  | notMapping path => path ++ ": expected a mapping at the top level"

end Fault

/-- Why there is no configuration: a fault of it, or an error of the data that is passed on. -/
inductive Failure where
  | fault (f : Fault)
  | data (e : DataError)
  | undecodable (f : Utf8.Fault)
  | unencodable (f : Text.EncodingFault)
  /-- a path with the character zero in it -/
  | zeroInPath
  deriving DecidableEq, Repr

/-- A step that may fail with an error of the data. -/
def ofData {α : Type} (x : Except DataError α) : Except Failure α := x.mapError .data

/-- Fails with a fault that shows a value. -/
def refuse {α : Type} (f : String → Fault) (x : Datum) : Except Failure α := do
  throw (.fault (f (← ofData (x.literal Nesting.limit))))

/-! ### Single settings -/

/-- The words for yes. -/
def yesWords : List Text := ["1", "true", "yes", "on"]

/-- The words for no. -/
def noWords : List Text := ["0", "false", "no", "off"]

/-- The words that leave a setting open. -/
def openWords : List Text := ["", "auto"]

/-- A value as yes, no or open. Values that are not texts are taken by their display. -/
def coerceTruth (name : String) (x : Datum) : Except Failure (Option Bool) :=
  match x with
  | .null => .ok none
  | .bool b => .ok (some b)
  | x => do
    let word := Text.lower (Text.strip (← ofData (x.display Nesting.limit)))
    if yesWords.contains word then return some true
    else if noWords.contains word then return some false
    else if openWords.contains word then return none
    else refuse (.notTruth name) x

/-- The floating-point number that a value is, if it is one. An integer may be too large. -/
def asDouble? : Datum → Except DataError (Option Double)
  | .bool b => .ok (Double.ofInt? (if b then 1 else 0))
  | .int n => match Double.ofInt? n with
    | some x => .ok (some x)
    | none => .error .integerBeyondFloat
  | .float x => .ok (some x)
  | .text t => .ok (t.toString?.bind Number.readDouble?)
  | .bytes bs => .ok (Number.readDoubleBytes? bs)
  | _ => .ok none

/-- A value as a positive number of seconds, or open. -/
def coerceSeconds (name : String) (x : Datum) : Except Failure (Option Seconds) :=
  match x with
  | .null => .ok none
  | .text ⟨[]⟩ => .ok none
  | x => do
    match ← ofData (asDouble? x) with
    | none => refuse (.notSeconds name) x
    | some t => if t.isNonPositive then refuse (.notPositive name) x else return some (.real t)

/-- A value as a text that is not empty, or open. -/
def coerceText (name : String) (x : Datum) : Except Failure (Option Text) :=
  match x with
  | .null => .ok none
  | .text t => .ok (if t.isEmpty then none else some t)
  | x => refuse (.notText name) x

/-- The value of a setting. -/
def coerce (s : Setting) (name : String) (x : Datum) : Except Failure Assignment :=
  match s with
  | .library => (coerceText name x).map .library
  | .nanbox => (coerceTruth name x).map .nanbox
  | .timeout => (coerceSeconds name x).map .timeout
  | .sourcePath => (coerceText name x).map .sourcePath

/-! ### Dictionaries -/

/-- The normal form of the name of a setting: underscores for hyphens, in lower case. -/
def normalName (t : Text) : Text :=
  Text.lower ⟨t.points.map fun p => if p = .char '-' then .char '_' else p⟩

/-- The setting that an entry is for, and its value. -/
def ofEntry (key value : Datum) : Except Failure Assignment := do
  let name ← ofData (key.display Nesting.limit)
  match (normalName name).toString?.bind Setting.ofName? with
  | none => refuse .unknownKey key
  | some s => coerce s name.shown value

/-- The configuration of a dictionary. Its entries are taken in order: the first one at fault is the
fault of all, and the last one for a setting is what the setting is. -/
def ofEntries (entries : Entries) : Except Failure Config := do
  return Config.setAll {} (← entries.mapM fun (k, v) => ofEntry k v)

end JanetEmbedding.Config
