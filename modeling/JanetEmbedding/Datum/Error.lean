import JanetEmbedding.Calendar
import JanetEmbedding.Number.Text
import JanetEmbedding.Text.Quoted

/-!
# What goes wrong with data

The causes for which a text is not read as a value, or a value not written as a text, and their
wording.
-/

namespace JanetEmbedding

/-- The formats that documents are written in. -/
inductive Format where
  | json
  | yaml
  | toml
  deriving DecidableEq, Repr

namespace Format

/-- The name of a format. -/
def name : Format → String
  | json => "json"
  | yaml => "yaml"
  | toml => "toml"

/-- The format of a name. -/
def ofName? : String → Option Format
  | "json" => some json
  | "yaml" => some yaml
  | "toml" => some toml
  | _ => none

theorem ofName?_name (f : Format) : ofName? f.name = some f := by cases f <;> rfl

end Format

/-- A cause for which data is not read or not written. -/
inductive DataError where
  /-- The text is no document of the format. -/
  | malformed (format : Format)
  /-- The text is neither JSON nor YAML, though JSON was asked for. -/
  | malformedJson
  /-- No document is read in the format of this name. -/
  | unreadableFormat (name : Text)
  /-- No document is written in the format that is asked for by this literal. -/
  | unwritableFormat (literal : String)
  /-- An integer has too many digits to be written. -/
  | integerTooLong
  /-- An integer has too many digits to be read. -/
  | tooManyDigits (digits : Nat)
  | notInteger (base : Nat) (text : Text)
  | notFloat (text : Text)
  /-- An integer is too large to be a floating-point number. -/
  | integerBeyondFloat
  /-- A number without any character but its sign. -/
  | emptyNumber
  /-- A text marked as a truth value that is none. -/
  | notTruth (text : Text)
  /-- A text marked as a time stamp that is none. -/
  | notTimestamp
  /-- A mapping marked as a time stamp. -/
  | mappingTimestamp
  /-- An escape names a character that does not exist. -/
  | noSuchCharacter
  /-- An escape names a number that no character could have. -/
  | characterNumberTooLarge
  | calendar (fault : Calendar.Fault)
  /-- JSON has no values of this kind. -/
  | notJson (kind : String)
  /-- YAML has no values like this one. -/
  | notYaml (literal : String)
  /-- A value is nested too deeply, or holds itself. -/
  | tooDeep
  deriving DecidableEq, Repr

namespace DataError

/-- The wording of a cause. What a reader found wrong with a malformed document is left out. -/
def message : DataError → String
  | malformed .json => "invalid JSON: ..."
  | malformed .yaml => "invalid YAML: ..."
  | malformed .toml => "invalid TOML: ..."
  | malformedJson => "invalid JSON/YAML: ..."
  | unreadableFormat name => "Unsupported deserialization format: " ++ Text.quoted name
  | unwritableFormat literal => "Unsupported serialization format: " ++ literal
  | integerTooLong =>
    s!"Exceeds the limit ({Double.maxIntegerDigits} digits) for integer string conversion; " ++
      "use sys.set_int_max_str_digits() to increase the limit"
  | tooManyDigits digits =>
    s!"Exceeds the limit ({Double.maxIntegerDigits} digits) for integer string conversion: " ++
      s!"value has {digits} digits; use sys.set_int_max_str_digits() to increase the limit"
  | notInteger base text =>
    -- of a long text only the start is shown
    s!"invalid literal for int() with base {base}: " ++
      String.ofList ((Text.quoted text).toList.take 200)
  | notFloat text => "could not convert string to float: " ++ Text.quoted text
  | integerBeyondFloat => "int too large to convert to float"
  | emptyNumber => "string index out of range"
  | notTruth text => Text.quoted text
  | notTimestamp => "'NoneType' object has no attribute 'groupdict'"
  | mappingTimestamp => "expected string or bytes-like object, got 'list'"
  | noSuchCharacter => "chr() arg not in range(0x110000)"
  | characterNumberTooLarge => "Python int too large to convert to C int"
  | calendar fault => fault.message
  | notJson kind => s!"Object of type {kind} is not JSON serializable"
  | notYaml literal => s!"('cannot represent an object', {literal})"
  | tooDeep => "maximum recursion depth exceeded"

end DataError

end JanetEmbedding
