import JanetEmbedding.Datum.Error

/-!
# Kinds of data error

The causes for which data is not read or written fall into a few kinds, by which a caller tells apart
the errors that it handles from those that it passes on.
-/

namespace JanetEmbedding

/-- The kinds of error. -/
inductive ErrorKind where
  /-- a value that is not allowed, among them every text that does not parse -/
  | value
  /-- a value of the wrong type -/
  | type
  /-- something looked up that is not there -/
  | key
  /-- a place that is not there -/
  | index
  /-- a part that is not there -/
  | attribute
  /-- a number that is too large -/
  | overflow
  /-- a value that a format has no form for -/
  | representer
  /-- a value that is nested too deeply -/
  | recursion
  deriving DecidableEq, Repr

/-- The kind of a cause. -/
def DataError.kind : DataError → ErrorKind
  | integerBeyondFloat => .overflow
  | characterNumberTooLarge => .overflow
  | emptyNumber => .index
  | notTruth _ => .key
  | notTimestamp => .attribute
  | mappingTimestamp => .type
  | notJson _ => .type
  | notYaml _ => .representer
  | tooDeep => .recursion
  | _ => .value

end JanetEmbedding
