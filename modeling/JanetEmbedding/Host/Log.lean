import JanetEmbedding.Text.Basic

/-!
# Log records

What the host has to say about its own doings.
-/

namespace JanetEmbedding.Log

/-- How serious a record is. -/
inductive Level where
  | debug
  | warning
  | error
  deriving DecidableEq, Repr

namespace Level

/-- The name of a level. -/
def name : Level → String
  | debug => "DEBUG"
  | warning => "WARNING"
  | error => "ERROR"

end Level

/-- The part of the host that makes a record. -/
inductive Origin where
  /-- the binding to the interpreter library -/
  | binding
  /-- workers and handles -/
  | runtime
  deriving DecidableEq, Repr

namespace Origin

/-- The name of a part of the host. -/
def name : Origin → String
  | binding => "janethost.janet_ffi"
  | runtime => "janethost.janet_runtime"

end Origin

/-- A log record. -/
structure Record where
  level : Level
  origin : Origin
  message : Text
  /-- whether some evaluation held the descriptors when the record was made -/
  capturing : Bool
  deriving DecidableEq, Repr

namespace Record

/-- A record as it is printed. -/
def line (r : Record) : Text := r.level.name ++ " " ++ r.origin.name ++ ": " ++ r.message ++ "\n"

end Record

end JanetEmbedding.Log
