import JanetEmbedding.Datum.Literal
import JanetEmbedding.Text.Quoted

/-!
# Results of evaluations

What a caller gets back: a value, or a fault, together with the text that the evaluation wrote.

## Main definitions

* `Fault`: what went wrong.
* `Result`: what a caller gets back.
* `Result.formatError`: how a fault is shown.
-/

namespace JanetEmbedding

/-- The kinds of fault. -/
inductive FaultKind where
  /-- The interpreter ended with a signal that is not the one for success. -/
  | evaluation (signal : Int)
  /-- The caller stopped waiting. -/
  | deadline
  /-- The output could not be captured, so nothing was evaluated. -/
  | capture
  /-- The interpreter is closed. -/
  | closed
  /-- The interpreter could not be started. -/
  | initialization
  /-- There is no interpreter library. -/
  | libraryMissing
  | configuration
  /-- any other fault of the host -/
  | host
  /-- A wait of the system ran out. -/
  | timeout
  /-- A value has the wrong type. -/
  | type
  | value
  | key
  | runtime
  /-- A value is nested too deeply. -/
  | recursion
  /-- A text cannot be encoded. -/
  | encoding
  | other
  deriving DecidableEq, Repr

namespace FaultKind

/-- Whether a fault is one of the host's own. -/
def isHost : FaultKind → Bool
  | evaluation _ => true
  | deadline => true
  | capture => true
  | closed => true
  | initialization => true
  | libraryMissing => true
  | configuration => true
  | host => true
  | _ => false

/-- Whether a fault is that time ran out. -/
def isTimeout : FaultKind → Bool
  | deadline => true
  | timeout => true
  | _ => false

/-- The signal of a fault. -/
def signal? : FaultKind → Option Int
  | evaluation signal => some signal
  | _ => none

/-- What a fault of a kind is shown as. -/
def label : FaultKind → String
  | evaluation _ => "EvaluationError"
  | deadline => "Timeout"
  | capture => "CaptureError"
  | closed => "VMClosed"
  | initialization => "InitializationError"
  | libraryMissing => "InitializationError"
  | _ => "InternalError"

end FaultKind

/-- What went wrong, in words. -/
structure Fault where
  kind : FaultKind
  message : Text
  deriving DecidableEq, Repr

namespace Fault

/-- The caller stopped waiting. -/
def deadline : Fault := ⟨.deadline, "deadline exceeded"⟩

/-- The wording of a fault that is made of some parts. One part stands for itself, unless it is a key that
is not there; several are shown together. Two parts of a wait that ran out are the number and the wording
of an error of the system. -/
def wording (kind : FaultKind) : List Datum → Except DataError Text
  | [] => .ok ""
  | [part] => if kind = .key then do return ← part.literal Nesting.limit else part.display Nesting.limit
  | [number, reason] =>
    if kind = .timeout then
      return "[Errno " ++ (← number.display Nesting.limit) ++ "] " ++ (← reason.display Nesting.limit)
    else do return ← (Datum.tuple [number, reason]).literal Nesting.limit
  | parts => do return ← (Datum.tuple parts).literal Nesting.limit

/-- A fault that is made of some parts. -/
def ofParts (kind : FaultKind) (parts : List Datum) : Except DataError Fault := do
  return ⟨kind, ← wording kind parts⟩

end Fault

/-- How an evaluation ended for its caller. -/
inductive Status where
  | success
  | error
  | cancelled
  deriving DecidableEq, Repr

namespace Status

/-- The name of a status. -/
def name : Status → String
  | success => "success"
  | error => "error"
  | cancelled => "cancelled"

end Status

/-- The value of an evaluation: its display text, or plain data. -/
inductive Rendered where
  | text (s : String)
  | data (x : Datum)

/-- What a caller gets back. -/
structure Result where
  status : Status
  value : Option Rendered := none
  stdout : String := ""
  stderr : String := ""
  fault : Option Fault := none
  /-- whether the evaluation went on when the caller stopped waiting for it -/
  stillRunning : Bool := false

namespace Result

/-- Whether there is a value. -/
def ok (r : Result) : Bool := r.status = .success

/-- The wording of the fault. -/
def errorMessage (r : Result) : Option Text := r.fault.map (·.message)

/-- How the fault is shown: what kind it is, and its wording. -/
def formatError (r : Result) : Text :=
  if r.ok then ""
  else
    let message := match r.errorMessage with
      | some m => if m.isEmpty then "Unknown error" else m
      | none => "Unknown error"
    let label := (r.fault.map (·.kind.label)).getD "InternalError"
    let suffix :=
      if r.fault.any (·.kind = .deadline) && r.stillRunning then " (evaluation still running)" else ""
    label ++ ": " ++ message ++ suffix

/-- A failed evaluation. -/
def failed (f : Fault) : Result := { status := .error, fault := some f }

/-- An evaluation whose caller stopped waiting. -/
def expired (stillRunning : Bool) : Result :=
  { status := .cancelled, fault := some .deadline, stillRunning }

end Result

end JanetEmbedding
