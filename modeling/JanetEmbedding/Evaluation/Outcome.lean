import JanetEmbedding.Capture.Session
import JanetEmbedding.Evaluation.Result
import JanetEmbedding.Interpreter.Behaviour
import JanetEmbedding.Janet.Conversion

/-!
# The outcome of an evaluation

The interpreter ends an evaluation with a signal and a value. A signal other than the one for success
makes the value an error, whose text the interpreter itself gives; otherwise the value is shown, or
converted to plain data.

## Main definitions

* `RequestKind`: what a caller asks for.
* `Evaluation.render`: the value of an evaluation as its caller wants it.
* `Evaluation.outcome`: the result of an evaluation.
-/

namespace JanetEmbedding

/-- What a caller asks for: the display text of a value, or the value as plain data. A request of any
other name gets the display text. -/
inductive RequestKind where
  | execute
  | parse
  | other (name : String)
  deriving DecidableEq, Repr

namespace RequestKind

/-- The name of a kind of request. -/
def name : RequestKind → String
  | execute => "execute"
  | parse => "parse"
  | other s => s

/-- The kind of request of a name. -/
def ofName (s : String) : RequestKind :=
  if s = "execute" then execute else if s = "parse" then parse else other s

theorem name_ofName (s : String) : (ofName s).name = s := by
  unfold ofName
  split
  · simp_all [name]
  · split <;> simp_all [name]

end RequestKind

namespace Evaluation

/-- The value of an evaluation as its caller wants it. -/
def render (kind : RequestKind) (v : Janet.Value) : Except Janet.ViewFault Rendered :=
  match kind with
  | .parse => (v.convert Nesting.limit).map .data
  | _ => (v.display Nesting.limit).map .text

/-- What kind of fault it is that a value cannot be looked at. -/
def faultKind : Janet.ViewFault → FaultKind
  | .tooDeep => .recursion
  | _ => .type

/-- The signal for success. -/
def success : Int := 0

/-- The result of an evaluation that ended with a signal and a value, given the text that it
wrote. -/
def outcome (kind : RequestKind) (signal : Int) (v : Janet.Value) (c : Capture.Captured) :
    Except Janet.ViewFault Result :=
  if signal ≠ success then
    .ok { status := .error, stdout := c.stdout, stderr := c.stderr,
          fault := some ⟨.evaluation signal, v.nativeText⟩ }
  else
    (render kind v).map fun x =>
      { status := .success, value := some x, stdout := c.stdout, stderr := c.stderr }

end Evaluation

end JanetEmbedding
