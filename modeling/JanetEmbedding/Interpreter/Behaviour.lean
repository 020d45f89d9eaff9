import JanetEmbedding.Capture.Streams
import JanetEmbedding.Janet.Value
import JanetEmbedding.Text.Encoding

/-!
# What the interpreter does

All that the host can see of the interpreter: how it starts, and what it does with each source.
The same source may do something else each time.

## Main definitions

* `Interpreter.Program`: what an evaluation does.
* `Interpreter.Behaviour`: what the interpreter does.
* `Interpreter.Call`: the calls that the host makes, in the order of a trace.
-/

namespace JanetEmbedding.Interpreter

/-- What an evaluation does: it writes, waits at a gate, writes again, and ends with a value and a
signal, unless the host raises an exception. -/
structure Program where
  writes : List Write := []
  gate : Option String := none
  writesAfter : List Write := []
  raised : Option Text := none
  value : Janet.Value := .nil .usual
  signal : Int := 0

/-- How the interpreter starts. -/
inductive Start where
  | ok
  /-- The interpreter refuses. -/
  | refused
  /-- The interpreter starts, but has no environment. -/
  | noEnvironment
  /-- The host raises an exception. -/
  | raised (text : Text)
  deriving DecidableEq, Repr

/-- What the interpreter does. -/
structure Behaviour where
  /-- the programs of each source, for its first, second, … evaluation -/
  programs : List (String × List Program) := []
  /-- how the interpreter starts the first, second, … time -/
  starts : List Start := []

/-- An element of a list that goes on with its last one for ever. -/
def nth {α : Type} (xs : List α) (n : Nat) : Option α := xs[n]? <|> xs.getLast?

namespace Behaviour

/-- What an evaluation of a source does that has no program. -/
def unknown (source : String) : Program :=
  { value := .ofString ("unknown symbol " ++ source), signal := 1 }

/-- What an evaluation of a source does after it has been evaluated a number of times. -/
def program (b : Behaviour) (source : String) (before : Nat) : Program :=
  ((b.programs.lookup source).bind (nth · before)).getD (unknown source)

/-- How the interpreter starts after it has been started a number of times. -/
def start (b : Behaviour) (before : Nat) : Start := (nth b.starts before).getD .ok

end Behaviour

/-! ### Calls -/

/-- A call of the interpreter. -/
inductive Call where
  | init
  | environment
  /-- the evaluation of a source, under a name if it has one -/
  | evaluate (source : String) (path : Option String)
  | root
  /-- a look at the value of an evaluation -/
  | inspect
  | unroot
  | deinit
  deriving DecidableEq, Repr

namespace Call

/-- A source and its name as the interpreter takes them. An empty name counts as none. Either may be a
text that cannot be encoded; the name is looked at first. -/
def encoded (source : Text) (path : Option Text) :
    Except Text.EncodingFault (String × Option String) := do
  let path ← (path.filter (!·.isEmpty)).mapM Text.encodable
  return (← source.encodable, path)

/-- Whether a call evaluates a source. -/
def evaluates (source : String) : Call → Bool
  | evaluate s _ => s = source
  | _ => false

/-- The calls of whoever keeps a value from being collected while it makes some calls. -/
def rooted (calls : List Call) : List Call := .root :: calls ++ [.unroot]

/-- The number of values that are kept from being collected after some calls. -/
def kept (calls : List Call) : Nat := calls.countP (· = .root) - calls.countP (· = .unroot)

/-- The source and the name of an evaluation. -/
def evaluation? : Call → Option (String × Option String)
  | evaluate s path => some (s, path)
  | _ => none

end Call

end JanetEmbedding.Interpreter
