import JanetEmbedding.Host.Log
import JanetEmbedding.Host.Request
import JanetEmbedding.Interpreter.Binding

/-!
# The state of the host

A host runs any number of interpreters. Each has one worker, which alone calls it and takes its
requests from a queue, and is used through a handle. All of them share the two descriptors that
evaluations write to, which only one evaluation at a time can hold.

## Main definitions

* `Worker`, `Phase`: a worker, and what it is doing.
* `Handle`, `HandleState`: a handle on an interpreter.
* `Host`: the state.
-/

namespace JanetEmbedding

/-- What a worker is doing. -/
inductive Phase where
  /-- It has not called the interpreter yet. -/
  | created
  /-- It is ready for the next item of its queue. -/
  | serving
  /-- It has opened the pipes for a request and waits for the descriptors. -/
  | waiting (request : Nat) (pipes : Capture.Pipes) (refusal : Refusal)
  /-- It holds the descriptors, and the interpreter evaluates a request. -/
  | evaluating (request : Nat) (session : Capture.Session) (program : Interpreter.Program)
  /-- It has left its loop and ended the interpreter. -/
  | stopped
  /-- The interpreter could not be started. -/
  | failed (f : Fault)

namespace Phase

/-- The request that has been picked up and is not finished. -/
def request? : Phase → Option Nat
  | waiting r _ _ => some r
  | evaluating r _ _ => some r
  | _ => none

/-- Whether a worker will never do anything again. -/
def hasEnded : Phase → Bool
  | stopped => true
  | failed _ => true
  | _ => false

end Phase

/-- A worker: the one caller of its interpreter. -/
structure Worker where
  /-- what the source of an evaluation is called -/
  sourcePath : Option Text
  queue : List Item := []
  phase : Phase := .created

namespace Worker

/-- Whether a request has been picked up and is not finished. -/
def isBusy (w : Worker) : Bool := w.phase.request?.isSome

end Worker

/-- Where the library of an interpreter comes from. -/
inductive LibrarySource where
  /-- It is given. -/
  | given
  /-- It is looked for and opened at each start. -/
  | system
  deriving DecidableEq, Repr

/-- Where a handle stands. -/
inductive HandleState where
  | fresh
  | running (worker : Nat)
  /-- It is closed; `former` is the worker that it had. -/
  | closed (former : Option Nat)
  deriving DecidableEq, Repr

namespace HandleState

/-- The name of a state. -/
def name : HandleState → String
  | fresh => "uninitialized"
  | running _ => "running"
  | closed _ => "closed"

/-- Whether a handle is closed. -/
def isClosed : HandleState → Bool
  | closed _ => true
  | _ => false

/-- The worker of a handle that is running. -/
def worker? : HandleState → Option Nat
  | running w => some w
  | _ => none

end HandleState

/-- A handle on an interpreter. -/
structure Handle where
  config : Config
  source : LibrarySource
  state : HandleState := .fresh
  deriving DecidableEq

/-- The state of a host. Workers, requests and handles are numbered in the order in which they came
to be. -/
structure Host where
  system : Interpreter.System := {}
  behaviour : Interpreter.Behaviour := {}
  /-- the calls of the interpreter so far, each with the worker that made it -/
  trace : List (Nat × Interpreter.Call) := []
  stdio : Stdio := {}
  /-- what the system is going to refuse to the next capture -/
  refusal : Refusal := {}
  /-- the worker that holds the descriptors -/
  holder : Option Nat := none
  /-- the gates that are open -/
  gates : List String := []
  workers : List Worker := []
  requests : List Request := []
  handles : List Handle := []
  /-- the handle that is shared by all that ask for it -/
  shared : Option Nat := none
  log : List Log.Record := []

namespace Host

/-! ### Parts of the state -/

/-- Notes a call of the interpreter. -/
def noteCall (h : Host) (w : Nat) (c : Interpreter.Call) : Host :=
  { h with trace := h.trace ++ [(w, c)] }

/-- Notes calls of the interpreter, one after the other. -/
def noteCalls (h : Host) (w : Nat) (cs : List Interpreter.Call) : Host :=
  { h with trace := h.trace ++ cs.map (w, ·) }

/-- Whether the interpreter has been called by anyone but a worker. -/
def calledElsewhere (h : Host) : Bool := h.trace.any fun (w, _) => h.workers[w]?.isNone

/-- Makes a log record. -/
def note (h : Host) (level : Log.Level) (origin : Log.Origin) (message : Text) : Host :=
  { h with log := h.log ++ [⟨level, origin, message, h.holder.isSome⟩] }

/-- Changes a worker. -/
def updateWorker (h : Host) (w : Nat) (f : Worker → Worker) : Host :=
  { h with workers := h.workers.modify w f }

/-- Sets what a worker is doing. -/
def setPhase (h : Host) (w : Nat) (p : Phase) : Host := h.updateWorker w ({ · with phase := p })

/-- Puts an item at the end of the queue of a worker. -/
def enqueue (h : Host) (w : Nat) (item : Item) : Host :=
  h.updateWorker w fun worker => { worker with queue := worker.queue ++ [item] }

/-- Changes a request. -/
def updateRequest (h : Host) (r : Nat) (f : Request → Request) : Host :=
  { h with requests := h.requests.modify r f }

/-- Sets where a handle stands. -/
def setHandleState (h : Host) (id : Nat) (s : HandleState) : Host :=
  { h with handles := h.handles.modify id ({ · with state := s }) }

/-- Whether a gate is open, which it is if there is none. -/
def isOpen (h : Host) (gate : Option String) : Bool := gate.all h.gates.contains

/-- The calls of a worker, in order. -/
def callsOf (h : Host) (w : Nat) : List Interpreter.Call :=
  (h.trace.filter (·.1 = w)).map (·.2)

/-- All calls, in order. -/
def calls (h : Host) : List Interpreter.Call := h.trace.map (·.2)

end Host

end JanetEmbedding
