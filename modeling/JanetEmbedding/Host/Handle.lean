import JanetEmbedding.Config.Loading
import JanetEmbedding.Host.Worker

/-!
# What can be done with a handle

A handle is started, by itself or by its first call, called, and closed. A call waits for the result
of its request unless its time runs out; one that has no time at all is answered at once, and so are
one whose handle does not start and one on a closed handle. Only a start that fails with a fault that is not
the host's own is not answered: its caller is left with that.

Several steps are kept apart here, so that between any two of them workers and other callers may
act: a call begins, and then is answered or gives up; a handle is asked to close, and then its worker
has ended or not.

## Main definitions

* `Host.start`: the start of a handle.
* `Host.beginCall`, `Host.giveUp`: the beginning of a call, and its caller's impatience.
* `Host.requestClose`, `Host.answerClose`: closing.
* `Host.openRunning`, `Host.share`: handles from configurations, and the one that is shared.
-/

namespace JanetEmbedding.Host

/-! ### Starting -/

/-- Why there is no handle. -/
inductive HandleFault where
  /-- There is no configuration for it. -/
  | configuration (f : Config.Failure)
  /-- It does not start. -/
  | start (f : Fault)

/-- Makes a handle. -/
def addHandle (h : Host) (config : Config) (source : LibrarySource) : Nat × Host :=
  (h.handles.length, { h with handles := h.handles ++ [⟨config, source, .fresh⟩] })

/-- Makes a worker. -/
def addWorker (h : Host) (sourcePath : Option Text) : Nat × Host :=
  (h.workers.length, { h with workers := h.workers ++ [⟨sourcePath, [], .created⟩] })

/-- Gets hold of the library of a handle; a fault if there is none. -/
def acquireLibrary (h : Host) (handle : Handle) : Option Fault × Host :=
  match handle.source with
  | .given => (none, h)
  | .system =>
    match Interpreter.openFor h.system handle.config with
    | .error f => (some f.fault, h)
    | .ok b =>
      let h := h.note .debug .binding b.announcement
      match Interpreter.checkExports h.system b with
      | .error f => (some f.fault, h)
      | .ok _ => (none, h)

/-- Starts a handle that is fresh; a fault if it does not start, and then it stays fresh. -/
def startFresh (h : Host) (id : Nat) (handle : Handle) : Option Fault × Host :=
  match h.acquireLibrary handle with
  | (some f, h) => (some f, h)
  | (none, h) =>
    let (w, h) := h.addWorker handle.config.sourcePath
    match h.startWorker w with
    | (some f, h) => (some f, h)
    | (none, h) => (none, h.setHandleState id (.running w))

/-- Starts a handle; a fault if it does not start. -/
def start (h : Host) (id : Nat) : Option Fault × Host :=
  match h.handles[id]? with
  | none => (none, h)
  | some handle =>
    match handle.state with
    | .running _ => (none, h)
    | .closed _ => (some ⟨.closed, "VM has been closed; create a new one"⟩, h)
    | .fresh => h.startFresh id handle

/-! ### Calling -/

/-- What becomes of a call at its beginning. -/
inductive Begun where
  /-- It is answered at once. -/
  | answered (r : Result)
  /-- It ends without an answer: what its handle does not start for is raised. -/
  | raised (f : Fault)
  /-- It is accepted as a request. -/
  | accepted (request : Nat)

/-- What becomes of a call whose handle does not start. Of the host's own faults its caller is told. -/
def Begun.unstarted (f : Fault) : Begun := if f.kind.isHost then .answered (.failed f) else .raised f

/-- The answer to a call on a handle that is closed. -/
def closedAnswer : Result := .failed ⟨.closed, "VM is closed"⟩

/-- Queues a request, if the handle is running. -/
def submit (h : Host) (id : Nat) (kind : RequestKind) (source : Text) : Begun × Host :=
  match h.handles[id]?.bind (·.state.worker?) with
  | none => (.answered closedAnswer, h)
  | some w =>
    let r := h.requests.length
    let request : Request := { kind, source }
    (.accepted r, { h with requests := h.requests ++ [request] }.enqueue w (.request r))

/-- How long a caller waits: as long as it says, or else as long as its handle does. -/
def patience (handle : Handle) (timeout : Option Seconds) : Option Seconds :=
  timeout <|> handle.config.timeout

/-- The beginning of a call. -/
def beginCall (h : Host) (id : Nat) (kind : RequestKind) (source : Text)
    (timeout : Option Seconds) : Begun × Host :=
  match h.handles[id]? with
  | none => (.answered closedAnswer, h)
  | some handle =>
    if (patience handle timeout).any (·.isOver) then (.answered (.expired false), h)
    else
      match handle.state with
      | .fresh =>
        match h.start id with
        | (some f, h) => (.unstarted f, h)
        | (none, h) => h.submit id kind source
      | _ => h.submit id kind source

/-- The result of a request that is finished. -/
def result? (h : Host) (r : Nat) : Option Result := h.requests[r]?.bind (·.progress.result?)

/-- The caller of a request stops waiting: what it is told. -/
def giveUp (h : Host) (r : Nat) : Result × Host :=
  match h.requests[r]? with
  | none => (.expired false, h)
  | some request =>
    let (result, request) := request.giveUp
    (result, h.updateRequest r fun _ => request)

/-! ### Closing -/

/-- Marks a handle as closed. If it was the shared one, there is none any more. -/
def markClosed (h : Host) (id : Nat) (former : Option Nat) : Host :=
  let h := h.setHandleState id (.closed former)
  if h.shared = some id then { h with shared := none } else h

/-- Asks a handle to close: the worker to wait for, if there is one. A handle that is closed already
has none. -/
def requestClose (h : Host) (id : Nat) : Option Nat × Host :=
  match h.handles[id]? with
  | none => (none, h)
  | some handle =>
    match handle.state with
    | .running w => (some w, (h.markClosed id (some w)).enqueue w .stop)
    | .fresh => (none, h.markClosed id none)
    | .closed _ => (none, h)

/-- Whether a worker has ended. -/
def hasEnded (h : Host) (w : Nat) : Bool := h.workers[w]?.any (·.phase.hasEnded)

/-- What is answered to a request to close when the time to wait is over. -/
def answerClose (h : Host) (worker : Option Nat) (timeout : Option Seconds) : Bool × Host :=
  match worker with
  | none => (true, h)
  | some w =>
    if h.hasEnded w then (true, h)
    else
      let shown := (timeout.map Seconds.text).getD "None"
      (false, h.note .warning .runtime
        s!"VM worker still running an evaluation after close(timeout={shown})")

/-! ### Handles from configurations -/

/-- Makes a handle, if its configuration can be had. -/
def openFresh (h : Host) (config : Except Config.Failure Config) (source : LibrarySource) :
    Except HandleFault Nat × Host :=
  match config with
  | .error f => (.error (.configuration f), h)
  | .ok c =>
    let (id, h) := h.addHandle c source
    (.ok id, h)

/-- Makes a handle and starts it. -/
def openRunning (h : Host) (config : Except Config.Failure Config) (source : LibrarySource) :
    Except HandleFault Nat × Host :=
  match h.openFresh config source with
  | (.error f, h) => (.error f, h)
  | (.ok id, h) =>
    match h.start id with
    | (some f, h) => (.error (.start f), h)
    | (none, h) => (.ok id, h)

/-- The shared handle, which is made and started if there is none. If there is one, the configuration
is not looked at. -/
def share (h : Host) (config : Except Config.Failure Config) (source : LibrarySource) :
    Except HandleFault Nat × Host :=
  match h.shared with
  | some id => (.ok id, h)
  | none =>
    match h.openRunning config source with
    | (.ok id, h) => (.ok id, { h with shared := some id })
    | (.error f, h) => (.error f, h)

end JanetEmbedding.Host
