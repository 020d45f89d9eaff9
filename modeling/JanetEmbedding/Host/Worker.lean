import JanetEmbedding.Host.Basic

/-!
# What a worker does

A worker starts its interpreter, takes one item after the other from its queue, and ends the
interpreter when it is told to stop. A request takes three steps: it is picked up and the pipes for
its output are opened; when no other evaluation holds the descriptors, the interpreter evaluates it;
and when the interpreter is done, the request is finished.

## Main definitions

* `Host.startWorker`: the start.
* `Host.work?`: the next step, if the worker can do one.
-/

namespace JanetEmbedding.Host

open Interpreter (Call Program)

/-! ### The start -/

/-- Starts the interpreter of a worker; a fault if it does not start. -/
def startWorker (h : Host) (w : Nat) : Option Fault × Host :=
  let start := h.behaviour.start (h.calls.countP (· = .init))
  let h := h.noteCall w .init
  match start with
  | .ok =>
    (none, ((h.noteCall w .environment).setPhase w .serving).note .debug .runtime
      "janethost-vm serving")
  | .refused => fail h ⟨.initialization, "failed to initialize the janet runtime"⟩
  | .noEnvironment =>
    fail ((h.noteCall w .environment).noteCall w .deinit)
      ⟨.initialization, "failed to create janet environment"⟩
  | .raised text =>
    fail (h.note .error .runtime "janet bootstrap failed") ⟨.initialization, text⟩
where
  /-- The end of a worker that did not start. -/
  fail (h : Host) (f : Fault) : Option Fault × Host := (some f, h.setPhase w (.failed f))

/-! ### The end -/

/-- The result of a request that is still queued when its worker stops. -/
def closedBefore : Result := .failed ⟨.closed, "VM closed before the request ran"⟩

/-- Finishes a request that is still queued. -/
def refuseQueued (r : Request) : Request :=
  match r.progress with
  | .queued => r.finish closedBefore
  | _ => r

/-- Finishes what is left in a queue. -/
def failPending (h : Host) : List Item → Host
  | [] => h
  | .stop :: items => failPending h items
  | .request r :: items => failPending (h.updateRequest r refuseQueued) items

/-- A worker leaves its loop: what is left in its queue is refused, and the interpreter is ended. -/
def stop (h : Host) (w : Nat) (rest : List Item) : Host :=
  let h := (h.failPending rest).updateWorker w ({ · with queue := [], phase := .stopped })
  (h.noteCall w .deinit).note .debug .runtime "janethost-vm stopped"

/-! ### Requests -/

/-- Finishes a request, after which its worker is ready for the next one. If the caller has stopped
waiting, the log says so. -/
def deliver (h : Host) (w r : Nat) (request : Request) (result : Result) : Host :=
  let h := (h.updateRequest r (·.finish result)).setPhase w .serving
  if request.abandoned then
    h.note .warning .runtime
      s!"finished a {request.kind.name} request whose caller timed out; the VM is free again"
  else h

/-- The result of a request whose output cannot be captured. -/
def uncaptured (f : Capture.Fault) : Result := .failed ⟨.capture, f.message⟩

/-- Picks a request up and opens its pipes. One that has been withdrawn is passed over. -/
def pickUp (h : Host) (w r : Nat) (request : Request) : Host :=
  match request.progress with
  | .queued =>
    let h := h.updateRequest r ({ · with progress := .running })
    let (pipes, d) := Capture.openPipes { h.stdio.descriptors with refusal := h.refusal }
    let h := { h with
      refusal := {}
      stdio := { h.stdio with descriptors := { d with refusal := {} } } }
    match pipes with
    | .error f => h.deliver w r request (uncaptured f)
    | .ok p => h.setPhase w (.waiting r p d.refusal)
  | _ =>
    h.note .debug .runtime s!"skipping {request.kind.name} request abandoned before pickup"

/-- The result of a request whose handling came to an unexpected end, which the log tells. -/
def unexpected (h : Host) (w r : Nat) (request : Request) (f : Fault) : Host :=
  (h.note .error .runtime s!"unexpected failure while handling {request.kind.name} request").deliver
    w r request (.failed f)

/-- Takes hold of the descriptors and has the interpreter evaluate a request, up to the gate where
the evaluation waits. A source that cannot be encoded is not evaluated. -/
def evaluate (h : Host) (w r : Nat) (path : Option Text) (request : Request)
    (pipes : Capture.Pipes) (refusal : Refusal) : Host :=
  let d := { h.stdio.descriptors with refusal }
  let (session, stdio) := Capture.redirect {} pipes { h.stdio with descriptors := d }
  let h := { h with stdio := { stdio with descriptors := { stdio.descriptors with refusal := {} } } }
  match session with
  | .error f => h.deliver w r request (uncaptured f)
  | .ok session =>
    match Call.encoded request.source path with
    | .error f =>
      { h with stdio := (Capture.finish session h.stdio).2 }.unexpected w r request
        ⟨.encoding, f.message⟩
    | .ok (source, path) =>
      let program := h.behaviour.program source (h.calls.countP (Call.evaluates source))
      let h := h.noteCall w (.evaluate source path)
      { h with holder := some w, stdio := h.stdio.applyAll program.writes }.setPhase w
        (.evaluating r session program)

/-- Goes on with an evaluation behind its gate, lets go of the descriptors and finishes the request.
The value is kept from being collected while it is looked at. -/
def conclude (h : Host) (w r : Nat) (request : Request) (session : Capture.Session) (p : Program) :
    Host :=
  let (captured, stdio) := Capture.finish session (h.stdio.applyAll p.writesAfter)
  let h := { h with stdio, holder := none }
  match p.raised with
  | some text => h.unexpected w r request ⟨.runtime, text⟩
  | none =>
    let h := h.noteCalls w (Call.rooted [.inspect])
    match Evaluation.outcome request.kind p.signal p.value captured with
    | .ok result => h.deliver w r request result
    | .error f => h.unexpected w r request ⟨Evaluation.faultKind f, f.message⟩

/-! ### Steps -/

/-- Takes an item from the queue of a worker. -/
def take (h : Host) (w : Nat) (rest : List Item) : Item → Host
  | .stop => h.stop w rest
  | .request r =>
    let h := h.updateWorker w ({ · with queue := rest })
    match h.requests[r]? with
    | some request => h.pickUp w r request
    | none => h

/-- The next step of a worker, if it can do one. -/
def work? (h : Host) (w : Nat) : Option Host := do
  let worker ← h.workers[w]?
  match worker.phase with
  | .serving =>
    match worker.queue with
    | [] => none
    | item :: rest => return h.take w rest item
  | .waiting r pipes refusal =>
    let request ← h.requests[r]?
    if h.holder.isNone then return h.evaluate w r worker.sourcePath request pipes refusal else none
  | .evaluating r session program =>
    let request ← h.requests[r]?
    if h.isOpen program.gate then return h.conclude w r request session program else none
  | _ => none

end JanetEmbedding.Host
