import JanetEmbedding.Host.Handle
import JanetEmbedding.Host.Settle
import JanetEmbedding.Host.Waiting

/-!
# Whole calls

A call from beginning to end, with the workers doing in between what they can do. A caller waits with
its thread blocked, or as a task, which lets others go on while it waits. Neither can wait for any
length of time whatever. Whoever has no time limit waits for as long as it takes, and may wait for ever.

Gates may open while somebody waits, one after the other. With a time limit they are those that open
before the time is over.

## Main definitions

* `Outcome`: what comes of a call.
* `Host.awaitResult`: waiting for a result while gates open.
* `Host.awaitWithin`, `Host.callWithin`: waiting in a manner that has its limits.
* `Host.callTask`, `Host.callBlocking`: waiting as a task, and with a thread blocked.
* `Host.close`, `Host.closeShared`: closing.
* `Host.Status`: what can be seen of a handle.
-/

namespace JanetEmbedding

/-- What comes of a call, if one cannot wait for any length of time. -/
inductive Outcome (ε : Type) where
  | answered (r : Result)
  /-- It has ended with what its handle does not start for. -/
  | unstarted (f : Fault)
  /-- It has ended with why its caller cannot wait for so long. -/
  | unable (f : ε)
  /-- It has not ended: its caller waits for a request. -/
  | waiting (request : Nat)

/-- What the caller is told. -/
def Outcome.answer? {ε : Type} : Outcome ε → Option Result
  | answered x => some x
  | _ => none

namespace Host

/-- Waits for the result of a request while gates open one after the other, until there is a result or
nothing more happens. -/
def awaitResult (h : Host) (r : Nat) : List String → Option Result × Host
  | [] => (h.settle.result? r, h.settle)
  | gate :: gates =>
    match h.settle.result? r with
    | some x => (some x, h.settle)
    | none => (h.settle.openGate gate).awaitResult r gates

/-- Waits for the answer of a call in a manner that cannot wait for any length of time. It fails, and
the request goes its way, if the caller cannot wait for so long; and a length of time that is no number
is none. -/
def awaitWithin {ε : Type} (fault? : Seconds → Option ε) (h : Host) (patience : Option Seconds)
    (begun : Begun) (gates : List String) : Outcome ε × Host :=
  match begun, patience with
  | .answered x, _ => (.answered x, h)
  | .raised f, _ => (.unstarted f, h)
  | .accepted r, none =>
    match h.awaitResult r gates with
    | (some x, h) => (.answered x, h)
    | (none, h) => (.waiting r, h)
  | .accepted r, some (.real .nan) =>
    let (x, h) := h.giveUp r
    (.answered x, h.settle)
  | .accepted r, some t =>
    match fault? t with
    | some f => (.unable f, h.settle)
    | none =>
      match h.awaitResult r gates with
      | (some x, h) => (.answered x, h)
      | (none, h) =>
        let (x, h) := h.giveUp r
        (.answered x, h)

/-- How long the caller of a handle waits. -/
def patienceOf (h : Host) (id : Nat) (timeout : Option Seconds) : Option Seconds :=
  h.handles[id]?.bind fun handle => patience handle timeout

/-- A call that waits in a manner that cannot wait for any length of time. -/
def callWithin {ε : Type} (fault? : Seconds → Option ε) (h : Host) (id : Nat) (kind : RequestKind)
    (source : Text) (timeout : Option Seconds) (gates : List String) : Outcome ε × Host :=
  let (begun, h) := h.beginCall id kind source timeout
  h.awaitWithin fault? (h.patienceOf id timeout) begun gates

/-- Waits for the answer of a call with the thread blocked. -/
def awaitBlocking : Host → Option Seconds → Begun → List String → Outcome BlockFault × Host :=
  awaitWithin Seconds.blockFault?

/-- Waits for the answer of a call as a task, until a moment that has to be known. -/
def awaitTask : Host → Option Seconds → Begun → List String → Outcome DataError × Host :=
  awaitWithin Seconds.delayFault?

/-- A call with the thread blocked. -/
def callBlocking :
    Host → Nat → RequestKind → Text → Option Seconds → List String → Outcome BlockFault × Host :=
  callWithin Seconds.blockFault?

/-- A call as a task. -/
def callTask :
    Host → Nat → RequestKind → Text → Option Seconds → List String → Outcome DataError × Host :=
  callWithin Seconds.delayFault?

/-- Closes a handle: whether its worker has ended. It is waited for with the thread blocked, and not
at all if there is no time. -/
def close (h : Host) (id : Nat) (timeout : Option Seconds) : Except BlockFault Bool × Host :=
  let (worker, h) := h.requestClose id
  match worker, timeout.bind (·.joinFault?) with
  | some _, some f => (.error f, h.settle)
  | _, _ =>
    let h := if timeout.any (·.isOver) then h else h.settle
    let (ended, h) := h.answerClose worker timeout
    (.ok ended, h.settle)

/-- Closes the shared handle, if there is one. -/
def closeShared (h : Host) (timeout : Option Seconds) : Except BlockFault Bool × Host :=
  match h.shared with
  | some id => h.close id timeout
  | none => (.ok true, h)

/-! ### Status -/

/-- What can be seen of a handle. -/
structure Status where
  state : HandleState
  busy : Bool := false
  queued : Nat := 0
  deriving Repr

/-- The status of a handle. -/
def status? (h : Host) (id : Nat) : Option Status := do
  let handle ← h.handles[id]?
  match handle.state.worker?.bind (h.workers[·]?) with
  | some w => return ⟨handle.state, w.isBusy, w.queue.length⟩
  | none => return { state := handle.state }

end Host

end JanetEmbedding
