import JanetEmbedding.Host.Call
import Mathlib.Logic.Function.Basic

/-!
# Runs

Callers, closers and workers act on one host in any order. This module fixes what a **run** is: a list
of actions, each of which is one step of one of them, from any state of any number of interpreters. An
action that nobody can do at its turn changes nothing, so every list of actions is a run.

## Conventions

* A call takes several steps: it looks at its handle, starts it if it is fresh, queues its request,
  and then either receives the result or stops waiting. Between any two of them others may act.
* What the system refuses to the capture of a request is fixed for each caller beforehand, so that
  two runs can be compared in which a caller takes part in one of them only.
* The world keeps a ledger beside the host: the callers, and the **tickets** of the calls that were
  accepted, in order. The ticket of a request stands at the number of the request.

## Main definitions

* `Manner`, `Request.leave`: the two ways in which a caller stops waiting.
* `Caller`, `Standing`, `World`: the state of a run.
* `Act`, `World.step`, `World.run`: the actions, and what they do.
* `World.madeBy`: the calls of the interpreter that a run makes, each with its request.
-/

namespace JanetEmbedding

/-! ### Stopping to wait -/

/-- How a caller stops waiting. The time of a blocked thread runs out; or a task is ended, by its
time or because it is cancelled, and then the request has been asked to withdraw once already. -/
inductive Manner where
  | blocked
  | task
  deriving DecidableEq, Repr

namespace Request

/-- **Withdrawing** a request: whether it is withdrawn then. One that has been picked up is not. -/
def withdraw (r : Request) : Bool × Request :=
  match r.progress with
  | .queued => (true, { r with progress := .withdrawn })
  | .withdrawn => (true, r)
  | _ => (false, r)

/-- A caller turns away: it is told whether its request goes on, and leaves a mark on one that does. -/
def abandon (r : Request) : Result × Request :=
  let (withdrawn, r) := r.withdraw
  let stillRunning := !withdrawn && !r.progress.isSettled
  (.expired stillRunning, if stillRunning then { r with abandoned := true } else r)

/-- What a request becomes, and what its caller is told, when the caller stops waiting in some manner. -/
def leave (r : Request) : Manner → Result × Request
  | .blocked => r.abandon
  | .task => r.withdraw.2.abandon

/-- Both manners come to the same. -/
theorem leave_eq_giveUp (r : Request) (m : Manner) : r.leave m = r.giveUp := by
  obtain ⟨kind, source, progress, abandoned⟩ := r
  cases m <;> cases progress <;> rfl

end Request

namespace Host

/-- The caller of a request stops waiting in some manner: what it is told. -/
def leave (h : Host) (r : Nat) (m : Manner) : Result × Host :=
  match h.requests[r]? with
  | none => (.expired false, h)
  | some request =>
    let (result, request) := request.leave m
    (result, h.updateRequest r fun _ => request)

theorem leave_eq_giveUp (h : Host) (r : Nat) (m : Manner) : h.leave r m = h.giveUp r := by
  unfold leave giveUp
  cases h.requests[r]? with
  | none => rfl
  | some request => simp only [Request.leave_eq_giveUp]

/-- Where a request stands. -/
def progress? (h : Host) (r : Nat) : Option Progress := h.requests[r]?.map (·.progress)

/-- The request that a worker is handling. -/
def handled? (h : Host) (w : Nat) : Option Nat := h.workers[w]?.bind (·.phase.request?)

/-- The request that a worker takes next, if it is ready to take one. -/
def next? (h : Host) (w : Nat) : Option Nat :=
  match h.workers[w]? with
  | some { phase := .serving, queue := .request r :: _, .. } => some r
  | _ => none

end Host

/-! ### The state of a run -/

/-- Where a caller stands. -/
inductive Standing where
  /-- It has found its handle fresh, and is going to start it. -/
  | starting
  /-- It is going to queue its request. -/
  | submitting
  /-- It has been answered without a request. -/
  | dismissed (answer : Result)
  /-- Its call has ended without an answer: what its handle does not start for was raised. -/
  | raised (f : Fault)
  | waiting (request : Nat)
  /-- It has the result of its request. -/
  | served (request : Nat) (answer : Result)
  /-- It has stopped waiting for its request. -/
  | gone (request : Nat) (answer : Result)

namespace Standing

/-- The request of a caller, if its call was accepted. -/
def request? : Standing → Option Nat
  | waiting r => some r
  | served r _ => some r
  | gone r _ => some r
  | _ => none

/-- What a caller has been told. -/
def answer? : Standing → Option Result
  | dismissed x => some x
  | served _ x => some x
  | gone _ x => some x
  | _ => none

/-- Where a caller comes to stand whose handle does not start. -/
def unstarted (f : Fault) : Standing := if f.kind.isHost then dismissed (.failed f) else raised f

theorem unstarted_cases (f : Fault) : unstarted f = dismissed (.failed f) ∨ unstarted f = raised f := by
  unfold unstarted
  split
  · exact .inl rfl
  · exact .inr rfl

@[simp] theorem request?_unstarted (f : Fault) : (unstarted f).request? = none := by
  rcases unstarted_cases f with h | h <;> rw [h] <;> rfl

end Standing

/-- A **caller**: one call, from its beginning to its answer. -/
structure Caller where
  handle : Nat
  kind : RequestKind
  source : Text
  standing : Standing

/-- The **ticket** of a call that was accepted: whose it is, and on which handle. -/
structure Ticket where
  caller : Nat
  handle : Nat
  deriving DecidableEq, Repr

/-- The **state of a run**: the host, and a ledger of its callers. -/
structure World where
  host : Host
  callers : Nat → Option Caller := fun _ => none
  /-- the calls that were accepted, in the order of their requests -/
  tickets : List Ticket := []
  /-- what the system refuses to the capture for each caller -/
  refusals : Nat → Refusal := fun _ => {}

/-- What is given when a run begins: the library, the process and the rest of the system. -/
structure Circumstances where
  system : Interpreter.System := {}
  behaviour : Interpreter.Behaviour := {}
  stdio : Stdio := {}
  gates : List String := []
  refusals : Nat → Refusal := fun _ => {}

/-- What somebody does. -/
inductive Act where
  /-- A handle is made. -/
  | create (config : Config) (source : LibrarySource)
  /-- The shared handle is asked for. -/
  | share (config : Except Config.Failure Config) (source : LibrarySource)
  | start (handle : Nat)
  /-- A call begins with a look at its handle. -/
  | call (caller handle : Nat) (kind : RequestKind) (source : Text) (timeout : Option Seconds)
  /-- A caller goes on to start its handle, or to queue its request. -/
  | advance (caller : Nat)
  | receive (caller : Nat)
  | giveUp (caller : Nat) (manner : Manner)
  | close (handle : Nat)
  /-- Somebody who closed a handle is told whether its worker has ended. -/
  | answerClose (worker : Nat) (timeout : Option Seconds)
  | work (worker : Nat)
  | openGate (gate : String)

namespace Act

/-- The caller that does something. -/
def caller? : Act → Option Nat
  | call c .. => some c
  | advance c => some c
  | receive c => some c
  | giveUp c _ => some c
  | _ => none

/-- Whether a handle may be made. -/
def makesHandle : Act → Bool
  | create .. => true
  | share .. => true
  | _ => false

end Act

namespace World

/-! ### Steps -/

/-- The **beginning of a run**: no handle, no worker and no request. -/
def opening (e : Circumstances) : World :=
  { host := { system := e.system, behaviour := e.behaviour, stdio := e.stdio, gates := e.gates }
    refusals := e.refusals }

/-- Puts a caller where it stands. -/
def put (s : World) (c : Nat) (caller : Caller) (standing : Standing) : World :=
  { s with callers := Function.update s.callers c (some { caller with standing }) }

@[simp] theorem put_host (s : World) (c : Nat) (caller : Caller) (standing : Standing) :
    (s.put c caller standing).host = s.host := rfl

@[simp] theorem put_tickets (s : World) (c : Nat) (caller : Caller) (standing : Standing) :
    (s.put c caller standing).tickets = s.tickets := rfl

@[simp] theorem put_refusals (s : World) (c : Nat) (caller : Caller) (standing : Standing) :
    (s.put c caller standing).refusals = s.refusals := rfl

@[simp] theorem put_self (s : World) (c : Nat) (caller : Caller) (standing : Standing) :
    (s.put c caller standing).callers c = some { caller with standing } :=
  Function.update_self ..

theorem put_of_ne {c x : Nat} (h : x ≠ c) (s : World) (caller : Caller) (standing : Standing) :
    (s.put c caller standing).callers x = s.callers x :=
  Function.update_of_ne h ..

/-- Whoever is found after a caller has been put elsewhere is that caller, or stands where it stood. -/
theorem put_cases {s : World} {c x : Nat} {caller caller' : Caller} {standing : Standing}
    (h : (s.put c caller standing).callers x = some caller') :
    x = c ∧ caller' = { caller with standing } ∨ x ≠ c ∧ s.callers x = some caller' := by
  by_cases hx : x = c
  · subst hx
    exact .inl ⟨rfl, Option.some.inj (h.symm.trans (put_self ..))⟩
  · exact .inr ⟨hx, (put_of_ne hx ..).symm.trans h⟩

/-- A call begins. If its caller has no time it is answered at once, whatever the state of its handle. -/
def look (s : World) (c : Nat) (id : Nat) (kind : RequestKind) (source : Text)
    (timeout : Option Seconds) : World :=
  match s.callers c, s.host.handles[id]? with
  | none, some handle =>
    s.put c ⟨id, kind, source, .submitting⟩
      (if (Host.patience handle timeout).any (·.isOver) then .dismissed (.expired false)
      else match handle.state with
        | .fresh => .starting
        | _ => .submitting)
  | _, _ => s

/-- A caller goes on until it waits. -/
def advance (s : World) (c : Nat) : World :=
  match s.callers c with
  | none => s
  | some caller =>
    match caller.standing with
    | .starting =>
      match s.host.start caller.handle with
      | (some f, host) => { s with host }.put c caller (.unstarted f)
      | (none, host) => { s with host }.put c caller .submitting
    | .submitting =>
      match s.host.submit caller.handle caller.kind caller.source with
      | (.answered x, host) => { s with host }.put c caller (.dismissed x)
      | (.raised f, host) => { s with host }.put c caller (.raised f)
      | (.accepted r, host) =>
        let ticket : Ticket := ⟨c, caller.handle⟩
        { s with host, tickets := s.tickets ++ [ticket] }.put c caller (.waiting r)
    | _ => s

/-- A caller gets the result of its request, if there is one. -/
def receive (s : World) (c : Nat) : World :=
  match s.callers c with
  | none => s
  | some caller =>
    match caller.standing with
    | .waiting r =>
      match s.host.result? r with
      | some x => s.put c caller (.served r x)
      | none => s
    | _ => s

/-- A caller that waits stops waiting. -/
def giveUp (s : World) (c : Nat) (m : Manner) : World :=
  match s.callers c with
  | none => s
  | some caller =>
    match caller.standing with
    | .waiting r =>
      let (x, host) := s.host.leave r m
      { s with host }.put c caller (.gone r x)
    | _ => s

/-- What the system refuses to the capture for a request. -/
def refusalOf (s : World) (r : Nat) : Refusal :=
  (s.tickets[r]?.map fun t => s.refusals t.caller).getD {}

/-- The host with what the system refuses to the capture that a worker may be about to begin. -/
def braced (s : World) (w : Nat) : Host :=
  { s.host with refusal := ((s.host.next? w).map s.refusalOf).getD {} }

/-- A worker does its next step, if it can do one. -/
def work (s : World) (w : Nat) : World :=
  match (s.braced w).work? w with
  | some host => { s with host }
  | none => s

/-- What an action does. -/
def step (s : World) : Act → World
  | .create config source => { s with host := (s.host.addHandle config source).2 }
  | .share config source => { s with host := (s.host.share config source).2 }
  | .start id => { s with host := (s.host.start id).2 }
  | .call c id kind source timeout => s.look c id kind source timeout
  | .advance c => s.advance c
  | .receive c => s.receive c
  | .giveUp c m => s.giveUp c m
  | .close id => { s with host := (s.host.requestClose id).2 }
  | .answerClose w timeout => { s with host := (s.host.answerClose (some w) timeout).2 }
  | .work w => s.work w
  | .openGate gate => { s with host := s.host.openGate gate }

/-- A **run**: actions one after the other. -/
def run (s : World) (acts : List Act) : World := acts.foldl step s

@[simp] theorem run_nil (s : World) : s.run [] = s := rfl

@[simp] theorem run_cons (s : World) (a : Act) (acts : List Act) :
    s.run (a :: acts) = (s.step a).run acts := rfl

theorem run_append (s : World) (acts more : List Act) :
    s.run (acts ++ more) = (s.run acts).run more :=
  List.foldl_append

/-! ### What can be seen of a run -/

/-- What a caller has been told. -/
def answer? (s : World) (c : Nat) : Option Result := (s.callers c).bind (·.standing.answer?)

/-- The calls of the interpreter that an action makes, each with the request that its worker handles. -/
def made (s : World) (a : Act) : List (Option Nat × Interpreter.Call) :=
  ((s.step a).host.trace.drop s.host.trace.length).map fun (w, call) => (s.host.handled? w, call)

/-- The calls of the interpreter that a run makes. -/
def madeBy (s : World) : List Act → List (Option Nat × Interpreter.Call)
  | [] => []
  | a :: acts => s.made a ++ (s.step a).madeBy acts

theorem madeBy_append (s : World) (acts more : List Act) :
    s.madeBy (acts ++ more) = s.madeBy acts ++ (s.run acts).madeBy more := by
  induction acts generalizing s with
  | nil => rfl
  | cons a acts ih => simp only [List.cons_append, madeBy, ih, run_cons, List.append_assoc]

/-! ### Calls in one go -/

/-- A call whose steps follow one another at once does to the host what a call does that begins in
one step. -/
theorem host_run_call {s : World} {c id : Nat} {handle : Handle} (hnew : s.callers c = none)
    (hhandle : s.host.handles[id]? = some handle) (kind : RequestKind) (source : Text)
    (timeout : Option Seconds) :
    (s.run [.call c id kind source timeout, .advance c, .advance c]).host =
      (s.host.beginCall id kind source timeout).2 := by
  simp only [run_cons, run_nil, step, look, hnew, hhandle, Host.beginCall]
  by_cases hover : (Host.patience handle timeout).any (·.isOver)
  · simp [hover, advance, put]
  · cases hstate : handle.state with
    | fresh =>
        rcases hstart : s.host.start id with ⟨_ | f, h⟩
        · rcases hsubmit : h.submit id kind source with ⟨_ | _ | r, h'⟩ <;>
            simp [hover, hstart, hsubmit, advance, put]
        · cases hhost : f.kind.isHost <;>
            simp [hover, hstart, hhost, Standing.unstarted, advance, put]
    | running w | closed w =>
        rcases hsubmit : s.host.submit id kind source with ⟨_ | _ | r, h'⟩ <;>
          simp [hover, hsubmit, advance, put]

end World

end JanetEmbedding
