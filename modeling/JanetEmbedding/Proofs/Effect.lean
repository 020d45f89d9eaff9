import JanetEmbedding.Proofs.World

/-!
# What a step of a worker does

The steps of a worker are one function of the host that branches many times, and so is the start of
a handle. This module says once what they can come to: `Host.Does` has one constructor for each
thing that a worker does, with what led to it and with the host that results, and `Host.Starts` does
the same for a start. Every later fact on them is a case analysis.

## Main results

* `Host.does_of_work?`: a step of a worker is one of the things that a worker does.
* `Host.rests_of_work?`: why a worker has no step.
* `Host.settle_induction`: what is kept when a host settles.
* `Host.starts_start`: what the start of a handle comes to.
-/

namespace JanetEmbedding

/-- The request of an item, unless it is the order to stop. -/
def Item.request? : Item → Option Nat
  | request r => some r
  | stop => none

@[simp] theorem Item.request?_request (r : Nat) : (Item.request r).request? = some r := rfl

@[simp] theorem Item.request?_stop : Item.stop.request? = none := rfl

/-- A process whose system is going to refuse some calls. -/
def Stdio.refusing (s : Stdio) (r : Refusal) : Stdio :=
  { s with descriptors := { s.descriptors with refusal := r } }

/-- A process with other descriptors, whose system refuses nothing any more. -/
def Stdio.having (s : Stdio) (d : Descriptors) : Stdio :=
  { s with descriptors := { d with refusal := {} } }

/-- The result of a program that has ended, given the text that was captured. -/
def Interpreter.Program.result (p : Interpreter.Program) (kind : RequestKind)
    (c : Capture.Captured) : Result :=
  match p.raised with
  | some text => .failed ⟨.runtime, text⟩
  | none =>
    match Evaluation.outcome kind p.signal p.value c with
    | .ok x => x
    | .error f => .failed ⟨Evaluation.faultKind f, f.message⟩

/-- The calls of the interpreter that follow the end of a program: a look at its value, if it has one. -/
def Interpreter.Program.looks (p : Interpreter.Program) : List Interpreter.Call :=
  if p.raised.isSome then [] else Interpreter.Call.rooted [.inspect]

/-- The calls of the interpreter that a start makes. If there is no environment, the interpreter is
ended at once. -/
def Interpreter.Start.calls : Interpreter.Start → List Interpreter.Call
  | .ok => [.init, .environment]
  | .refused => [.init]
  | .noEnvironment => [.init, .environment, .deinit]
  | .raised _ => [.init]

namespace Host

open Interpreter (Call Program)

/-- How the request that a worker holds comes to its **result**: with the process that is left
behind and the calls of the interpreter. -/
inductive Ends (h : Host) (path : Option Text) (request : Request) :
    Phase → Result → Stdio → List Call → Prop
  /-- The descriptors could not be redirected. -/
  | unredirected {r : Nat} {pipes : Capture.Pipes} {refusal : Refusal} {f : Capture.Fault}
      {stdio : Stdio} (hholder : h.holder = none)
      (hredirect : Capture.redirect {} pipes (h.stdio.refusing refusal) = (.error f, stdio)) :
      Ends h path request (.waiting r pipes refusal) (uncaptured f) (stdio.refusing {}) []
  /-- The source could not be encoded. -/
  | unencoded {r : Nat} {pipes : Capture.Pipes} {refusal : Refusal} {session : Capture.Session}
      {stdio : Stdio} {f : Text.EncodingFault} (hholder : h.holder = none)
      (hredirect : Capture.redirect {} pipes (h.stdio.refusing refusal) = (.ok session, stdio))
      (hencoded : Call.encoded request.source path = .error f) :
      Ends h path request (.waiting r pipes refusal) (.failed ⟨.encoding, f.message⟩)
        (Capture.finish session (stdio.refusing {})).2 []
  /-- The program has ended. -/
  | concluded {r : Nat} {session : Capture.Session} {p : Program} {captured : Capture.Captured}
      {stdio : Stdio}
      (hfinish : Capture.finish session (h.stdio.applyAll p.writesAfter) = (captured, stdio)) :
      Ends h path request (.evaluating r session p) (p.result request.kind captured) stdio p.looks

/-- What a worker **does** in one step, with the host that results. -/
inductive Does (h : Host) (w : Nat) (worker : Worker) : Host → Prop
  /-- It leaves its loop. -/
  | leave {rest : List Item} (log : List Log.Record) (hphase : worker.phase = .serving)
      (hqueue : worker.queue = .stop :: rest) :
      Does h w worker { h with
        workers := h.workers.modify w ({ · with queue := [], phase := .stopped })
        requests := (h.failPending rest).requests
        trace := h.trace ++ [(w, .deinit)]
        log }
  /-- It passes a request over that is no longer queued. -/
  | pass {r : Nat} {rest : List Item} (log : List Log.Record) (hphase : worker.phase = .serving)
      (hqueue : worker.queue = .request r :: rest) (hprogress : h.progress? r ≠ some .queued) :
      Does h w worker { h with
        workers := h.workers.modify w ({ · with queue := rest })
        log }
  /-- It picks a request up, and opens the pipes. -/
  | pickUp {r : Nat} {rest : List Item} {pipes : Capture.Pipes} {d : Descriptors}
      (hphase : worker.phase = .serving) (hqueue : worker.queue = .request r :: rest)
      (hprogress : h.progress? r = some .queued)
      (hpipes : Capture.openPipes (h.stdio.refusing h.refusal).descriptors = (.ok pipes, d)) :
      Does h w worker { h with
        workers := h.workers.modify w ({ · with queue := rest, phase := .waiting r pipes d.refusal })
        requests := h.requests.modify r ({ · with progress := .running })
        stdio := h.stdio.having d
        refusal := {} }
  /-- It picks a request up, but cannot open the pipes, which is the result. -/
  | refuse {r : Nat} {rest : List Item} {f : Capture.Fault} {d : Descriptors}
      (log : List Log.Record) (hphase : worker.phase = .serving)
      (hqueue : worker.queue = .request r :: rest) (hprogress : h.progress? r = some .queued)
      (hpipes : Capture.openPipes (h.stdio.refusing h.refusal).descriptors = (.error f, d)) :
      Does h w worker { h with
        workers := h.workers.modify w ({ · with queue := rest, phase := .serving })
        requests := h.requests.modify r (·.finish (uncaptured f))
        stdio := h.stdio.having d
        refusal := {}
        log }
  /-- It takes hold of the descriptors, and the interpreter evaluates the request. -/
  | evaluate {r : Nat} {pipes : Capture.Pipes} {refusal : Refusal} {request : Request}
      {session : Capture.Session} {stdio : Stdio} {source : String} {path : Option String}
      {p : Program} (hphase : worker.phase = .waiting r pipes refusal)
      (hrequest : h.requests[r]? = some request) (hholder : h.holder = none)
      (hredirect : Capture.redirect {} pipes (h.stdio.refusing refusal) = (.ok session, stdio))
      (hencoded : Call.encoded request.source worker.sourcePath = .ok (source, path))
      (hprogram : p = h.behaviour.program source (h.calls.countP (Call.evaluates source))) :
      Does h w worker { h with
        workers := h.workers.modify w ({ · with phase := .evaluating r session p })
        stdio := (stdio.refusing {}).applyAll p.writes
        holder := some w
        trace := h.trace ++ [(w, .evaluate source path)] }
  /-- It finishes the request that it holds. -/
  | finish {r : Nat} {request : Request} {x : Result} {stdio : Stdio} {calls : List Call}
      (log : List Log.Record) (hheld : worker.phase.request? = some r)
      (hrequest : h.requests[r]? = some request)
      (hends : Ends h worker.sourcePath request worker.phase x stdio calls) :
      Does h w worker { h with
        workers := h.workers.modify w ({ · with phase := .serving })
        requests := h.requests.modify r (·.finish x)
        stdio
        holder := none
        trace := h.trace ++ calls.map (w, ·)
        log }

theorem length_failPending (h : Host) (items : List Item) :
    (h.failPending items).requests.length = h.requests.length := by
  induction items generalizing h with
  | nil => rfl
  | cons item items ih =>
      cases item with
      | stop => exact ih h
      | request r => exact (ih (h.updateRequest r refuseQueued)).trans (List.length_modify ..)

/-- A worker that does something has not ended. -/
theorem Does.hasEnded_eq_false {h h' : Host} {w : Nat} {worker : Worker} (hdoes : Does h w worker h') :
    worker.phase.hasEnded = false := by
  cases hdoes with
  | leave log hphase => rw [hphase]; rfl
  | pass log hphase => rw [hphase]; rfl
  | pickUp hphase => rw [hphase]; rfl
  | refuse log hphase => rw [hphase]; rfl
  | evaluate hphase => rw [hphase]; rfl
  | finish log hheld =>
      cases hphase : worker.phase <;> rw [hphase] at hheld <;> first | rfl | cases hheld

/-- Workers make no requests. -/
theorem Does.length_requests {h h' : Host} {w : Nat} {worker : Worker} (hdoes : Does h w worker h') :
    h'.requests.length = h.requests.length := by
  cases hdoes with
  | leave => exact length_failPending ..
  | pass | evaluate => rfl
  | pickUp | refuse | finish => exact List.length_modify ..

/-! ### The parts of a step -/

theorem failPending_eq (h : Host) (items : List Item) :
    h.failPending items = { h with requests := (h.failPending items).requests } := by
  induction items generalizing h with
  | nil => rfl
  | cons item items ih =>
      cases item with
      | stop => exact ih h
      | request r => exact ih (h.updateRequest r refuseQueued)

theorem deliver_eq (h : Host) (w r : Nat) (request : Request) (x : Result) :
    ∃ log, h.deliver w r request x = { h with
      workers := h.workers.modify w ({ · with phase := .serving })
      requests := h.requests.modify r (·.finish x)
      log } := by
  unfold deliver
  split
  · exact ⟨_, rfl⟩
  · exact ⟨_, rfl⟩

theorem unexpected_eq (h : Host) (w r : Nat) (request : Request) (f : Fault) :
    ∃ log, h.unexpected w r request f = { h with
      workers := h.workers.modify w ({ · with phase := .serving })
      requests := h.requests.modify r (·.finish (.failed f))
      log } := by
  obtain ⟨log, heq⟩ := deliver_eq (h.note .error .runtime
    s!"unexpected failure while handling {request.kind.name} request") w r request (.failed f)
  exact ⟨log, heq⟩

/-- Leaving the loop. -/
theorem does_stop {h : Host} {w : Nat} {worker : Worker} {rest : List Item}
    (hphase : worker.phase = .serving) (hqueue : worker.queue = .stop :: rest) :
    Does h w worker (h.stop w rest) := by
  have heq := Does.leave (h := h) (w := w) (h.stop w rest).log hphase hqueue
  unfold stop at heq ⊢
  rw [failPending_eq] at heq ⊢
  exact heq

/-- Picking a request up, or passing it over. -/
theorem does_pickUp {h : Host} {w r : Nat} {worker : Worker} {rest : List Item} {request : Request}
    (hphase : worker.phase = .serving) (hqueue : worker.queue = .request r :: rest)
    (hrequest : h.requests[r]? = some request) :
    Does h w worker ((h.updateWorker w ({ · with queue := rest })).pickUp w r request) := by
  have hprogress : h.progress? r = some request.progress := by simp [progress?, hrequest]
  unfold pickUp
  split
  next hqueued =>
    rw [hqueued] at hprogress
    dsimp only
    split
    next f hpipes =>
      obtain ⟨log, heq⟩ := deliver_eq _ w r request (uncaptured f)
      have hdoes := Does.refuse (w := w) log hphase hqueue hprogress (Prod.ext hpipes rfl)
      rw [heq]
      simp only [updateWorker, updateRequest, List.modify_modify_eq] at hdoes ⊢
      exact hdoes
    next p hpipes =>
      have hdoes := Does.pickUp (w := w) hphase hqueue hprogress (Prod.ext hpipes rfl)
      simp only [setPhase, updateWorker, updateRequest, List.modify_modify_eq] at hdoes ⊢
      exact hdoes
  next hother =>
    exact .pass _ hphase hqueue (by rw [hprogress]; simpa using hother)

/-- Redirecting the descriptors for a request, and evaluating it. -/
theorem does_evaluate {h : Host} {w r : Nat} {worker : Worker} {request : Request}
    {pipes : Capture.Pipes} {refusal : Refusal} (hphase : worker.phase = .waiting r pipes refusal)
    (hrequest : h.requests[r]? = some request) (hholder : h.holder = none) :
    Does h w worker (h.evaluate w r worker.sourcePath request pipes refusal) := by
  have hheld : worker.phase.request? = some r := by rw [hphase]; rfl
  unfold evaluate
  dsimp only
  split
  next f hredirect =>
    have hends : Ends h worker.sourcePath request (.waiting r pipes refusal) _ _ [] :=
      .unredirected hholder (Prod.ext hredirect rfl)
    rw [← hphase] at hends
    obtain ⟨log, heq⟩ := deliver_eq _ w r request (uncaptured f)
    have hdoes := Does.finish (w := w) log hheld hrequest hends
    rw [heq]
    simp only [hholder, List.map_nil, List.append_nil] at hdoes ⊢
    exact hdoes
  next session hredirect =>
    split
    next f hencoded =>
      have hends := Ends.unencoded (r := r) hholder (Prod.ext hredirect rfl) hencoded
      rw [← hphase] at hends
      obtain ⟨log, heq⟩ := unexpected_eq _ w r request ⟨.encoding, f.message⟩
      have hdoes := Does.finish (w := w) log hheld hrequest hends
      rw [heq]
      simp only [hholder, List.map_nil, List.append_nil] at hdoes ⊢
      exact hdoes
    next source path hencoded =>
      exact .evaluate hphase hrequest hholder (Prod.ext hredirect rfl) hencoded rfl

/-- Ending an evaluation. -/
theorem does_conclude {h : Host} {w r : Nat} {worker : Worker} {request : Request}
    {session : Capture.Session} {p : Program} (hphase : worker.phase = .evaluating r session p)
    (hrequest : h.requests[r]? = some request) :
    Does h w worker (h.conclude w r request session p) := by
  have hheld : worker.phase.request? = some r := by rw [hphase]; rfl
  unfold conclude
  rcases hfinish : Capture.finish session (h.stdio.applyAll p.writesAfter) with ⟨captured, stdio⟩
  have hends : Ends h worker.sourcePath request (.evaluating r session p) _ _ _ := .concluded hfinish
  rw [← hphase] at hends
  have hdoes := fun log => Does.finish (w := w) log hheld hrequest hends
  dsimp only
  split
  next text hraised =>
    obtain ⟨log, heq⟩ := unexpected_eq _ w r request ⟨.runtime, text⟩
    specialize hdoes log
    simp only [Program.result, Program.looks, hraised, Option.isSome_some, if_true, List.map_nil,
      List.append_nil] at hdoes
    rw [heq]
    exact hdoes
  next hraised =>
    split
    next x houtcome =>
      obtain ⟨log, heq⟩ := deliver_eq _ w r request x
      specialize hdoes log
      simp only [Program.result, Program.looks, hraised, houtcome, Option.isSome_none,
        Bool.false_eq_true, if_false] at hdoes
      rw [heq]
      exact hdoes
    next f houtcome =>
      obtain ⟨log, heq⟩ := unexpected_eq _ w r request ⟨Evaluation.faultKind f, f.message⟩
      specialize hdoes log
      simp only [Program.result, Program.looks, hraised, houtcome, Option.isSome_none,
        Bool.false_eq_true, if_false] at hdoes
      rw [heq]
      exact hdoes

/-- **What a worker does.** A step of a worker is one of the things that a worker does. -/
theorem does_of_work? {h h' : Host} {w : Nat} (hstep : h.work? w = some h') :
    ∃ worker, h.workers[w]? = some worker ∧ Does h w worker h' := by
  unfold work? at hstep
  simp only [Option.bind_eq_bind, Option.bind_eq_some_iff] at hstep
  obtain ⟨worker, hworker, hstep⟩ := hstep
  refine ⟨worker, hworker, ?_⟩
  split at hstep
  next hphase =>
    split at hstep
    next => cases hstep
    next item rest hqueue =>
      obtain rfl := Option.some.inj hstep
      cases item with
      | stop => exact does_stop hphase hqueue
      | request r =>
          unfold take
          dsimp only
          split
          next request hrequest => exact does_pickUp hphase hqueue hrequest
          next hnone =>
            have hnone : h.requests[r]? = none := hnone
            exact .pass _ hphase hqueue (by simp [progress?, hnone])
  next r pipes refusal hphase =>
    obtain ⟨request, hrequest, hstep⟩ := Option.bind_eq_some_iff.mp hstep
    split at hstep
    next hholder =>
      obtain rfl := Option.some.inj hstep
      exact does_evaluate hphase hrequest (Option.isNone_iff_eq_none.mp hholder)
    next => cases hstep
  next r session p hphase =>
    obtain ⟨request, hrequest, hstep⟩ := Option.bind_eq_some_iff.mp hstep
    split at hstep
    next hopen =>
      obtain rfl := Option.some.inj hstep
      exact does_conclude hphase hrequest
    next => cases hstep
  next => cases hstep

/-! ### Workers without a step -/

/-- Why a worker **rests**. -/
inductive Rests (h : Host) (worker : Worker) : Prop
  | created (hphase : worker.phase = .created)
  | ended (hphase : worker.phase.hasEnded)
  /-- There is nothing in its queue. -/
  | empty (hphase : worker.phase = .serving) (hqueue : worker.queue = [])
  /-- Another evaluation holds the descriptors. -/
  | crowded {r : Nat} {pipes : Capture.Pipes} {refusal : Refusal}
      (hphase : worker.phase = .waiting r pipes refusal) (hholder : h.holder ≠ none)
  /-- Its evaluation stands at a gate that is closed. -/
  | gated {r : Nat} {session : Capture.Session} {p : Program}
      (hphase : worker.phase = .evaluating r session p) (hgate : h.isOpen p.gate = false)

/-- A worker that has no step rests, provided that the request that it holds exists. -/
theorem rests_of_work? {h : Host} {w : Nat} {worker : Worker} (hworker : h.workers[w]? = some worker)
    (hheld : ∀ r, worker.phase.request? = some r → (h.requests[r]?).isSome)
    (hquiet : h.work? w = none) : Rests h worker := by
  simp only [work?, hworker, Option.bind_eq_bind, Option.bind_some] at hquiet
  split at hquiet
  next hphase =>
    split at hquiet
    next hqueue => exact .empty hphase hqueue
    next => cases hquiet
  next r pipes refusal hphase =>
    obtain ⟨request, hrequest⟩ := Option.isSome_iff_exists.mp (hheld r (by rw [hphase]; rfl))
    rw [hrequest, Option.bind_some] at hquiet
    split at hquiet
    next => cases hquiet
    next hholder => exact .crowded hphase (by simpa using hholder)
  next r session p hphase =>
    obtain ⟨request, hrequest⟩ := Option.isSome_iff_exists.mp (hheld r (by rw [hphase]; rfl))
    rw [hrequest, Option.bind_some] at hquiet
    split at hquiet
    next => cases hquiet
    next hgate => exact .gated hphase (by simpa using hgate)
  next hserving hwaiting hevaluating =>
    cases hphase : worker.phase with
    | created => exact .created hphase
    | serving => exact absurd hphase hserving
    | waiting r pipes refusal => exact absurd hphase (hwaiting r pipes refusal)
    | evaluating r session p => exact absurd hphase (hevaluating r session p)
    | stopped => exact .ended (by rw [hphase]; rfl)
    | failed f => exact .ended (by rw [hphase]; rfl)

/-- Whether a worker has a step does not depend on what the system refuses. -/
theorem isSome_work?_refusal (h : Host) (w : Nat) (refusal : Refusal) :
    (({ h with refusal } : Host).work? w).isSome = (h.work? w).isSome := by
  simp only [work?, Option.bind_eq_bind]
  cases h.workers[w]? with
  | none => rfl
  | some worker =>
      obtain ⟨sourcePath, queue, phase⟩ := worker
      simp only [Option.bind_some]
      cases phase with
      | created | stopped | failed => rfl
      | serving => cases queue <;> rfl
      | waiting r pipes refusal' =>
          dsimp only
          cases h.requests[r]? with
          | none => rfl
          | some request => cases h.holder <;> rfl
      | evaluating r session p =>
          dsimp only
          cases h.requests[r]? with
          | none => rfl
          | some request =>
              cases hopen : h.isOpen p.gate <;> simp_all [isOpen]

/-! ### Settling -/

/-- What everything that a worker does keeps is kept when a host settles. -/
theorem settle_induction {P : Host → Prop}
    (hstep : ∀ {h h' : Host} {w : Nat} {worker : Worker}, P h → h.workers[w]? = some worker →
      Does h w worker h' → P h') {h : Host} (hp : P h) : P h.settle := by
  unfold settle
  generalize h.remaining = n
  induction n generalizing h with
  | zero => exact hp
  | succ n ih =>
      unfold settleWithin
      split
      next h' hany =>
        obtain ⟨w, -, hwork⟩ := List.exists_of_findSome?_eq_some hany
        obtain ⟨worker, hworker, hdoes⟩ := does_of_work? hwork
        exact ih (hstep hp hworker hdoes)
      next => exact hp

/-! ### Starts -/

/-- How the interpreter is going to start the next time. -/
def nextStart (h : Host) : Interpreter.Start := h.behaviour.start (h.calls.countP (· = .init))

/-- What the **start** of a handle comes to: a fault, unless the handle runs then, and the host. -/
inductive Starts (h : Host) (id : Nat) : Option Fault → Host → Prop
  /-- There is no worker to be made; if nothing is wrong, the handle is not fresh. -/
  | stays (f : Option Fault) (log : List Log.Record) (hfault : ∀ x ∈ f, .failed x ≠ closedBefore)
      (hstarted : f = none → ∀ handle ∈ h.handles[id]?, handle.state ≠ .fresh) :
      Starts h id f { h with log }
  /-- The worker that is made fails. -/
  | fails {handle : Handle} {f : Fault} {calls : List Call} (log : List Log.Record)
      (hhandle : h.handles[id]? = some handle) (hstate : handle.state = .fresh)
      (hcalls : ∀ call ∈ calls, call.evaluation? = none) (hfault : .failed f ≠ closedBefore)
      (hnext : calls = h.nextStart.calls) (hfails : h.nextStart ≠ .ok) :
      Starts h id (some f) { h with
        workers := h.workers ++ [⟨handle.config.sourcePath, [], .failed f⟩]
        trace := h.trace ++ calls.map (h.workers.length, ·)
        log }
  /-- The worker that is made serves. -/
  | serves {handle : Handle} (log : List Log.Record) (hhandle : h.handles[id]? = some handle)
      (hstate : handle.state = .fresh) (hnext : h.nextStart = .ok) :
      Starts h id none { h with
        workers := h.workers ++ [⟨handle.config.sourcePath, [], .serving⟩]
        handles := h.handles.modify id ({ · with state := .running h.workers.length })
        trace := h.trace ++ [(h.workers.length, .init), (h.workers.length, .environment)]
        log }

/-- A start leaves the requests as they are. -/
theorem Starts.requests_eq {h h' : Host} {id : Nat} {f : Option Fault} (hstarts : Starts h id f h') :
    h'.requests = h.requests := by
  cases hstarts <;> rfl

theorem Starts.shared_eq {h h' : Host} {id : Nat} {f : Option Fault} (hstarts : Starts h id f h') :
    h'.shared = h.shared := by
  cases hstarts <;> rfl

theorem Starts.failed_ne_closedBefore {h h' : Host} {id : Nat} {f : Fault}
    (hstarts : Starts h id (some f) h') : .failed f ≠ closedBefore := by
  cases hstarts with
  | stays f log hfault => exact hfault _ rfl
  | fails log hhandle hstate hcalls hfault => exact hfault

/-- Two results differ whose faults are of different kinds. -/
theorem failed_ne_closedBefore {f : Fault} (hkind : f.kind ≠ .closed) :
    Result.failed f ≠ closedBefore := by
  intro heq
  have hfault : some f = some ⟨.closed, "VM closed before the request ran"⟩ :=
    congrArg Result.fault heq
  exact hkind (congrArg Fault.kind (Option.some.inj hfault))

theorem failed_fault_ne_closedBefore (f : Interpreter.BindingFault) :
    Result.failed f.fault ≠ closedBefore := by
  refine failed_ne_closedBefore fun hkind => ?_
  have hcases : f.fault.kind = .libraryMissing ∨ f.fault.kind.isHost = false := f.kind_cases
  rw [hkind] at hcases
  simp [FaultKind.isHost] at hcases

theorem acquireLibrary_eq (h : Host) (handle : Handle) :
    ∃ log, (h.acquireLibrary handle).2 = { h with log } ∧
      ∀ f ∈ (h.acquireLibrary handle).1, Result.failed f ≠ closedBefore := by
  unfold acquireLibrary
  split
  · exact ⟨h.log, rfl, by simp⟩
  · split
    · exact ⟨h.log, rfl, by simp [failed_fault_ne_closedBefore]⟩
    · dsimp only
      split
      · exact ⟨_, rfl, by simp [failed_fault_ne_closedBefore]⟩
      · exact ⟨_, rfl, by simp⟩

/-- What the start of a worker comes to. -/
theorem startWorker_cases (h : Host) (w : Nat) :
    (∃ (f : Fault) (calls : List Call) (log : List Log.Record),
      (∀ call ∈ calls, call.evaluation? = none) ∧
      Result.failed f ≠ closedBefore ∧ calls = h.nextStart.calls ∧ h.nextStart ≠ .ok ∧
      h.startWorker w = (some f, { h with
        workers := h.workers.modify w ({ · with phase := .failed f })
        trace := h.trace ++ calls.map (w, ·)
        log })) ∨
    h.nextStart = .ok ∧ ∃ log, h.startWorker w = (none, { h with
      workers := h.workers.modify w ({ · with phase := .serving })
      trace := h.trace ++ [(w, .init), (w, .environment)]
      log }) := by
  unfold startWorker nextStart
  cases h.behaviour.start (h.calls.countP (· = .init)) with
  | ok =>
      refine .inr ⟨rfl, h.log ++ [⟨.debug, .runtime, "janethost-vm serving", h.holder.isSome⟩], ?_⟩
      simp only [noteCall, List.append_assoc, List.cons_append, List.nil_append]
      rfl
  | refused =>
      exact .inl ⟨_, [.init], _, by simp [Call.evaluation?], failed_ne_closedBefore (by simp), rfl,
        by simp, rfl⟩
  | noEnvironment =>
      refine .inl ⟨⟨.initialization, "failed to create janet environment"⟩,
        [.init, .environment, .deinit], h.log, by simp [Call.evaluation?],
        failed_ne_closedBefore (by simp), rfl, by simp, ?_⟩
      simp only [startWorker.fail, noteCall, List.append_assoc, List.cons_append, List.nil_append]
      rfl
  | raised text =>
      exact .inl ⟨_, [.init], _, by simp [Call.evaluation?], failed_ne_closedBefore (by simp), rfl,
        by simp, rfl⟩

/-- Setting what the last worker is doing. -/
theorem modify_concat_phase (workers : List Worker) (path : Option Text) (p : Phase) :
    (workers ++ [Worker.mk path [] .created]).modify workers.length ({ · with phase := p }) =
      workers ++ [Worker.mk path [] p] := by
  induction workers with
  | nil => rfl
  | cons worker workers ih => simpa using ih

theorem starts_startFresh {h : Host} {id : Nat} {handle : Handle}
    (hhandle : h.handles[id]? = some handle) (hstate : handle.state = .fresh) :
    Starts h id (h.startFresh id handle).1 (h.startFresh id handle).2 := by
  obtain ⟨log, hacquire, hfault⟩ := acquireLibrary_eq h handle
  unfold startFresh
  rcases hlibrary : h.acquireLibrary handle with ⟨f, h'⟩
  rw [hlibrary] at hacquire hfault
  obtain rfl : h' = { h with log } := hacquire
  cases f with
  | some f => exact .stays (some f) log hfault (by simp)
  | none =>
      dsimp only [addWorker]
      rcases startWorker_cases
        { h with workers := h.workers ++ [Worker.mk handle.config.sourcePath [] .created], log }
        h.workers.length with ⟨f, calls, log', hcalls, hf, hnext, hfails, heq⟩ | ⟨hnext, log', heq⟩
      · rw [heq]
        simp only [modify_concat_phase]
        exact .fails log' hhandle hstate hcalls hf hnext hfails
      · rw [heq]
        simp only [modify_concat_phase]
        exact .serves log' hhandle hstate hnext

/-- **What a start comes to.** -/
theorem starts_start (h : Host) (id : Nat) : Starts h id (h.start id).1 (h.start id).2 := by
  unfold start
  split
  next hnone => exact .stays none h.log (by simp) (by simp [hnone])
  next handle hhandle =>
    split
    next hstate => exact .stays none h.log (by simp) (by simp [hhandle, hstate])
    · refine .stays _ h.log ?_ (by simp)
      rintro f ⟨⟩ heq
      have hfault := congrArg Result.fault heq
      simp only [Result.failed, closedBefore] at hfault
      exact absurd hfault (by decide)
    next hstate => exact starts_startFresh hhandle hstate

/-- What asking for the shared handle comes to: nothing, or a handle is made and started, which is
shared then if it runs. -/
theorem share_cases (h : Host) (config : Except Config.Failure Config) (source : LibrarySource) :
    (h.share config source).2 = h ∨ ∃ c f h' shared,
      Starts (h.addHandle c source).2 h.handles.length f h' ∧
        (∀ i, shared = some i → i = h.handles.length ∧ f = none) ∧
        (h.share config source).2 = { h' with shared } := by
  unfold share
  split
  · exact .inl rfl
  next hnone =>
    cases config with
    | error f => exact .inl rfl
    | ok c =>
        have hstarts := starts_start (h.addHandle c source).2 h.handles.length
        rcases hstart : (h.addHandle c source).2.start h.handles.length with ⟨f, h'⟩
        rw [hstart] at hstarts
        refine .inr ⟨c, f, h', ?_⟩
        have hstart' : (h.addHandle c source).2.start (h.addHandle c source).1 = (f, h') := hstart
        cases f with
        | none =>
            refine ⟨some h.handles.length, hstarts, fun i hi => ⟨(Option.some.inj hi).symm, rfl⟩, ?_⟩
            simp only [openRunning, openFresh, hstart']
            rfl
        | some f =>
            have hshared : h'.shared = none := hstarts.shared_eq.trans hnone
            refine ⟨h'.shared, hstarts, by simp [hshared], ?_⟩
            simp only [openRunning, openFresh, hstart']

/-! ### Giving up and closing -/

/-- Giving a request up changes the requests only. -/
theorem giveUp_snd_eq (h : Host) (r : Nat) : ∃ requests, (h.giveUp r).2 = { h with requests } := by
  unfold giveUp
  split
  · exact ⟨h.requests, rfl⟩
  · exact ⟨_, rfl⟩

/-- What it comes to when a handle is asked to **close**. -/
inductive Closes (h : Host) (id : Nat) : Host → Prop
  /-- It is closed already, or there is none. -/
  | stays (hstate : ∀ handle ∈ h.handles[id]?, handle.state.isClosed = true) : Closes h id h
  /-- It has no worker. -/
  | fresh {handle : Handle} (shared : Option Nat) (hhandle : h.handles[id]? = some handle)
      (hstate : handle.state = .fresh) (hshared : ∀ i, shared = some i → h.shared = some i ∧ i ≠ id) :
      Closes h id { h with
        handles := h.handles.modify id ({ · with state := .closed none })
        shared }
  /-- Its worker is told to stop. -/
  | running {handle : Handle} {w : Nat} (shared : Option Nat)
      (hhandle : h.handles[id]? = some handle) (hstate : handle.state = .running w)
      (hshared : ∀ i, shared = some i → h.shared = some i ∧ i ≠ id) :
      Closes h id { h with
        handles := h.handles.modify id ({ · with state := .closed (some w) })
        workers := h.workers.modify w fun x => { x with queue := x.queue ++ [.stop] }
        shared }

/-- Closing leaves the requests as they are. -/
theorem Closes.requests_eq {h h' : Host} {id : Nat} (hcloses : Closes h id h') :
    h'.requests = h.requests := by
  cases hcloses <;> rfl

theorem markClosed_eq (h : Host) (id : Nat) (former : Option Nat) :
    ∃ shared, (∀ i, shared = some i → h.shared = some i ∧ i ≠ id) ∧
      h.markClosed id former = { h with
        handles := h.handles.modify id ({ · with state := .closed former })
        shared } := by
  unfold markClosed
  dsimp only
  split
  · exact ⟨none, by simp, rfl⟩
  next hshared =>
    have hne : h.shared ≠ some id := hshared
    refine ⟨h.shared, fun i hi => ⟨hi, ?_⟩, rfl⟩
    rintro rfl
    exact hne hi

/-- **What closing comes to.** -/
theorem closes_requestClose (h : Host) (id : Nat) : Closes h id (h.requestClose id).2 := by
  unfold requestClose
  split
  next hnone => exact .stays (by simp [hnone])
  next handle hhandle =>
    split
    next w hstate =>
      obtain ⟨shared, hshared, heq⟩ := markClosed_eq h id (some w)
      simp only [heq]
      exact .running shared hhandle hstate hshared
    next hstate =>
      obtain ⟨shared, hshared, heq⟩ := markClosed_eq h id none
      simp only [heq]
      exact .fresh shared hhandle hstate hshared
    next former hstate => exact .stays (by simp [hhandle, hstate, HandleState.isClosed])

end Host

end JanetEmbedding
