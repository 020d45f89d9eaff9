import JanetEmbedding.Proofs.Ledger

/-!
# One interpreter is a sequential evaluator

Whatever its callers do, and whenever they do it, the calls of one interpreter come out as if one
job was done after the other: the requests that were accepted, in their order, without those that
were withdrawn before they were picked up. This module states the sequential evaluator and proves
that the host refines it.

## Conventions

* The interpreter may have been used before, and the process may have any descriptors. A world with
  one interpreter starts out **alone**.
* A **job** is what a request asks for, with what the system refuses to its capture. A request that
  was withdrawn is no job.

## Main definitions

* `Sequence.serve`, `Sequence.serveAll`: the sequential evaluator.
* `World.jobs`: the jobs of a world, in the order of their requests.
* `World.Follows`: how far the worker has come in the jobs.

## Main results

* `World.follows_run`: in every run the worker follows the evaluator.
* `World.agrees_run`: the calls and the answers are those of the evaluator.
-/

namespace JanetEmbedding

open Interpreter (Call Behaviour)

/-! ### The sequential evaluator -/

/-- What one request asks for. -/
structure Job where
  kind : RequestKind
  source : Text
  refusal : Refusal
  deriving DecidableEq

/-- How far a **sequential evaluator** has come: the process, the calls so far, and the answers. A
job that is dropped has none. -/
structure Sequence where
  stdio : Stdio
  calls : List Call
  answers : List (Option Result) := []

/-- Setting a capture up, when its pipes are open. -/
theorem Capture.start_of_openPipes {stdio : Stdio} {refusal : Refusal} {pipes : Capture.Pipes}
    {d : Descriptors}
    (hpipes : Capture.openPipes (stdio.refusing refusal).descriptors = (.ok pipes, d)) :
    Capture.start {} (stdio.refusing refusal) =
      Capture.redirect {} pipes ((stdio.having d).refusing d.refusal) := by
  simp only [Capture.start, hpipes]
  rfl

namespace Sequence

/-- A job: its answer, the process that is left behind and the calls. -/
def handle (b : Behaviour) (path : Option Text) (job : Job) (stdio : Stdio) (past : List Call) :
    Result × Stdio × List Call :=
  match Capture.start {} (stdio.refusing job.refusal) with
  | (.error f, stdio) => (Host.uncaptured f, stdio.refusing {}, [])
  | (.ok session, stdio) =>
    match Call.encoded job.source path with
    | .error f =>
      (.failed ⟨.encoding, f.message⟩, (Capture.finish session (stdio.refusing {})).2, [])
    | .ok (source, name) =>
      let p := b.program source (past.countP (Call.evaluates source))
      let (captured, stdio) :=
        Capture.finish session ((stdio.refusing {}).applyAll (p.writes ++ p.writesAfter))
      (p.result job.kind captured, stdio, .evaluate source name :: p.looks)

/-- The pipes cannot be opened. -/
theorem handle_refused (b : Behaviour) (path : Option Text) (job : Job) {stdio : Stdio}
    {f : Capture.Fault} {d : Descriptors} (past : List Call)
    (hpipes : Capture.openPipes (stdio.refusing job.refusal).descriptors = (.error f, d)) :
    handle b path job stdio past =
      (Host.uncaptured f, stdio.having d, []) := by
  simp only [handle, Capture.start, hpipes]
  rfl

/-- The descriptors cannot be redirected. -/
theorem handle_unredirected {b : Behaviour} {path : Option Text} {job : Job} {stdio stdio' : Stdio}
    {f : Capture.Fault} (past : List Call)
    (hstart : Capture.start {} (stdio.refusing job.refusal) = (.error f, stdio')) :
    handle b path job stdio past = (Host.uncaptured f, stdio'.refusing {}, []) := by
  simp only [handle, hstart]

/-- The source cannot be encoded. -/
theorem handle_unencoded {b : Behaviour} {path : Option Text} {job : Job} {stdio stdio' : Stdio}
    {session : Capture.Session} {f : Text.EncodingFault} (past : List Call)
    (hstart : Capture.start {} (stdio.refusing job.refusal) = (.ok session, stdio'))
    (hencoded : Call.encoded job.source path = .error f) :
    handle b path job stdio past =
      (.failed ⟨.encoding, f.message⟩, (Capture.finish session (stdio'.refusing {})).2, []) := by
  simp only [handle, hstart, hencoded]

/-- The source is evaluated. -/
theorem handle_evaluated {b : Behaviour} {path : Option Text} {job : Job}
    {stdio stdio' stdio'' : Stdio} {session : Capture.Session} {source : String}
    {name : Option String} {p : Interpreter.Program} {captured : Capture.Captured} {past : List Call}
    (hstart : Capture.start {} (stdio.refusing job.refusal) = (.ok session, stdio'))
    (hencoded : Call.encoded job.source path = .ok (source, name))
    (hprogram : p = b.program source (past.countP (Call.evaluates source)))
    (hfinish : Capture.finish session (((stdio'.refusing {}).applyAll p.writes).applyAll p.writesAfter) =
      (captured, stdio'')) :
    handle b path job stdio past =
      (p.result job.kind captured, stdio'', .evaluate source name :: p.looks) := by
  rw [Stdio.applyAll, Stdio.applyAll, ← List.foldl_append] at hfinish
  subst hprogram
  simp only [handle, hstart, hencoded, Stdio.applyAll, hfinish]

/-- The next job, if it is not dropped. -/
def serve (b : Behaviour) (path : Option Text) (q : Sequence) : Option Job → Sequence
  | none => { q with answers := q.answers ++ [none] }
  | some job =>
    let (x, stdio, calls) := handle b path job q.stdio q.calls
    { stdio, calls := q.calls ++ calls, answers := q.answers ++ [some x] }

/-- One job after the other. -/
def serveAll (b : Behaviour) (path : Option Text) (q : Sequence) (jobs : List (Option Job)) :
    Sequence :=
  jobs.foldl (serve b path) q

variable (b : Behaviour) (path : Option Text) (q : Sequence)

theorem serveAll_append (jobs more : List (Option Job)) :
    serveAll b path q (jobs ++ more) = serveAll b path (serveAll b path q jobs) more :=
  List.foldl_append

theorem serveAll_concat (jobs : List (Option Job)) (job : Option Job) :
    serveAll b path q (jobs ++ [job]) = serve b path (serveAll b path q jobs) job := by
  rw [serveAll_append]
  rfl

/-- No call is taken back. -/
theorem calls_prefix_serve (job : Option Job) : q.calls <+: (serve b path q job).calls := by
  cases job with
  | none => exact List.prefix_rfl
  | some job => exact List.prefix_append ..

/-- Every job gets its answer, and no answer is changed. -/
theorem answers_serve (job : Option Job) :
    ∃ x, (serve b path q job).answers = q.answers ++ [x] := by
  cases job with
  | none => exact ⟨none, rfl⟩
  | some job => exact ⟨_, rfl⟩

end Sequence

namespace World

/-! ### The jobs of a world -/

/-- The job of a request, unless it has been withdrawn: what its caller asks for. -/
def job? (s : World) (r : Nat) : Option Job :=
  match s.host.progress? r with
  | some .withdrawn => none
  | _ => do
    let ticket ← s.tickets[r]?
    let caller ← s.callers ticket.caller
    return ⟨caller.kind, caller.source, s.refusals ticket.caller⟩

/-- The jobs of a world, in the order of their requests. -/
def jobs (s : World) : List (Option Job) := (List.range s.tickets.length).map s.job?

/-- Every request has a ticket. -/
theorem exists_ticket {s : World} (hledger : s.Ledger) {r : Nat} {p : Progress}
    (hp : s.host.progress? r = some p) : ∃ t, s.tickets[r]? = some t := by
  obtain ⟨request, hrequest, -⟩ := Option.map_eq_some_iff.mp hp
  have hsize := hledger.kept.size
  rw [owners, List.length_map] at hsize
  have hlt : r < s.tickets.length := hsize ▸ (List.getElem?_eq_some_iff.mp hrequest).1
  exact ⟨s.tickets[r], List.getElem?_eq_getElem hlt⟩

/-- The job of a request is what the request asks for. -/
theorem job?_eq {s : World} (hledger : s.Ledger) {r : Nat} (request : Request)
    (hrequest : s.host.requests[r]? = some request) (hprogress : request.progress ≠ .withdrawn) :
    s.job? r = some ⟨request.kind, request.source, s.refusalOf r⟩ := by
  have hp : s.host.progress? r = some request.progress := by simp [Host.progress?, hrequest]
  obtain ⟨t, ht⟩ := exists_ticket hledger hp
  obtain ⟨caller, request', hcaller, -, -, hrequest', hkind, hsource⟩ := hledger.ticket r t ht
  obtain rfl : request = request' := Option.some.inj (hrequest.symm.trans hrequest')
  unfold job?
  rw [hp]
  split
  next heq => exact absurd (Option.some.inj heq) hprogress
  next => simp [ht, hcaller, hkind, hsource, refusalOf]

/-- A request that has been withdrawn is no job. -/
theorem job?_of_withdrawn {s : World} {r : Nat} (hr : s.host.progress? r = some .withdrawn) :
    s.job? r = none := by
  simp [job?, hr]

/-- The job of a request stays, once it has been picked up or settled. -/
theorem job?_onward {s s' : World} (hledger : s.Ledger) (honward : Onward s s') {r : Nat}
    {p : Progress} (hp : s.host.progress? r = some p) (hqueued : p ≠ .queued) :
    s'.job? r = s.job? r := by
  obtain ⟨p', hp', hleads⟩ := honward.progress r p hp
  by_cases hwithdrawn : p = .withdrawn
  · subst hwithdrawn
    rw [job?_of_withdrawn hp, job?_of_withdrawn (honward.withdrawn hp)]
  have hwithdrawn' : p' ≠ .withdrawn := by
    rintro rfl
    cases p with
    | queued => exact hqueued rfl
    | running => simp [Progress.Leads] at hleads
    | withdrawn => exact hwithdrawn rfl
    | finished x => cases hleads
  obtain ⟨t, ht⟩ := exists_ticket hledger hp
  obtain ⟨caller, -, hcaller, -⟩ := hledger.ticket r t ht
  obtain ⟨caller', hcaller', -, hkind, hsource, -⟩ := honward.callers t.caller caller hcaller
  have ht' : s'.tickets[r]? = some t := by
    obtain ⟨more, hmore⟩ := honward.tickets
    rw [← hmore, List.getElem?_append_left (List.getElem?_eq_some_iff.mp ht).1, ht]
  unfold job?
  rw [hp, hp']
  split
  next heq => exact absurd (Option.some.inj heq) hwithdrawn'
  next =>
    split
    next heq => exact absurd (Option.some.inj heq) hwithdrawn
    next => simp [ht, ht', hcaller, hcaller', hkind, hsource, honward.refusals]

/-! ### Worlds with one interpreter -/

/-- A world with **one interpreter** that has been started, and nothing else: the interpreter may
have been used before. -/
def alone (e : Circumstances) (config : Config) (source : LibrarySource) (before : List (Nat × Call))
    (log : List Log.Record) : World :=
  { host :=
      { system := e.system, behaviour := e.behaviour, trace := before, stdio := e.stdio
        gates := e.gates, workers := [⟨config.sourcePath, [], .serving⟩]
        handles := [⟨config, source, .running 0⟩], log }
    refusals := e.refusals }

/-- Such a world comes of a handle that is made and started. -/
theorem run_create_start (e : Circumstances) (config : Config) (hstart : e.behaviour.start 0 = .ok) :
    ∃ log, (opening e).run [.create config .given, .start 0] =
      alone e config .given [(0, .init), (0, .environment)] log := by
  refine ⟨[⟨.debug, .runtime, "janethost-vm serving", false⟩], ?_⟩
  simp only [run_cons, run_nil, step, opening, Host.addHandle, Host.start, List.nil_append,
    List.length_nil, List.getElem?_cons_zero, Host.startFresh, Host.acquireLibrary, Host.addWorker,
    Host.startWorker, Host.calls, List.map_nil, List.countP_nil, hstart]
  rfl

/-- The shape of a world with one interpreter: its worker, which belongs to the one handle. -/
structure Alone (s : World) (worker : Worker) : Prop where
  workers : s.host.workers = [worker]
  hired : s.host.workerOf? 0 = some 0
  handles : s.host.handles.length = 1

/-- Nothing but the queue of the worker has changed, at whose end there are new items. -/
structure Undisturbed (s s' : World) (worker : Worker) (items : List Item) : Prop where
  alone : Alone s' { worker with queue := worker.queue ++ items }
  stdio : s'.host.stdio = s.host.stdio
  trace : s'.host.trace = s.host.trace
  behaviour : s'.host.behaviour = s.host.behaviour
  tickets : s'.tickets.length = s.tickets.length + (items.filterMap Item.request?).length

namespace Alone

variable {s s' : World} {worker : Worker}

/-- There is one handle, and it has been started. -/
theorem state_of_handle (halone : Alone s worker) {id : Nat} {handle : Handle}
    (hhandle : s.host.handles[id]? = some handle) : id = 0 ∧ handle.state.hired? = some 0 := by
  have hlt := (List.getElem?_eq_some_iff.mp hhandle).1
  obtain rfl : id = 0 := by
    have := halone.handles
    omega
  have hhired := halone.hired
  rw [Host.workerOf?, hhandle] at hhired
  exact ⟨rfl, hhired⟩

/-- A start has nothing to do. -/
theorem starts (halone : Alone s worker) {id : Nat} {f : Option Fault} {host : Host}
    (hstarts : Host.Starts s.host id f host) : ∃ log, host = { s.host with log } := by
  cases hstarts with
  | stays f log => exact ⟨log, rfl⟩
  | fails log hhandle hstate | serves log hhandle hstate =>
      have hhired := (halone.state_of_handle hhandle).2
      rw [hstate] at hhired
      cases hhired

/-- Nothing has changed for the worker. -/
theorem still (halone : Alone s worker) (hworkers : s'.host.workers = s.host.workers)
    (hhandles : s'.host.handles = s.host.handles) (hstdio : s'.host.stdio = s.host.stdio)
    (htrace : s'.host.trace = s.host.trace) (hbehaviour : s'.host.behaviour = s.host.behaviour)
    (htickets : s'.tickets = s.tickets) : Undisturbed s s' worker [] := by
  refine ⟨⟨?_, ?_, ?_⟩, hstdio, htrace, hbehaviour, by simp [htickets]⟩
  · rw [hworkers, halone.workers, List.append_nil]
  · rw [Host.workerOf?, hhandles]
    exact halone.hired
  · rw [hhandles]
    exact halone.handles

/-- A request is put at the end of the queue. -/
theorem accepts (halone : Alone s worker) {w : Nat} {kind : RequestKind} {source : Text} {id : Nat}
    (hhandle : s.host.handles[id]?.bind (·.state.worker?) = some w) {ticket : Ticket}
    (hhost : s'.host = s.host.accept w kind source) (htickets : s'.tickets = s.tickets ++ [ticket]) :
    Undisturbed s s' worker [.request s.host.requests.length] := by
  obtain ⟨hid, -⟩ := Host.workerOf?_of_worker? hhandle
  obtain ⟨handle, hhandle, -⟩ := Option.bind_eq_some_iff.mp hhandle
  obtain ⟨rfl, -⟩ := halone.state_of_handle hhandle
  obtain rfl : w = 0 := Option.some.inj (hid.symm.trans halone.hired)
  refine ⟨⟨?_, ?_, ?_⟩, ?_, ?_, ?_, by simp [htickets]⟩ <;> rw [hhost]
  · simp [Host.accept, halone.workers]
  · exact halone.hired
  · exact halone.handles
  all_goals rfl

/-- The order to stop is put at the end of the queue, or nothing is. -/
theorem closes (halone : Alone s worker) {id : Nat} {host : Host}
    (hcloses : Host.Closes s.host id host) :
    ∃ items, Undisturbed s { s with host } worker items := by
  cases hcloses with
  | stays => exact ⟨[], halone.still rfl rfl rfl rfl rfl rfl⟩
  | fresh shared hhandle hstate =>
      have hhired := (halone.state_of_handle hhandle).2
      rw [hstate] at hhired
      cases hhired
  | @running handle w shared hhandle hstate =>
      obtain ⟨rfl, hhired⟩ := halone.state_of_handle hhandle
      rw [hstate] at hhired
      obtain rfl : w = 0 := Option.some.inj hhired
      refine ⟨[.stop], ⟨?_, ?_, ?_⟩, rfl, rfl, rfl, rfl⟩
      · simp [halone.workers]
      · simp [Host.workerOf?, hhandle, HandleState.hired?]
      · simp [halone.handles]

/-- The worker changes. -/
theorem modify (halone : Alone s worker) {worker' : Worker} {f : Worker → Worker}
    (hworkers : s'.host.workers = s.host.workers.modify 0 f) (hworker : f worker = worker')
    (hhandles : s'.host.handles = s.host.handles) : Alone s' worker' := by
  refine ⟨?_, ?_, ?_⟩
  · rw [hworkers, halone.workers, ← hworker]
    rfl
  · rw [Host.workerOf?, hhandles]
    exact halone.hired
  · rw [hhandles]
    exact halone.handles

/-- What others than the worker do changes neither the process nor the calls, and at most puts items
at the end of its queue. -/
theorem moves {a : Act} (halone : Alone s worker) (hmoves : Moves s a s')
    (ha : a.makesHandle = false) :
    (∃ items, Undisturbed s s' worker items) ∨
      ∃ host, s' = { s with host } ∧ Host.Does (s.braced 0) 0 worker host := by
  cases hmoves with
  | stays | expired | looked | turned | served | noted | opened =>
      exact .inl ⟨[], halone.still rfl rfl rfl rfl rfl rfl⟩
  | created => cases ha
  | shared => cases ha
  | started hstarts | ready _ _ hstarts | refused _ _ hstarts =>
      obtain ⟨log, rfl⟩ := halone.starts hstarts
      exact .inl ⟨[], halone.still rfl rfl rfl rfl rfl rfl⟩
  | accepted hcaller hstanding hhandle => exact .inl ⟨_, halone.accepts hhandle rfl rfl⟩
  | @left c r caller m hcaller hstanding =>
      obtain ⟨requests, heq⟩ := Host.giveUp_snd_eq s.host r
      rw [heq]
      exact .inl ⟨[], halone.still rfl rfl rfl rfl rfl rfl⟩
  | closed hcloses => exact .inl (halone.closes hcloses)
  | @worked w worker' host hworker hdoes =>
      rw [halone.workers] at hworker
      obtain rfl : w = 0 := by
        cases w with
        | zero => rfl
        | succ w => cases hworker
      obtain rfl : worker = worker' := Option.some.inj hworker
      exact .inr ⟨host, rfl, hdoes⟩

end Alone

/-! ### Following the evaluator -/

/-- The evaluator when it has come to a job. -/
def served (s : World) (b : Behaviour) (path : Option Text) (q : Sequence) (n : Nat) : Sequence :=
  Sequence.serveAll b path q ((List.range n).map s.job?)

theorem served_succ (s : World) (b : Behaviour) (path : Option Text) (q : Sequence) (n : Nat) :
    s.served b path q (n + 1) = Sequence.serve b path (s.served b path q n) (s.job? n) := by
  rw [served, List.range_succ, List.map_append, List.map_singleton, Sequence.serveAll_concat]
  rfl

/-- The evaluator takes no call back. -/
theorem calls_prefix_served (s : World) (b : Behaviour) (path : Option Text) (q : Sequence) {n m : Nat}
    (h : n ≤ m) : (s.served b path q n).calls <+: (s.served b path q m).calls := by
  induction h with
  | refl => exact List.prefix_rfl
  | step _ ih =>
      rw [served_succ]
      exact ih.trans (Sequence.calls_prefix_serve ..)

/-- The evaluator changes no answer. -/
theorem answers_prefix_served (s : World) (b : Behaviour) (path : Option Text) (q : Sequence)
    {n m : Nat} (h : n ≤ m) : (s.served b path q n).answers <+: (s.served b path q m).answers := by
  induction h with
  | refl => exact List.prefix_rfl
  | @step m _ ih =>
      obtain ⟨x, hx⟩ := Sequence.answers_serve b path (s.served b path q m) (s.job? m)
      rw [served_succ, hx]
      exact ih.trans (List.prefix_append ..)

/-- How far the worker is with a job, given the evaluator that has come to it. -/
inductive Stage (b : Behaviour) (path : Option Text) (q : Sequence) (next : Option Job) (h : Host) :
    Phase → Prop
  | serving (hstdio : h.stdio = q.stdio) (hcalls : h.calls = q.calls) : Stage b path q next h .serving
  | stopped (hstdio : h.stdio = q.stdio) (hcalls : h.calls = q.calls ++ [.deinit]) :
      Stage b path q next h .stopped
  /-- The pipes are open. -/
  | waiting {job : Job} {n : Nat} {pipes : Capture.Pipes} {d : Descriptors} (hjob : next = some job)
      (hpipes : Capture.openPipes (q.stdio.refusing job.refusal).descriptors = (.ok pipes, d))
      (hstdio : h.stdio = q.stdio.having d)
      (hcalls : h.calls = q.calls) : Stage b path q next h (.waiting n pipes d.refusal)
  /-- The program has come to its gate. -/
  | evaluating {job : Job} {n : Nat} {session : Capture.Session} {stdio : Stdio} {source : String}
      {name : Option String} {p : Interpreter.Program} (hjob : next = some job)
      (hstart : Capture.start {} (q.stdio.refusing job.refusal) = (.ok session, stdio))
      (hencoded : Call.encoded job.source path = .ok (source, name))
      (hprogram : p = b.program source (q.calls.countP (Call.evaluates source)))
      (hstdio : h.stdio = (stdio.refusing {}).applyAll p.writes)
      (hcalls : h.calls = q.calls ++ [.evaluate source name]) :
      Stage b path q next h (.evaluating n session p)

/-- The stage depends on the process and on the calls, and on the job that the worker is at. -/
theorem Stage.congr {b : Behaviour} {path : Option Text} {q : Sequence} {next next' : Option Job}
    {h h' : Host} {phase : Phase} (hstage : Stage b path q next h phase) (hstdio : h'.stdio = h.stdio)
    (hcalls : h'.calls = h.calls) (hnext : phase.request?.isSome → next' = next) :
    Stage b path q next' h' phase := by
  cases hstage with
  | serving hstdio' hcalls' => exact .serving (hstdio.trans hstdio') (hcalls.trans hcalls')
  | stopped hstdio' hcalls' => exact .stopped (hstdio.trans hstdio') (hcalls.trans hcalls')
  | waiting hjob hpipes hstdio' hcalls' =>
      exact .waiting ((hnext rfl).trans hjob) hpipes (hstdio.trans hstdio') (hcalls.trans hcalls')
  | evaluating hjob hstart hencoded hprogram hstdio' hcalls' =>
      exact .evaluating ((hnext rfl).trans hjob) hstart hencoded hprogram (hstdio.trans hstdio')
        (hcalls.trans hcalls')

/-- What the request that the worker is at comes to is what the evaluator makes of the job. -/
theorem Stage.handle_eq {b : Behaviour} {path : Option Text} {q : Sequence} {h : Host} {phase : Phase}
    {request : Request} {refusal : Refusal} {x : Result} {stdio : Stdio} {calls : List Call}
    (hstage : Stage b path q (some ⟨request.kind, request.source, refusal⟩) h phase)
    (hends : h.Ends path request phase x stdio calls) :
    ∃ past, Sequence.handle b path ⟨request.kind, request.source, refusal⟩ q.stdio q.calls =
      (x, stdio, past) ∧ h.calls ++ calls = q.calls ++ past := by
  cases hends with
  | unredirected hholder hredirect =>
      cases hstage with
      | waiting hjob hpipes hstdio hcalls =>
          obtain rfl := Option.some.inj hjob
          refine ⟨[], Sequence.handle_unredirected q.calls ?_, by rw [hcalls]⟩
          rw [Capture.start_of_openPipes hpipes, ← hstdio]
          exact hredirect
  | unencoded hholder hredirect hencoded =>
      cases hstage with
      | waiting hjob hpipes hstdio hcalls =>
          obtain rfl := Option.some.inj hjob
          refine ⟨[], Sequence.handle_unencoded q.calls ?_ hencoded, by rw [hcalls]⟩
          rw [Capture.start_of_openPipes hpipes, ← hstdio]
          exact hredirect
  | concluded hfinish =>
      cases hstage with
      | evaluating hjob hstart hencoded hprogram hstdio hcalls =>
          obtain rfl := Option.some.inj hjob
          rw [hstdio] at hfinish
          exact ⟨_, Sequence.handle_evaluated hstart hencoded hprogram hfinish, by simp [hcalls]⟩

/-- The worker **follows** the evaluator: it has come to a job, and what it has done before is what
the evaluator has done. -/
structure Follows (b : Behaviour) (path : Option Text) (q : Sequence) (s : World) (worker : Worker)
    (n : Nat) : Prop where
  ledger : s.Ledger
  alone : Alone s worker
  sourcePath : worker.sourcePath = path
  behaviour : s.host.behaviour = b
  count : s.tickets.length = n + worker.phase.request?.toList.length + worker.requests.length
  answers : (s.served b path q n).answers = (List.range n).map s.host.result?
  stage : Stage b path (s.served b path q n) (s.job? n) s.host worker.phase

namespace Follows

variable {b : Behaviour} {path : Option Text} {q : Sequence} {s s' : World} {worker : Worker}
  {n r : Nat}

/-- The worker is charged with all requests. -/
theorem charged (h : Follows b path q s worker n) :
    Charged s.host.progress? (List.range s.tickets.length) (s.host.isClosed 0) worker := by
  have hworker : s.host.workers[0]? = some worker := by simp [h.alone.workers]
  have hcharged := h.ledger.kept.charged h.alone.hired hworker
  have hplaces : placesOf s.owners 0 = List.range s.tickets.length := by
    rw [placesOf, owners, List.length_map]
    refine List.filter_eq_self.mpr fun r hr => ?_
    have hr := List.mem_range.mp hr
    have howner := h.ledger.kept.owned (s.tickets[r].handle)
      (List.mem_map.mpr ⟨_, List.getElem_mem hr, rfl⟩)
    obtain ⟨w, hw⟩ := Option.isSome_iff_exists.mp howner
    obtain ⟨handle, hhandle, -⟩ := Option.bind_eq_some_iff.mp hw
    simp [hr, (h.alone.state_of_handle hhandle).1]
  rwa [hplaces] at hcharged

/-- The requests before the job that the worker has come to are settled, and the others are to come. -/
theorem order (h : Follows b path q s worker n) :
    worker.phase.request?.toList ++ worker.requests = List.range' n (s.tickets.length - n) ∧
      ∀ r < n, ∃ p, s.host.progress? r = some p ∧ p.isSettled = true := by
  obtain ⟨done, horder, hdone⟩ := h.charged.order
  rw [List.append_assoc, List.range_eq_range'] at horder
  obtain ⟨k, hk, rfl, hrest⟩ := List.range'_eq_append_iff.mp horder
  rw [Nat.zero_add, Nat.mul_one] at hrest
  have hlength := congrArg List.length hrest
  rw [List.length_append, List.length_range'] at hlength
  obtain rfl : k = n := by
    have := h.count
    omega
  exact ⟨hrest, fun r hr => hdone r (by simpa using hr)⟩

/-- The job that the worker is at is the one that it has come to. -/
theorem eq_of_held (h : Follows b path q s worker n) (hheld : worker.phase.request? = some r) :
    r = n := by
  have horder := h.order.1
  rw [hheld, Option.toList_some, List.singleton_append] at horder
  exact (List.range'_eq_cons_iff.mp horder.symm).1.symm

/-- The next job in the queue is the one that the worker has come to. -/
theorem eq_of_head (h : Follows b path q s worker n) {rest : List Item}
    (hphase : worker.phase = .serving) (hqueue : worker.queue = .request r :: rest) : r = n := by
  have horder := h.order.1
  have hrequests : worker.requests = r :: rest.filterMap Item.request? := by
    simp [Worker.requests, hqueue]
  rw [hphase, hrequests] at horder
  exact (List.range'_eq_cons_iff.mp horder.symm).1.symm

/-- What the system refuses to the capture of the job that the worker takes next. -/
theorem refusal_braced (h : Follows b path q s worker n) {rest : List Item}
    (hphase : worker.phase = .serving) (hqueue : worker.queue = .request r :: rest) :
    (s.braced 0).refusal = s.refusalOf r := by
  obtain ⟨sourcePath, queue, phase⟩ := worker
  obtain rfl : phase = .serving := hphase
  obtain rfl : queue = .request r :: rest := hqueue
  simp [braced, Host.next?, h.alone.workers]

/-- The job that the worker is at. -/
theorem job?_of_held (h : Follows b path q s worker n) {request : Request}
    (hheld : worker.phase.request? = some r) (hrequest : s.host.requests[r]? = some request) :
    s.job? r = some ⟨request.kind, request.source, s.refusalOf r⟩ := by
  have hrunning := h.charged.held r hheld
  refine job?_eq h.ledger request hrequest ?_
  obtain ⟨request', hrequest', hprogress⟩ := Option.map_eq_some_iff.mp hrunning
  obtain rfl : request = request' := Option.some.inj (hrequest.symm.trans hrequest')
  simp [hprogress]

/-- The evaluator has done the same as before when nothing but the queue has changed. -/
theorem served_onward (h : Follows b path q s worker n) (honward : Onward s s') :
    s'.served b path q n = s.served b path q n := by
  have hjobs : (List.range n).map s'.job? = (List.range n).map s.job? := by
    refine List.map_congr_left fun r hr => ?_
    obtain ⟨p, hp, hsettled⟩ := h.order.2 r (List.mem_range.mp hr)
    exact job?_onward h.ledger honward hp (by rintro rfl; cases hsettled)
  rw [served, hjobs, served]

/-- The results of the jobs that are done stay. -/
theorem results_onward (h : Follows b path q s worker n) (honward : Onward s s') :
    (List.range n).map s'.host.result? = (List.range n).map s.host.result? := by
  refine List.map_congr_left fun r hr => ?_
  obtain ⟨p, hp, hsettled⟩ := h.order.2 r (List.mem_range.mp hr)
  exact honward.result? hp hsettled

/-- **Others** do not keep the worker from following. -/
theorem undisturbed (h : Follows b path q s worker n) {items : List Item}
    (hundisturbed : Undisturbed s s' worker items) (honward : Onward s s') (hledger : s'.Ledger) :
    Follows b path q s' { worker with queue := worker.queue ++ items } n := by
  have hserved := h.served_onward honward
  refine ⟨hledger, hundisturbed.alone, h.sourcePath, hundisturbed.behaviour.trans h.behaviour, ?_, ?_,
    ?_⟩
  · have hrequests : ({ worker with queue := worker.queue ++ items } : Worker).requests =
        worker.requests ++ items.filterMap Item.request? := by
      simp [Worker.requests]
    rw [hundisturbed.tickets, h.count, hrequests, List.length_append, Nat.add_assoc]
  · rw [hserved, h.answers, h.results_onward honward]
  · rw [hserved]
    refine h.stage.congr hundisturbed.stdio ?_ fun hheld => ?_
    · rw [Host.calls, hundisturbed.trace]
      rfl
    · obtain ⟨r, hr⟩ := Option.isSome_iff_exists.mp hheld
      obtain rfl := h.eq_of_held hr
      exact job?_onward h.ledger honward (h.charged.held r hr) (by simp)

/-- The job that the worker has come to is dropped. -/
theorem drops (h : Follows b path q s worker n) (honward : Onward s s')
    (hdropped : s'.host.progress? n = some .withdrawn) (hstdio : s'.host.stdio = s.host.stdio)
    (hcalls : s'.host.calls = s.host.calls) (hphase : worker.phase = .serving) :
    (s'.served b path q (n + 1)).answers = (List.range (n + 1)).map s'.host.result? ∧
      Stage b path (s'.served b path q (n + 1)) (s'.job? (n + 1)) s'.host .serving := by
  have hstage := h.stage
  rw [hphase] at hstage
  cases hstage with
  | serving hstdio' hcalls' =>
      rw [served_succ, h.served_onward honward, job?_of_withdrawn hdropped]
      refine ⟨?_, .serving (hstdio.trans hstdio') (hcalls.trans hcalls')⟩
      rw [Sequence.serve, h.answers, List.range_succ, List.map_append, h.results_onward honward,
        List.map_singleton, Host.result?_eq_none_of_withdrawn hdropped]

/-- The job that the worker has come to is done. -/
theorem finishes (h : Follows b path q s worker n) (honward : Onward s s') {job : Job} {x : Result}
    {stdio : Stdio} {calls : List Call} (hjob : s'.job? n = some job)
    (hhandle : Sequence.handle b path job (s.served b path q n).stdio (s.served b path q n).calls =
      (x, stdio, calls))
    (hresult : s'.host.result? n = some x) (hstdio : s'.host.stdio = stdio)
    (hcalls : s'.host.calls = (s.served b path q n).calls ++ calls) :
    (s'.served b path q (n + 1)).answers = (List.range (n + 1)).map s'.host.result? ∧
      Stage b path (s'.served b path q (n + 1)) (s'.job? (n + 1)) s'.host .serving := by
  have hnext : s'.served b path q (n + 1) =
      ⟨stdio, (s.served b path q n).calls ++ calls, (s.served b path q n).answers ++ [some x]⟩ := by
    rw [served_succ, h.served_onward honward, hjob, Sequence.serve, hhandle]
  rw [hnext]
  refine ⟨?_, .serving hstdio hcalls⟩
  rw [h.answers, List.range_succ, List.map_append, h.results_onward honward, List.map_singleton,
    hresult]

section Does

variable {host : Host} {rest : List Item} {request : Request} {pipes : Capture.Pipes}

/-- How many requests there are when the worker takes the next job from its queue. -/
theorem count_of_head (h : Follows b path q s worker n) (hphase : worker.phase = .serving)
    (hqueue : worker.queue = .request r :: rest) :
    s.tickets.length = n + 1 + (rest.filterMap Item.request?).length := by
  have hcount := h.count
  simp only [Worker.requests, hqueue, hphase, Phase.request?, List.filterMap_cons,
    Item.request?_request, List.length_cons, Option.toList_none, List.length_nil] at hcount
  omega

/-- The process and the calls before the worker takes the next job. -/
theorem stdio_and_calls (h : Follows b path q s worker n) (hphase : worker.phase = .serving) :
    s.host.stdio = (s.served b path q n).stdio ∧ s.host.calls = (s.served b path q n).calls := by
  have hstage := h.stage
  rw [hphase] at hstage
  cases hstage with
  | serving hstdio hcalls => exact ⟨hstdio, hcalls⟩

/-- It leaves its loop. -/
theorem leaves (h : Follows b path q s worker n) (honward : Onward s { s with host })
    (hphase : worker.phase = .serving) (hstdio : host.stdio = s.host.stdio)
    (hcalls : host.calls = s.host.calls ++ [.deinit]) :
    (World.served { s with host } b path q n).answers = (List.range n).map host.result? ∧
      Stage b path (World.served { s with host } b path q n) (World.job? { s with host } n) host
        .stopped := by
  obtain ⟨hstdio', hcalls'⟩ := h.stdio_and_calls hphase
  rw [h.served_onward honward]
  refine ⟨h.answers.trans (h.results_onward honward).symm, .stopped (hstdio.trans hstdio') ?_⟩
  rw [hcalls, hcalls']

/-- It opens the pipes for the job. -/
theorem picksUp {d : Descriptors} (h : Follows b path q s worker n) (honward : Onward s { s with host })
    (hledger : Ledger { s with host }) (hphase : worker.phase = .serving)
    (hrequest : host.requests[n]? = some request) (hprogress : request.progress = .running)
    (hpipes : Capture.openPipes (s.host.stdio.refusing (s.refusalOf n)).descriptors = (.ok pipes, d))
    (hstdio : host.stdio = s.host.stdio.having d) (hcalls : host.calls = s.host.calls) :
    (World.served { s with host } b path q n).answers = (List.range n).map host.result? ∧
      Stage b path (World.served { s with host } b path q n) (World.job? { s with host } n) host
        (.waiting n pipes d.refusal) := by
  obtain ⟨hstdio', hcalls'⟩ := h.stdio_and_calls hphase
  have hjob := job?_eq hledger request hrequest (by simp [hprogress])
  rw [h.served_onward honward]
  refine ⟨h.answers.trans (h.results_onward honward).symm, .waiting hjob ?_ ?_ (hcalls.trans hcalls')⟩
  · rw [← hstdio']
    exact hpipes
  · rw [hstdio, hstdio']

/-- It has the interpreter evaluate the job. -/
theorem evaluates {refusal : Refusal} {session : Capture.Session} {stdio : Stdio} {source : String}
    {name : Option String} {p : Interpreter.Program} (h : Follows b path q s worker n)
    (honward : Onward s { s with host }) (hphase : worker.phase = .waiting n pipes refusal)
    (hrequest : s.host.requests[n]? = some request)
    (hredirect : Capture.redirect {} pipes (s.host.stdio.refusing refusal) = (.ok session, stdio))
    (hencoded : Call.encoded request.source path = .ok (source, name))
    (hprogram : p = b.program source (s.host.calls.countP (Call.evaluates source)))
    (hstdio : host.stdio = (stdio.refusing {}).applyAll p.writes)
    (hcalls : host.calls = s.host.calls ++ [.evaluate source name]) :
    (World.served { s with host } b path q n).answers = (List.range n).map host.result? ∧
      Stage b path (World.served { s with host } b path q n) (World.job? { s with host } n) host
        (.evaluating n session p) := by
  have hheld : worker.phase.request? = some n := by rw [hphase]; rfl
  have hjob := h.job?_of_held hheld hrequest
  have hstage := h.stage
  rw [h.served_onward honward]
  refine ⟨h.answers.trans (h.results_onward honward).symm, ?_⟩
  rw [hphase] at hstage
  cases hstage with
  | waiting hjob' hpipes hstdio' hcalls' =>
      obtain rfl := Option.some.inj (hjob'.symm.trans hjob)
      have hjob'' := job?_onward h.ledger honward (h.charged.held n hheld) (by simp)
      refine .evaluating (hjob''.trans hjob) ?_ hencoded ?_ hstdio ?_
      · rw [Capture.start_of_openPipes hpipes, ← hstdio']
        exact hredirect
      · rw [hprogram, hcalls']
      · rw [hcalls, hcalls']

/-- **The worker** follows. -/
theorem does (h : Follows b path q s worker n) (hdoes : Host.Does (s.braced 0) 0 worker host)
    (honward : Onward s { s with host }) (hledger : Ledger { s with host }) :
    ∃ worker' n', Follows b path q { s with host } worker' n' := by
  have hcharged := h.charged
  have hcount := h.count
  cases hdoes with
  | @leave rest log hphase hqueue =>
      obtain ⟨hanswers, hstage⟩ := h.leaves honward hphase rfl List.map_append
      refine ⟨{ worker with queue := [], phase := .stopped }, n, hledger, h.alone.modify rfl rfl rfl,
        h.sourcePath, h.behaviour, ?_, hanswers, hstage⟩
      obtain ⟨rfl, -⟩ := hcharged.eq_nil_of_stop hqueue
      simpa [hphase, hqueue, Worker.requests, Phase.request?, List.filterMap_cons] using hcount
  | @pass r rest log hphase hqueue hprogress =>
      obtain rfl := h.eq_of_head hphase hqueue
      have hwithdrawn : s.host.progress? r = some .withdrawn :=
        (hcharged.queued r (by simp [Worker.requests, hqueue])).resolve_left hprogress
      obtain ⟨hanswers, hstage⟩ := h.drops honward (honward.withdrawn hwithdrawn) rfl rfl hphase
      refine ⟨{ worker with queue := rest }, r + 1, hledger, h.alone.modify rfl rfl rfl,
        h.sourcePath, h.behaviour, ?_, hanswers, hphase ▸ hstage⟩
      rw [hphase]
      exact h.count_of_head hphase hqueue
  | @pickUp r rest pipes d hphase hqueue hprogress hpipes =>
      obtain rfl := h.eq_of_head hphase hqueue
      obtain ⟨request, hrequest, -⟩ := Option.map_eq_some_iff.mp hprogress
      rw [h.refusal_braced hphase hqueue] at hpipes
      have hrequest : s.host.requests[r]? = some request := hrequest
      have hrunning : (s.host.requests.modify r ({ · with progress := .running }))[r]? =
          some { request with progress := .running } := by simp [hrequest]
      obtain ⟨hanswers, hstage⟩ := h.picksUp honward hledger hphase hrunning rfl hpipes rfl rfl
      exact ⟨{ worker with queue := rest, phase := .waiting r pipes d.refusal }, r, hledger,
        h.alone.modify rfl rfl rfl, h.sourcePath, h.behaviour, h.count_of_head hphase hqueue, hanswers,
        hstage⟩
  | @refuse r rest f d log hphase hqueue hprogress hpipes =>
      obtain rfl := h.eq_of_head hphase hqueue
      obtain ⟨request, hrequest, -⟩ := Option.map_eq_some_iff.mp hprogress
      obtain ⟨hstdio, hcalls⟩ := h.stdio_and_calls hphase
      rw [h.refusal_braced hphase hqueue] at hpipes
      have hjob := job?_eq hledger (r := r) (request.finish (Host.uncaptured f))
        (by simp [hrequest]) (by simp [Request.finish])
      have hhandle := Sequence.handle_refused b path ⟨request.kind, request.source, s.refusalOf r⟩
        (s.served b path q r).calls (hstdio ▸ hpipes)
      obtain ⟨hanswers, hstage⟩ := h.finishes honward hjob hhandle (Host.result?_finish hrequest rfl)
        (congrArg (·.having d) hstdio) (hcalls.trans (List.append_nil _).symm)
      exact ⟨{ worker with queue := rest, phase := .serving }, r + 1, hledger,
        h.alone.modify rfl rfl rfl, h.sourcePath, h.behaviour, h.count_of_head hphase hqueue, hanswers,
        hstage⟩
  | @evaluate r pipes refusal request session stdio source name p hphase hrequest hholder hredirect
      hencoded hprogram =>
      obtain rfl := h.eq_of_held (r := r) (by rw [hphase]; rfl)
      obtain ⟨hanswers, hstage⟩ := h.evaluates honward hphase hrequest hredirect
        (h.sourcePath ▸ hencoded) (h.behaviour ▸ hprogram) rfl List.map_append
      refine ⟨{ worker with phase := .evaluating r session p }, r, hledger,
        h.alone.modify rfl rfl rfl, h.sourcePath, h.behaviour, ?_, hanswers, hstage⟩
      rw [hphase] at hcount
      exact hcount
  | @finish r request x stdio calls log hheld hrequest hends =>
      obtain rfl := h.eq_of_held hheld
      have hjob := h.job?_of_held hheld hrequest
      have hjob' := (job?_onward h.ledger honward (hcharged.held r hheld) (by simp)).trans hjob
      have hstage := h.stage
      rw [hjob] at hstage
      rw [h.sourcePath] at hends
      have hbraced : Stage b path _ _ (s.braced 0) worker.phase := hstage.congr rfl rfl fun _ => rfl
      obtain ⟨past, hhandle, hpast⟩ := hbraced.handle_eq hends
      obtain ⟨hanswers, hstage⟩ := h.finishes honward hjob' hhandle (Host.result?_finish hrequest rfl)
        rfl (by simpa [Host.calls, Function.comp_def] using hpast)
      refine ⟨{ worker with phase := .serving }, r + 1, hledger, h.alone.modify rfl rfl rfl,
        h.sourcePath, h.behaviour, ?_, hanswers, hstage⟩
      rw [hheld] at hcount
      exact hcount

end Does

end Follows

section Alone

variable (e : Circumstances) (config : Config) (source : LibrarySource) (before : List (Nat × Call))
  (log : List Log.Record)

theorem exists_rest (s : World) (w : Nat) :
    ∃ k, (s.run (List.replicate k (.work w))).host.work? w = none := by
  induction hn : s.host.remaining using Nat.strongRecOn generalizing s with
  | ind n ih =>
      cases hquiet : s.host.work? w with
      | none => exact ⟨0, hquiet⟩
      | some h =>
          obtain ⟨host, hstep⟩ : ∃ host, (s.braced w).work? w = some host := by
            have hbraced := Host.isSome_work?_refusal s.host w (s.braced w).refusal
            rw [hquiet] at hbraced
            exact Option.isSome_iff_exists.mp hbraced
          have hless : host.remaining < (s.braced w).remaining := Host.remaining_lt_of_work? hstep
          rw [show (s.braced w).remaining = n from hn] at hless
          have hwork : s.step (.work w) = { s with host } := by simp only [step, work, hstep]
          obtain ⟨k, hk⟩ := ih host.remaining hless { s with host } rfl
          refine ⟨k + 1, ?_⟩
          rw [List.replicate_succ, run_cons, hwork]
          exact hk

theorem ledger_alone : (alone e config source before log).Ledger := by
  have hempty : Host.Kept [] { (alone e config source before log).host with
      workers := [], handles := [] } := Host.kept_empty rfl rfl rfl rfl
  have hkept : Host.Kept [] (alone e config source before log).host :=
    (hempty.addHandle config source).serves (show [Handle.mk config source .fresh][0]? = _ from rfl)
      rfl rfl rfl rfl rfl
  refine ⟨hkept, ?_, ?_, ?_, ?_⟩ <;> simp [alone, Host.result?]

theorem follows_alone :
    Follows e.behaviour config.sourcePath ⟨e.stdio, before.map (·.2), []⟩
      (alone e config source before log) ⟨config.sourcePath, [], .serving⟩ 0 := by
  refine ⟨ledger_alone e config source before log, ⟨rfl, rfl, rfl⟩, rfl, rfl, rfl, rfl, ?_⟩
  exact .serving rfl rfl

end Alone

/-- **In every run the worker follows the evaluator.** -/
theorem follows_run {b : Behaviour} {path : Option Text} {q : Sequence} {s : World} {worker : Worker}
    {n : Nat} (h : Follows b path q s worker n) {acts : List Act}
    (hacts : ∀ a ∈ acts, a.makesHandle = false) :
    ∃ worker' n', Follows b path q (s.run acts) worker' n' := by
  induction acts generalizing s worker n with
  | nil => exact ⟨worker, n, h⟩
  | cons a acts ih =>
      have hmoves := moves_step s a
      have honward := hmoves.onward h.ledger.kept
      have hledger := hmoves.ledger h.ledger
      obtain ⟨worker', n', h'⟩ : ∃ worker' n', Follows b path q (s.step a) worker' n' := by
        rcases h.alone.moves hmoves (hacts a List.mem_cons_self) with
          ⟨items, hundisturbed⟩ | ⟨host, heq, hdoes⟩
        · exact ⟨_, n, h.undisturbed hundisturbed honward hledger⟩
        · rw [heq] at honward hledger ⊢
          exact h.does hdoes honward hledger
      exact ih h' fun x hx => hacts x (List.mem_cons_of_mem a hx)

/-! ### What can be seen -/

/-- What can be seen of a world with one interpreter **agrees** with a sequential evaluator that has
done all jobs. -/
structure Agrees (s : World) (q : Sequence) : Prop where
  /-- The interpreter has evaluated what the evaluator evaluates, as far as it has come. -/
  evaluations : s.host.calls.filterMap Call.evaluation? <+: q.calls.filterMap Call.evaluation?
  /-- A request is finished with its own answer. -/
  results : ∀ r x, s.host.result? r = some x → q.answers[r]? = some (some x)
  /-- A caller gets the answer of its own request. -/
  served : ∀ (c : Nat) (caller : Caller) (r : Nat) (x : Result), s.callers c = some caller →
    caller.standing = .served r x →
    s.tickets[r]? = some ⟨c, caller.handle⟩ ∧ q.answers[r]? = some (some x)
  /-- When the worker has no step left, either its evaluation stands at a gate that is closed, or
  everything is done: every request is settled, and every caller that waits can have its answer. -/
  rests : s.host.work? 0 = none →
    (∃ worker r session p, s.host.workers[0]? = some worker ∧
      worker.phase = .evaluating r session p ∧ s.host.isOpen p.gate = false) ∨
    (s.host.calls.filterMap Call.evaluation? = q.calls.filterMap Call.evaluation? ∧
      (∀ r < s.tickets.length, q.answers[r]? = some (s.host.result? r) ∧
        ∃ p, s.host.progress? r = some p ∧ p.isSettled = true) ∧
      ∀ (c : Nat) (caller : Caller) (r : Nat), s.callers c = some caller →
        caller.standing = .waiting r →
        ∃ x, (s.receive c).answer? c = some x ∧ q.answers[r]? = some (some x))

namespace Follows

variable {b : Behaviour} {path : Option Text} {q : Sequence} {s : World} {worker : Worker}
  {n r : Nat}

/-- What has been evaluated is what the evaluator has evaluated, or a part of it. -/
theorem evaluations_prefix (h : Follows b path q s worker n) :
    s.host.calls.filterMap Call.evaluation? <+:
      (s.served b path q s.tickets.length).calls.filterMap Call.evaluation? := by
  have hcount := h.count
  have hdone := s.calls_prefix_served b path q (show n ≤ s.tickets.length by omega)
  have hstage := h.stage
  generalize hphase : worker.phase = phase at hstage hcount
  cases hstage with
  | serving hstdio hcalls | waiting hjob hpipes hstdio hcalls =>
      rw [hcalls]
      exact hdone.filterMap _
  | stopped hstdio hcalls =>
      rw [hcalls, List.filterMap_append]
      simpa [List.filterMap_cons, Call.evaluation?] using hdone.filterMap Call.evaluation?
  | @evaluating job m session stdio source name p hjob hstart hencoded hprogram hstdio hcalls =>
      rcases hfinish : Capture.finish session
        (((stdio.refusing {}).applyAll p.writes).applyAll p.writesAfter) with ⟨captured, stdio'⟩
      have hnext : (s.served b path q (n + 1)).calls =
          (s.served b path q n).calls ++ .evaluate source name :: p.looks := by
        rw [served_succ, hjob, Sequence.serve,
          Sequence.handle_evaluated hstart hencoded hprogram hfinish]
      have hmore := s.calls_prefix_served b path q (show n + 1 ≤ s.tickets.length by
        simp only [Phase.request?, Option.toList_some, List.length_singleton] at hcount
        omega)
      rw [hnext] at hmore
      rw [hcalls]
      refine (List.IsPrefix.trans ?_ hmore).filterMap _
      exact (List.prefix_append_right_inj _).mpr (List.prefix_append [_] p.looks)

/-- A request that is finished is one of those that are done. -/
theorem lt_of_finished (h : Follows b path q s worker n) {x : Result}
    (hr : s.host.progress? r = some (.finished x)) : r < n := by
  obtain ⟨t, ht⟩ := exists_ticket h.ledger hr
  have hlt := (List.getElem?_eq_some_iff.mp ht).1
  by_contra hge
  have hmem : r ∈ worker.phase.request?.toList ++ worker.requests := by
    rw [h.order.1, List.mem_range'_1]
    omega
  rcases List.mem_append.mp hmem with hheld | hqueued
  · cases hr.symm.trans (h.charged.held r (by simpa using hheld))
  · rcases h.charged.queued r hqueued with hq | hq <;> cases hr.symm.trans hq

/-- When the worker has come to the end, everything is done. -/
theorem done (h : Follows b path q s worker n) (hheld : worker.phase.request? = none)
    (hrequests : worker.requests = []) : n = s.tickets.length := by
  have hcount := h.count
  simpa [hheld, hrequests] using hcount.symm

/-- When the worker has come to the end, the evaluator has evaluated nothing else. -/
theorem evaluations_eq (h : Follows b path q s worker n) (hend : n = s.tickets.length) :
    s.host.calls.filterMap Call.evaluation? =
      (s.served b path q s.tickets.length).calls.filterMap Call.evaluation? := by
  subst hend
  have hcount := h.count
  have hstage := h.stage
  generalize worker.phase = phase at hstage hcount
  cases hstage with
  | serving hstdio hcalls => rw [hcalls]
  | stopped hstdio hcalls =>
      rw [hcalls, List.filterMap_append]
      simp [List.filterMap_cons, Call.evaluation?]
  | waiting | evaluating =>
      simp only [Phase.request?, Option.toList_some, List.length_singleton] at hcount
      omega

/-- When the worker has come to the end, every caller that waits can have its result. -/
theorem result?_of_waiting (h : Follows b path q s worker n) (hend : n = s.tickets.length) {c : Nat}
    {caller : Caller} (hcaller : s.callers c = some caller) (hstanding : caller.standing = .waiting r) :
    ∃ x, s.host.result? r = some x := by
  have hfits := h.ledger.fits c caller hcaller
  rw [hstanding] at hfits
  obtain ⟨p, hp, hwaits⟩ := hfits
  obtain ⟨t, ht⟩ := exists_ticket h.ledger hp
  obtain ⟨p', hp', hsettled⟩ := h.order.2 r (hend ▸ (List.getElem?_eq_some_iff.mp ht).1)
  obtain rfl : p = p' := Option.some.inj (hp.symm.trans hp')
  cases p with
  | queued | running => cases hsettled
  | withdrawn => exact absurd rfl hwaits
  | finished x => exact ⟨x, Host.result?_eq_some_iff.mpr hp⟩

/-- A worker that rests stands at a gate, or it has come to the end. -/
theorem rests (h : Follows b path q s worker n) (hquiet : s.host.work? 0 = none) :
    (∃ r session p, worker.phase = .evaluating r session p ∧ s.host.isOpen p.gate = false) ∨
      n = s.tickets.length := by
  have hworker : s.host.workers[0]? = some worker := by simp [h.alone.workers]
  have hcharged := h.charged
  have hheld : ∀ r, worker.phase.request? = some r → (s.host.requests[r]?).isSome := fun r hr => by
    obtain ⟨request, hrequest, -⟩ := Option.map_eq_some_iff.mp (hcharged.held r hr)
    rw [hrequest]
    rfl
  have hdone : worker.phase.request? = none → worker.queue = [] → n = s.tickets.length :=
    fun hfree hqueue => h.done hfree (by simp [Worker.requests, hqueue])
  cases Host.rests_of_work? hworker hheld hquiet with
  | created hphase =>
      rcases hcharged.shape with ⟨hlive, -⟩ | ⟨-, -, hstopped⟩
      · simp [hphase, Phase.isLive] at hlive
      · cases hphase.symm.trans hstopped
  | ended hphase =>
      rcases hcharged.shape with ⟨hlive, -⟩ | ⟨-, hqueue, hstopped⟩
      · cases hworker' : worker.phase <;> simp_all [Phase.hasEnded, Phase.isLive]
      · exact .inr (hdone (by rw [hstopped]; rfl) hqueue)
  | empty hphase hqueue => exact .inr (hdone (by rw [hphase]; rfl) hqueue)
  | crowded hphase hholder =>
      obtain ⟨v, hv⟩ := Option.ne_none_iff_exists'.mp hholder
      obtain ⟨worker', hworker', hevaluating⟩ := (h.ledger.kept.holder v).mp hv
      rw [h.alone.workers] at hworker'
      obtain rfl : worker = worker' := by
        cases v with
        | zero => exact Option.some.inj hworker'
        | succ v => cases hworker'
      simp [hphase, Phase.isEvaluating] at hevaluating
  | gated hphase hgate => exact .inl ⟨_, _, _, hphase, hgate⟩

/-- A worker that follows the evaluator agrees with it. -/
theorem agrees (h : Follows b path q s worker n) :
    s.Agrees (Sequence.serveAll b path q s.jobs) := by
  have hworker : s.host.workers[0]? = some worker := by simp [h.alone.workers]
  have hcount := h.count
  have hanswers : ∀ r < n, (s.served b path q s.tickets.length).answers[r]? =
      some (s.host.result? r) := fun r hr => by
    have hprefix := s.answers_prefix_served b path q (show n ≤ s.tickets.length by omega)
    rw [h.answers] at hprefix
    obtain ⟨more, hmore⟩ := hprefix
    rw [← hmore, List.getElem?_append_left (by simpa using hr)]
    simp [hr]
  have hresults : ∀ r x, s.host.result? r = some x →
      (s.served b path q s.tickets.length).answers[r]? = some (some x) := fun r x hx => by
    rw [hanswers r (h.lt_of_finished (Host.result?_eq_some_iff.mp hx)), hx]
  refine ⟨h.evaluations_prefix, hresults, fun c caller r x hcaller hstanding => ⟨?_, ?_⟩,
    fun hquiet => ?_⟩
  · exact h.ledger.holds c caller r hcaller (by rw [hstanding]; rfl)
  · have hfits := h.ledger.fits c caller hcaller
    rw [hstanding] at hfits
    exact hresults r x (Host.result?_eq_some_iff.mpr hfits)
  · rcases h.rests hquiet with ⟨r, session, p, hphase, hgate⟩ | hend
    · exact .inl ⟨worker, r, session, p, hworker, hphase, hgate⟩
    · refine .inr ⟨h.evaluations_eq hend, fun r hr => ⟨hanswers r (hend ▸ hr), h.order.2 r (hend ▸ hr)⟩,
        fun c caller r hcaller hstanding => ?_⟩
      obtain ⟨x, hx⟩ := h.result?_of_waiting hend hcaller hstanding
      refine ⟨x, ?_, hresults r x hx⟩
      simp [receive, hcaller, hstanding, hx, answer?, Standing.answer?]

end Follows

/-- **One interpreter is a sequential evaluator.** In every run of a world with one interpreter,
what can be seen agrees with the evaluator that takes the jobs of the accepted requests in their
order; and the worker comes to rest after some more steps of its own. -/
theorem agrees_run (e : Circumstances) (config : Config) (source : LibrarySource)
    (before : List (Nat × Call)) (log : List Log.Record) {acts : List Act}
    (hacts : ∀ a ∈ acts, a.makesHandle = false) :
    let s := (alone e config source before log).run acts
    s.Agrees (Sequence.serveAll e.behaviour config.sourcePath ⟨e.stdio, before.map (·.2), []⟩ s.jobs) ∧
      ∃ k, (s.run (List.replicate k (.work 0))).host.work? 0 = none := by
  obtain ⟨worker, n, h⟩ := follows_run (follows_alone e config source before log) hacts
  exact ⟨h.agrees, exists_rest _ 0⟩

/-- Three callers, the second of which gives its queued request up, and a handle that is closed: the
first evaluation fails, and the third caller gets its own result all the same. -/
theorem agrees_run_of_three :
    let e : Circumstances := { behaviour :=
      { programs := [("a", [{ value := .nil .usual }]), ("b", [{ raised := some "broken" }])] } }
    let acts : List Act := [.call 0 0 .execute "b" none, .advance 0, .call 1 0 .execute "a" none,
      .advance 1, .call 2 0 .parse "a" none, .advance 2, .work 0, .giveUp 1 .blocked, .work 0, .work 0,
      .close 0, .receive 0, .work 0, .work 0, .work 0, .work 0, .receive 2, .work 0]
    let s := (alone e {} .given [] []).run acts
    (∀ a ∈ acts, a.makesHandle = false) ∧
      ([0, 1, 2].map fun c => (s.answer? c).map (·.status)) =
        [some .error, some .cancelled, some .success] ∧
      s.Agrees (Sequence.serveAll e.behaviour none ⟨e.stdio, [], []⟩ s.jobs) ∧
      ∃ k, (s.run (List.replicate k (.work 0))).host.work? 0 = none := by
  intro e acts s
  have hacts : ∀ a ∈ acts, a.makesHandle = false := by decide
  exact ⟨hacts, by decide +kernel, agrees_run e {} .given [] [] hacts⟩

end World

end JanetEmbedding
