import JanetEmbedding.Proofs.Discipline

/-!
# The life of a handle

A handle is fresh, then it runs, and then it is closed; and it may be closed without ever having run.
Whether a fresh handle starts is up to the library alone. If it does not start it stays as it is, and
the next attempt is made like the first.

A first call is told why its handle does not start, with one exception: if the path of the library cannot
even be handed over to the system, that is no fault of the host's own, and nobody answers the call.

## Conventions

* A handle **has** the worker that it runs with. One that is closed still tells which worker it had,
  for whoever waits for that worker to end, but nothing reaches the worker through it any more.
* What the system answers about the library may be different at every attempt, so what is said of an
  attempt is said whatever the system answers then.

## Main definitions

* `HandleState.Leads`: where a handle may stand afterwards.
* `Host.startFault?`: why a handle does not start.
* `Host.Unopenable`: a library that cannot even be tried to be opened.
* `Host.Attempts`, `Host.Unstarted`: what a start is, and what one leaves behind that fails.
* `Host.Shut`: what there is to be done with a closed handle.
* `World.Lived`: what is promised of a handle.

## Main results

* `World.Moves.leads`: what an action makes of a handle.
* `Host.attempts_start`: every start of a fresh handle is an attempt.
* `World.lived_run`: what is promised of a handle holds in every run.
* `World.unanswered_of_zeroInPath`: a first call that is not answered.
-/

namespace JanetEmbedding

open Interpreter (Call Start)

/-! ### Where a handle stands -/

/-- Where a handle may stand **afterwards**. -/
def HandleState.Leads : HandleState → HandleState → Prop
  | fresh, _ => True
  | running w, s => s = running w ∨ s = closed (some w)
  | closed former, s => s = closed former

theorem HandleState.Leads.refl (s : HandleState) : s.Leads s := by
  cases s with
  | fresh => trivial
  | running w => exact .inl rfl
  | closed former => exact rfl

theorem HandleState.Leads.trans {s t u : HandleState} (hst : s.Leads t) (htu : t.Leads u) :
    s.Leads u := by
  cases s with
  | fresh => trivial
  | running w =>
      rcases hst with rfl | rfl
      · exact htu
      · exact .inr htu
  | closed former =>
      obtain rfl := hst
      exact htu

namespace Host

/-- What a handle is **led** to: it keeps its configuration and its library. -/
def LeadsAt (h : Host) (id : Nat) (handle : Handle) : Prop :=
  ∃ state, h.handles[id]? = some { handle with state } ∧ handle.state.Leads state

theorem LeadsAt.of_eq {h : Host} {id : Nat} {handle : Handle}
    (hhandle : h.handles[id]? = some handle) : h.LeadsAt id handle :=
  ⟨handle.state, hhandle, .refl _⟩

/-- Setting where a handle stands. -/
theorem leadsAt_modify {h h' : Host} {id i : Nat} {handle other : Handle} {state : HandleState}
    (hhandle : h.handles[i]? = some handle) (hother : h.handles[id]? = some other)
    (hleads : other.state.Leads state)
    (hhandles : h'.handles = h.handles.modify id ({ · with state := state })) :
    h'.LeadsAt i handle := by
  by_cases hi : id = i
  · subst hi
    obtain rfl := Option.some.inj (hother.symm.trans hhandle)
    exact ⟨state, by simp [hhandles, hhandle], hleads⟩
  · refine .of_eq ?_
    rw [hhandles, List.getElem?_modify_ne _ _ hi]
    exact hhandle

theorem Starts.leadsAt {h h' : Host} {id i : Nat} {f : Option Fault} {handle : Handle}
    (hstarts : Starts h id f h') (hhandle : h.handles[i]? = some handle) : h'.LeadsAt i handle := by
  cases hstarts with
  | stays | fails => exact .of_eq hhandle
  | serves log hother hstate =>
      exact leadsAt_modify hhandle hother (by rw [hstate]; trivial) rfl

theorem Closes.leadsAt {h h' : Host} {id i : Nat} {handle : Handle} (hcloses : Closes h id h')
    (hhandle : h.handles[i]? = some handle) : h'.LeadsAt i handle := by
  cases hcloses with
  | stays => exact .of_eq hhandle
  | fresh shared hother hstate =>
      exact leadsAt_modify hhandle hother (by rw [hstate]; trivial) rfl
  | running shared hother hstate =>
      exact leadsAt_modify hhandle hother (by rw [hstate]; exact .inr rfl) rfl

end Host

namespace World

/-- **What an action makes of a handle.** -/
theorem Moves.leads {s s' : World} {a : Act} (hmoves : Moves s a s') {id : Nat} {handle : Handle}
    (hhandle : s.host.handles[id]? = some handle) : s'.host.LeadsAt id handle := by
  cases hmoves with
  | stays | expired | looked | turned | accepted | served | noted | opened => exact .of_eq hhandle
  | created config source => exact .of_eq (Host.handle_addHandle config source hhandle)
  | shared config source shared hstarts =>
      exact hstarts.leadsAt (Host.handle_addHandle _ source hhandle)
  | started hstarts | ready _ _ hstarts | refused _ _ hstarts => exact hstarts.leadsAt hhandle
  | @left c r caller m hcaller hstanding =>
      obtain ⟨requests, heq⟩ := Host.giveUp_snd_eq s.host r
      rw [heq]
      exact .of_eq hhandle
  | closed hcloses => exact hcloses.leadsAt hhandle
  | worked hworker hdoes => exact .of_eq ((congrArg (·[id]?) hdoes.handles_eq).trans hhandle)

theorem leads_run {s : World} {id : Nat} {handle : Handle}
    (hhandle : s.host.handles[id]? = some handle) (acts : List Act) :
    (s.run acts).host.LeadsAt id handle := by
  induction acts generalizing s handle with
  | nil => exact .of_eq hhandle
  | cons a acts ih =>
      obtain ⟨state, hnext, hleads⟩ := (moves_step s a).leads hhandle
      obtain ⟨last, hlast, hleads'⟩ := ih hnext
      exact ⟨last, hlast, hleads.trans hleads'⟩

end World

/-! ### Attempts -/

namespace Interpreter

/-- A library that is not found. -/
theorem kind_of_findLibrary {system : System} {name : Option Text} {f : BindingFault}
    (hf : findLibrary system name = .error f) : f.kind = .libraryMissing := by
  unfold findLibrary at hf
  split at hf <;> cases hf
  rfl

/-- A path that cannot be handed over is no fault of the host's own. -/
theorem isHost_of_pathFault? {system : System} {path : Text} {f : BindingFault}
    (hf : system.pathFault? path = some f) : f.kind.isHost = false := by
  unfold System.pathFault? at hf
  split at hf
  · cases hf
  · split at hf
    · cases hf
      rfl
    · split at hf <;> cases hf
      rfl

end Interpreter

/-- Why an interpreter does not start. -/
def Interpreter.Start.fault? : Start → Option Fault
  | .ok => none
  | .refused => some ⟨.initialization, "failed to initialize the janet runtime"⟩
  | .noEnvironment => some ⟨.initialization, "failed to create janet environment"⟩
  | .raised text => some ⟨.initialization, text⟩

/-- What comes of a call whose handle does not start. -/
def Outcome.ofStart {ε : Type} (f : Fault) : Outcome ε :=
  if f.kind.isHost then .answered (.failed f) else .unstarted f

namespace Host

/-- Why there is no library for a handle, given what the system answers. -/
def libraryFault? (system : Interpreter.System) (handle : Handle) : Option Fault :=
  match handle.source with
  | .given => none
  | .system =>
    match Interpreter.load system handle.config with
    | .error f => some f.fault
    | .ok _ => none

/-- Why a fresh handle does not start, given what the system answers and how the interpreter starts. -/
def startFault? (system : Interpreter.System) (handle : Handle) (next : Start) : Option Fault :=
  libraryFault? system handle <|> next.fault?

/-- The calls of the interpreter that a start makes: none, if there is no library. -/
def startCalls (system : Interpreter.System) (handle : Handle) (next : Start) : List Call :=
  if (libraryFault? system handle).isSome then [] else next.calls

/-- The library of a handle is **unopenable** if its path cannot be handed over to the system. -/
def Unopenable (system : Interpreter.System) (handle : Handle) : Prop :=
  handle.source = .system ∧ ∃ path, Interpreter.findLibrary system handle.config.library = .ok path ∧
    system.pathFault? path ≠ none

/-- What is wrong with a library that is looked for and opened. -/
theorem kind_of_load {system : Interpreter.System} {handle : Handle} {f : Interpreter.BindingFault}
    (hsource : handle.source = .system) (hf : Interpreter.load system handle.config = .error f) :
    f.kind = .libraryMissing ∧ ¬ Unopenable system handle ∨
      f.kind.isHost = false ∧ Unopenable system handle := by
  simp only [Unopenable, hsource, true_and]
  unfold Interpreter.load Interpreter.openFor at hf
  cases hfind : Interpreter.findLibrary system handle.config.library with
  | error g =>
      rw [hfind] at hf
      obtain rfl : g = f := Except.error.inj hf
      exact .inl ⟨Interpreter.kind_of_findLibrary hfind, by simp⟩
  | ok path =>
      simp only [hfind, bind, Except.bind, Interpreter.openLibrary] at hf
      cases hpath : system.pathFault? path with
      | some g =>
          rw [hpath] at hf
          obtain rfl : g = f := Except.error.inj hf
          exact .inr ⟨Interpreter.isHost_of_pathFault? hpath, path, rfl, by simp [hpath]⟩
      | none =>
          refine .inl ⟨?_, by simp [hpath]⟩
          cases hload : system.loadError with
          | some reason =>
              rw [hpath, hload] at hf
              cases hf
              rfl
          | none =>
              simp only [hpath, hload, Interpreter.checkExports] at hf
              split at hf <;> cases hf
              rfl

/-- **Why a handle does not start**: there is no library, or the interpreter does not start, or the library
is unopenable. -/
theorem kind_of_startFault? {system : Interpreter.System} {handle : Handle} {next : Start} {f : Fault}
    (hf : startFault? system handle next = some f) :
    (f.kind = .libraryMissing ∨ f.kind = .initialization) ∧ ¬ Unopenable system handle ∨
      f.kind.isHost = false ∧ Unopenable system handle := by
  have hnext : next.fault? = some f → f.kind = .initialization := by
    intro hf
    cases next <;> cases hf <;> rfl
  unfold startFault? libraryFault? at hf
  split at hf
  next hsource => exact .inl ⟨.inr (hnext hf), fun h => by simp [Unopenable, hsource] at h⟩
  next hsource =>
    split at hf
    next g hload =>
      cases hf
      exact (kind_of_load hsource hload).imp_left fun h => ⟨.inl h.1, h.2⟩
    next b hload =>
      refine .inl ⟨.inr (hnext hf), ?_⟩
      rintro ⟨-, path, hfind, hpath⟩
      obtain ⟨g, hg⟩ := Option.ne_none_iff_exists'.mp hpath
      simp [Interpreter.load, Interpreter.openFor, hfind, bind, Except.bind, Interpreter.openLibrary, hg]
        at hload

theorem acquireLibrary_fst (h : Host) (handle : Handle) :
    (h.acquireLibrary handle).1 = libraryFault? h.system handle := by
  cases hsource : handle.source with
  | given => simp only [acquireLibrary, libraryFault?, hsource]
  | system =>
      simp only [acquireLibrary, libraryFault?, hsource, Interpreter.load]
      cases Interpreter.openFor h.system handle.config with
      | error f => rfl
      | ok b =>
          have hsystem : (h.note .debug .binding b.announcement).system = h.system := rfl
          simp only [hsystem, bind, Except.bind]
          cases Interpreter.checkExports h.system b <;> rfl

theorem startWorker_fst (h : Host) (w : Nat) : (h.startWorker w).1 = h.nextStart.fault? := by
  unfold startWorker nextStart
  cases h.behaviour.start (h.calls.countP (· = .init)) <;> rfl

section Fresh

variable {h : Host} {id : Nat} {handle : Handle}

/-- Without a library there is no worker. -/
theorem startFresh_of_fault (id : Nat) {f : Fault} (hf : libraryFault? h.system handle = some f) :
    ∃ log, h.startFresh id handle = (some f, { h with log }) := by
  obtain ⟨log, hlog, -⟩ := acquireLibrary_eq h handle
  have hacquire : h.acquireLibrary handle = (some f, { h with log }) :=
    Prod.ext ((acquireLibrary_fst h handle).trans hf) hlog
  exact ⟨log, by rw [startFresh, hacquire]⟩

/-- With a library it is up to the interpreter. -/
theorem startFresh_of_library (id : Nat) (hf : libraryFault? h.system handle = none) :
    (h.startFresh id handle).1 = h.nextStart.fault? ∧
      (h.startFresh id handle).2.trace =
        h.trace ++ h.nextStart.calls.map (h.workers.length, ·) := by
  obtain ⟨log, hlog, -⟩ := acquireLibrary_eq h handle
  have hacquire : h.acquireLibrary handle = (none, { h with log }) :=
    Prod.ext ((acquireLibrary_fst h handle).trans hf) hlog
  simp only [startFresh, hacquire, addWorker]
  generalize hready : Host.mk _ _ _ _ _ _ _ _ _ _ _ _ = ready
  have hfault := startWorker_fst ready h.workers.length
  have hnext : ready.nextStart = h.nextStart := by rw [← hready]; rfl
  have htrace : ready.trace = h.trace := by rw [← hready]
  rcases startWorker_cases ready h.workers.length with
    ⟨f, calls, log, -, -, hcalls, -, heq⟩ | ⟨hok, log, heq⟩
  · rw [heq] at hfault ⊢
    exact ⟨hfault.trans (by rw [hnext]), by simp only [hcalls, hnext, htrace]⟩
  · rw [heq] at hfault ⊢
    rw [← hnext, hok]
    exact ⟨rfl, by simp only [htrace]; rfl⟩

theorem start_of_fresh (hhandle : h.handles[id]? = some handle) (hfresh : handle.state = .fresh) :
    h.start id = h.startFresh id handle := by
  simp only [start, hhandle, hfresh]

/-- **Whether a fresh handle starts** is up to the library alone. -/
theorem start_fst_of_fresh (hhandle : h.handles[id]? = some handle)
    (hfresh : handle.state = .fresh) :
    (h.start id).1 = startFault? h.system handle h.nextStart := by
  rw [start_of_fresh hhandle hfresh, startFault?]
  cases hf : libraryFault? h.system handle with
  | some f =>
      obtain ⟨log, heq⟩ := startFresh_of_fault id hf
      rw [heq]
      rfl
  | none => exact (startFresh_of_library id hf).1

/-- The calls of the interpreter that it takes. -/
theorem trace_start_of_fresh (hhandle : h.handles[id]? = some handle)
    (hfresh : handle.state = .fresh) :
    (h.start id).2.trace =
      h.trace ++ (startCalls h.system handle h.nextStart).map (h.workers.length, ·) := by
  rw [start_of_fresh hhandle hfresh, startCalls]
  cases hf : libraryFault? h.system handle with
  | some f =>
      obtain ⟨log, heq⟩ := startFresh_of_fault id hf
      rw [heq]
      simp
  | none => exact (startFresh_of_library id hf).2

end Fresh

/-- What a start **leaves** behind that fails: workers that have failed, of which no handle knows, and
calls of the interpreter that evaluate nothing. -/
structure Unstarted (h : Host) (id : Nat) (f : Fault) (h' : Host) : Prop where
  left : ∃ workers calls log, h' =
      { h with workers := h.workers ++ workers, trace := h.trace ++ calls, log } ∧
    (∀ worker ∈ workers, worker.phase = .failed f ∧ worker.queue = []) ∧
    ∀ entry ∈ calls, Call.evaluation? entry.2 = none
  status : h'.status? id = some { state := .fresh }

/-- What a start of a fresh handle **is**, which a first call makes too. -/
structure Attempts (h : Host) (id : Nat) (handle : Handle) : Prop where
  outcome : (h.start id).1 = startFault? h.system handle h.nextStart
  calls : (h.start id).2.trace =
    h.trace ++ (startCalls h.system handle h.nextStart).map (h.workers.length, ·)
  fails : ∀ f, (h.start id).1 = some f → Unstarted h id f (h.start id).2
  /-- There is no library or the interpreter does not start, unless the library is unopenable. -/
  kind : ∀ f, (h.start id).1 = some f →
    (f.kind = .libraryMissing ∨ f.kind = .initialization) ∧ ¬ Unopenable h.system handle ∨
      f.kind.isHost = false ∧ Unopenable h.system handle
  runs : (h.start id).1 = none →
    (h.start id).2.handles[id]? = some { handle with state := .running h.workers.length } ∧
    (h.start id).2.workers[h.workers.length]? = some ⟨handle.config.sourcePath, [], .serving⟩
  /-- A call that has time is told why the handle does not start, if that is one of the host's own faults,
  and nothing else comes of it. -/
  told : ∀ f, (h.start id).1 = some f → ∀ kind source timeout gates,
    (patience handle timeout).any (·.isOver) = false →
      h.callTask id kind source timeout gates = (.ofStart f, (h.start id).2) ∧
      h.callBlocking id kind source timeout gates = (.ofStart f, (h.start id).2)

/-- A handle that is not there for its worker has nothing that is busy or queued. -/
theorem status?_of_idle {h : Host} {id : Nat} {handle : Handle}
    (hhandle : h.handles[id]? = some handle) (hidle : handle.state.worker? = none) :
    h.status? id = some { state := handle.state } := by
  simp [status?, hhandle, hidle]

theorem unstarted_of_starts {h h' : Host} {id : Nat} {handle : Handle} {f : Fault}
    (hstarts : Starts h id (some f) h') (hhandle : h.handles[id]? = some handle)
    (hfresh : handle.state = .fresh) : Unstarted h id f h' := by
  have hstatus : ∀ {h' : Host}, h'.handles = h.handles →
      h'.status? id = some { state := .fresh } := by
    intro h' hhandles
    rw [status?_of_idle (hhandles ▸ hhandle) (by rw [hfresh]; rfl), hfresh]
  cases hstarts with
  | stays f log => exact ⟨⟨[], [], log, by simp, by simp, by simp⟩, hstatus rfl⟩
  | @fails other f calls log hother hstate hcalls =>
      refine ⟨⟨[⟨other.config.sourcePath, [], .failed f⟩], _, log, rfl, by simp, ?_⟩,
        hstatus rfl⟩
      simpa using hcalls

/-- A call whose handle does not start. -/
theorem callWithin_of_fault {ε : Type} (fault? : Seconds → Option ε) {h : Host} {id : Nat}
    {handle : Handle} {f : Fault} (hhandle : h.handles[id]? = some handle)
    (hfresh : handle.state = .fresh) (hf : (h.start id).1 = some f) (kind : RequestKind)
    (source : Text) {timeout : Option Seconds} (gates : List String)
    (hover : (patience handle timeout).any (·.isOver) = false) :
    h.callWithin fault? id kind source timeout gates = (.ofStart f, (h.start id).2) := by
  rcases hstart : h.start id with ⟨g, h'⟩
  rw [hstart] at hf
  obtain rfl : g = some f := hf
  have hbegun : h.beginCall id kind source timeout = (.unstarted f, h') := by
    simp [beginCall, hhandle, hover, hfresh, hstart]
  simp only [callWithin, hbegun, Begun.unstarted, Outcome.ofStart]
  cases f.kind.isHost <;> rfl

/-- **Every start of a fresh handle** is an attempt. -/
theorem attempts_start {h : Host} {id : Nat} {handle : Handle}
    (hhandle : h.handles[id]? = some handle) (hfresh : handle.state = .fresh) :
    Attempts h id handle := by
  have houtcome := start_fst_of_fresh hhandle hfresh
  have hstarts := starts_start h id
  refine ⟨houtcome, trace_start_of_fresh hhandle hfresh, ?_, ?_, ?_, ?_⟩
  · intro f hf
    rw [hf] at hstarts
    exact unstarted_of_starts hstarts hhandle hfresh
  · intro f hf
    exact kind_of_startFault? (houtcome.symm.trans hf)
  · intro hnone
    rw [hnone] at hstarts
    generalize (h.start id).2 = h' at hstarts ⊢
    cases hstarts with
    | stays f log hfault hstarted => exact absurd hfresh (hstarted rfl handle hhandle)
    | serves log hother =>
        obtain rfl := Option.some.inj (hother.symm.trans hhandle)
        constructor
        · simp [hhandle]
        · simp
  · intro f hf kind source timeout gates hover
    constructor
    · exact callWithin_of_fault _ hhandle hfresh hf kind source gates hover
    · exact callWithin_of_fault _ hhandle hfresh hf kind source gates hover

/-! ### Closed handles -/

/-- A call on a handle that is not fresh is a request, or it is answered without one. -/
theorem callWithin_of_closed {ε : Type} (fault? : Seconds → Option ε) {h : Host} {id : Nat}
    {handle : Handle} (hhandle : h.handles[id]? = some handle)
    (hclosed : handle.state.isClosed = true) (kind : RequestKind) (source : Text)
    (timeout : Option Seconds) (gates : List String) :
    h.callWithin fault? id kind source timeout gates = (.answered
      (if (patience handle timeout).any (·.isOver) then .expired false else closedAnswer), h) := by
  have hsubmit : h.submit id kind source = (.answered closedAnswer, h) := by
    have hidle := worker?_of_isClosed (isClosed_eq_true_iff.mpr ⟨handle, hhandle, hclosed⟩)
    simp [submit, hidle]
  have hbegun : h.beginCall id kind source timeout = (.answered
      (if (patience handle timeout).any (·.isOver) then .expired false else closedAnswer), h) := by
    simp only [beginCall, hhandle]
    split
    · rfl
    · cases hstate : handle.state with
      | fresh => simp [hstate, HandleState.isClosed] at hclosed
      | running | closed => exact hsubmit
  simp [callWithin, hbegun, awaitWithin]

end Host

namespace World

/-- A handle that is **shut**: whoever starts it or calls it leaves the host as it is. -/
structure Shut (s : World) (id : Nat) (handle : Handle) : Prop where
  start : s.host.start id = (some ⟨.closed, "VM has been closed; create a new one"⟩, s.host)
  calls : ∀ kind source timeout gates, ∃ x : Result,
    (x = .expired false ∨ x = Host.closedAnswer) ∧
      s.host.callTask id kind source timeout gates = (.answered x, s.host) ∧
      s.host.callBlocking id kind source timeout gates = (.answered x, s.host)
  /-- So does a caller that had begun before, if its request is not accepted yet. -/
  callers : ∀ c caller, s.callers c = some caller → caller.handle = id →
    (s.step (.advance c)).host = s.host

theorem shut_of_closed {s : World} {id : Nat} {handle : Handle}
    (hhandle : s.host.handles[id]? = some handle) (hclosed : handle.state.isClosed = true) :
    Shut s id handle := by
  have hstart : s.host.start id =
      (some ⟨.closed, "VM has been closed; create a new one"⟩, s.host) := by
    cases hstate : handle.state with
    | closed former => simp only [Host.start, hhandle, hstate]
    | fresh | running => simp [hstate, HandleState.isClosed] at hclosed
  refine ⟨hstart, ?_, ?_⟩
  · intro kind source timeout gates
    refine ⟨_, ?_, Host.callWithin_of_closed _ hhandle hclosed kind source timeout gates,
      Host.callWithin_of_closed _ hhandle hclosed kind source timeout gates⟩
    split
    · exact .inl rfl
    · exact .inr rfl
  · rintro c caller hcaller rfl
    have hidle := Host.worker?_of_isClosed (Host.isClosed_eq_true_iff.mpr ⟨handle, hhandle, hclosed⟩)
    simp only [World.step, advance, hcaller]
    cases hstanding : caller.standing with
    | starting => simp only [hstart, put_host]
    | submitting => simp only [Host.submit, hidle, put_host]
    | dismissed | raised | waiting | served | gone => rfl

/-! ### What is promised of every handle -/

/-- What is promised of the **life** of a handle, from any state of a run on. -/
structure Lived (e : Circumstances) (s : World) (id : Nat) (handle : Handle) : Prop where
  /-- It is fresh, then it runs, and then it is closed for good. -/
  onward : ∀ more, ∃ state, (s.run more).host.handles[id]? = some { handle with state } ∧
    handle.state.Leads state
  /-- While it runs it has a worker, which takes its requests and belongs to no other handle. -/
  staffed : ∀ w, handle.state.worker? = some w → ∃ worker, s.host.workers[w]? = some worker ∧
    worker.phase.isLive = true ∧ ∀ other, s.host.workerOf? other = some w → other = id
  /-- While it does not, nothing is busy or queued, and nothing comes to be. -/
  idle : handle.state.worker? = none → s.host.status? id = some { state := handle.state } ∧
    ∀ kind source, s.host.submit id kind source = (.answered Host.closedAnswer, s.host)
  /-- Nothing has ever been queued for a handle that is fresh. -/
  unused : handle.state = .fresh → s.host.workerOf? id = none ∧ ∀ t ∈ s.tickets, t.handle ≠ id
  /-- The interpreters start as the library has it, one after the other. -/
  next : s.host.nextStart = e.behaviour.start s.host.workers.length
  fresh : handle.state = .fresh → ∀ system, Host.Attempts { s.host with system } id handle
  /-- A caller that has found the handle fresh is told why it does not start, if that is one of the host's
  own faults. -/
  told : ∀ c caller f, s.callers c = some caller → caller.handle = id →
    caller.standing = .starting → (s.host.start id).1 = some f →
      s.step (.advance c) = { s with host := (s.host.start id).2 }.put c caller (.unstarted f)
  closed : handle.state.isClosed = true → Shut s id handle

/-- **What is promised of a handle** holds in every run. -/
theorem lived_run (e : Circumstances) (acts : List Act) {id : Nat} {handle : Handle}
    (hhandle : ((opening e).run acts).host.handles[id]? = some handle) :
    Lived e ((opening e).run acts) id handle := by
  have hkept := kept_run (kept_opening e) acts
  have hcalled := called_run e acts
  have hnext : ((opening e).run acts).host.nextStart =
      e.behaviour.start ((opening e).run acts).host.workers.length := by
    rw [Host.nextStart, hcalled.behaviour, hcalled.started]
  generalize (opening e).run acts = s at *
  refine ⟨leads_run hhandle, ?_, ?_, ?_, hnext, ?_, ?_, shut_of_closed hhandle⟩
  · intro w hw
    have hworker : s.host.handles[id]?.bind (·.state.worker?) = some w := by
      rw [hhandle, Option.bind_some, hw]
    obtain ⟨hhired, hopen⟩ := Host.workerOf?_of_worker? hworker
    obtain ⟨worker, hworker, hcharged⟩ := Host.Kept.attached hkept id w hhired
    refine ⟨worker, hworker, ?_, fun other hother => Host.Kept.sole hkept other id w hother hhired⟩
    rcases hcharged.shape with ⟨hlive, -⟩ | ⟨hclosed, -⟩
    · exact hlive
    · cases hopen.symm.trans hclosed
  · intro hidle
    refine ⟨Host.status?_of_idle hhandle hidle, fun kind source => ?_⟩
    simp [Host.submit, hhandle, hidle]
  · intro hfresh
    have hnone : s.host.workerOf? id = none := by
      simp [Host.workerOf?, hhandle, hfresh, HandleState.hired?]
    refine ⟨hnone, ?_⟩
    rintro t ht rfl
    have howned := Host.Kept.owned hkept t.handle (List.mem_map_of_mem ht)
    rw [hnone] at howned
    cases howned
  · intro hfresh system
    exact Host.attempts_start hhandle hfresh
  · rintro c caller f hcaller rfl hstanding hf
    rcases hstart : s.host.start caller.handle with ⟨g, host⟩
    rw [hstart] at hf
    obtain rfl : g = some f := hf
    simp only [World.step, advance, hcaller, hstanding, hstart]

/-- A handle that does not start three times, once because of a call. It is still fresh then, and the
next call has it started and is served. Closed, it is left alone. -/
theorem lived_run_of_three_faults :
    let e : Circumstances := { behaviour :=
      { programs := [("a", [{}])], starts := [.refused, .raised "broken", .noEnvironment, .ok] } }
    let acts : List Act := [.create {} .given, .call 0 0 .execute "a" none, .advance 0, .start 0,
      .start 0]
    let more : List Act := [.call 1 0 .execute "a" none, .advance 1, .advance 1, .work 3, .work 3,
      .work 3, .receive 1, .close 0, .start 0]
    ((opening e).run acts).host.handles[0]? = some ⟨{}, .given, .fresh⟩ ∧
      Lived e ((opening e).run acts) 0 ⟨{}, .given, .fresh⟩ ∧
      (((opening e).run acts).answer? 0).map Result.formatError =
        some "InitializationError: failed to initialize the janet runtime" ∧
      ((opening e).run acts).host.requests.length = 0 ∧
      ((((opening e).run acts).run more).answer? 1).map (·.status) = some .success ∧
      (((opening e).run acts).run more).host.handles[0]? = some ⟨{}, .given, .closed (some 3)⟩ ∧
      Lived e (((opening e).run acts).run more) 0 ⟨{}, .given, .closed (some 3)⟩ := by
  intro e acts more
  have hfresh : ((opening e).run acts).host.handles[0]? = some ⟨{}, .given, .fresh⟩ := by
    decide +kernel
  have hclosed : (((opening e).run acts).run more).host.handles[0]? =
      some ⟨{}, .given, .closed (some 3)⟩ := by decide +kernel
  refine ⟨hfresh, lived_run e acts hfresh, ?_, ?_, ?_, hclosed, ?_⟩
  · decide +kernel
  · decide +kernel
  · decide +kernel
  · rw [← run_append] at hclosed ⊢
    exact lived_run e (acts ++ more) hclosed

/-- **A first call that is not answered**: the path of its library holds a zero. Its caller is not told that
there is no library, and neither is one that starts the handle itself. -/
theorem unanswered_of_zeroInPath :
    let h := ((opening {}).run [.create { library := some "a\x00b" } .system]).host
    (h.callBlocking 0 .execute "1" none []).1.answer?.isNone = true ∧
      (h.callTask 0 .execute "1" none []).1.answer?.isNone = true ∧
      (h.start 0).1 = some ⟨.value, "embedded null byte"⟩ := by
  refine ⟨?_, ?_, ?_⟩ <;> decide +kernel

end World

end JanetEmbedding
