import JanetEmbedding.Proofs.Evaluations
import JanetEmbedding.Proofs.Sequence
import Mathlib.Data.List.Forall2

/-!
# A worker and its queue

The handles of a host put items into the queue of a worker in a certain order only: no request stands
behind the order to stop. The worker does not rely on it. This module follows a worker over any queue
whatever, with orders to stop at any places, from its start to its end: every request of the queue is
settled once, those in front of the first order to stop by their evaluation, and those behind it by
refusal.

## Conventions

* Nobody but the worker acts meanwhile, but gates may be opened. There may be other workers and other
  requests.
* What the requests in front come to is what the sequential evaluator makes of them. A request that has
  been withdrawn is no job.

## Main definitions

* `Item.front`, `Item.behind`: the requests of a queue in front of the first order to stop, and those
  behind it.
* `World.Loaded`: a worker and its queue.
* `World.At`: how far the worker has come.
* `World.Drained`: what has become of the queue when the worker has ended.

## Main results

* `World.At.does`: a step of the worker.
* `World.drained_run`: when the worker has ended, its queue is drained; and it ends, unless an
  evaluation stands at a gate.
-/

namespace JanetEmbedding

open Interpreter (Call Behaviour)

/-! ### Queues -/

namespace Item

/-- The requests in **front** of the first order to stop. -/
def front : List Item → List Nat
  | [] => []
  | .stop :: _ => []
  | .request r :: items => r :: front items

/-- The requests **behind** the first order to stop. -/
def behind : List Item → List Nat
  | [] => []
  | .stop :: items => items.filterMap request?
  | .request _ :: items => behind items

theorem front_append_stop (done : List Nat) (rest : List Item) :
    front (done.map .request ++ .stop :: rest) = done := by
  induction done with
  | nil => rfl
  | cons r done ih => simp [front, ih]

theorem behind_append_stop (done : List Nat) (rest : List Item) :
    behind (done.map .request ++ .stop :: rest) = rest.filterMap request? := by
  induction done with
  | nil => rfl
  | cons r done ih => simp [behind, ih]

/-- Every request of a queue is in front or behind. -/
theorem mem_front_or_behind {items : List Item} {r : Nat} (hr : r ∈ items.filterMap request?) :
    r ∈ front items ∨ r ∈ behind items := by
  induction items with
  | nil => cases hr
  | cons item items ih =>
      cases item with
      | stop => exact .inr hr
      | request v =>
          rcases List.mem_cons.mp hr with rfl | hr
          · exact .inl List.mem_cons_self
          · exact (ih hr).imp_left (List.mem_cons_of_mem v)

@[simp] theorem request?_comp_request : request? ∘ Item.request = some := rfl

end Item

namespace Host

theorem refuseQueued_of_ne {q : Request} (h : q.progress ≠ .queued) : refuseQueued q = q := by
  unfold refuseQueued
  split
  next hqueued => exact absurd hqueued h
  next => rfl

theorem refuseQueued_refuseQueued (q : Request) :
    refuseQueued (refuseQueued q) = refuseQueued q := by
  obtain ⟨kind, source, progress, abandoned⟩ := q
  cases progress <;> rfl

/-- What is left in a queue is refused, and nothing else. -/
theorem getElem?_failPending (h : Host) (items : List Item) (r : Nat) :
    (h.failPending items).requests[r]? =
      if r ∈ items.filterMap Item.request? then h.requests[r]?.map refuseQueued
      else h.requests[r]? := by
  induction items generalizing h with
  | nil => rfl
  | cons item items ih =>
      cases item with
      | stop => simpa [failPending, List.filterMap_cons] using ih h
      | request v =>
          rw [failPending, ih, updateRequest, List.getElem?_modify]
          by_cases hv : v = r
          · subst hv
            by_cases hmem : v ∈ items.filterMap Item.request?
            · cases h.requests[v]? <;> simp [hmem, refuseQueued_refuseQueued]
            · simp [hmem]
          · simp [hv, Ne.symm hv]

end Host

/-! ### What a job comes to -/

namespace Sequence

/-- What a job **comes to**: it is evaluated once, unless its result says why it is not, and then the
interpreter is not called. -/
inductive Serves (b : Behaviour) (path : Option Text) :
    Option Job → List Call → Option Result → Prop
  | dropped : Serves b path none [] none
  | unevaluated {job : Job} {x : Result} (hx : x.Unevaluated) : Serves b path (some job) [] (some x)
  /-- The source is evaluated for the time that its number says. -/
  | evaluated {job : Job} {source : String} {name : Option String} (n : Nat)
      (captured : Capture.Captured) (hencoded : Call.encoded job.source path = .ok (source, name)) :
      Serves b path (some job) (.evaluate source name :: (b.program source n).looks)
        (some ((b.program source n).result job.kind captured))

variable (b : Behaviour) (path : Option Text)

/-- A job that is not dropped has a result. -/
theorem Serves.isSome {b : Behaviour} {path : Option Text} {job : Job} {calls : List Call}
    {x : Option Result} (h : Serves b path (some job) calls x) : x.isSome = true := by
  cases h <;> rfl

theorem serves_handle (job : Job) (stdio : Stdio) (past : List Call) :
    Serves b path (some job) (handle b path job stdio past).2.2
      (some (handle b path job stdio past).1) := by
  unfold handle
  split
  next f stdio' hstart => exact .unevaluated ⟨⟨.capture, f.message⟩, rfl, .inl rfl⟩
  next session stdio' hstart =>
    split
    next f hencoded => exact .unevaluated ⟨⟨.encoding, f.message⟩, rfl, .inr rfl⟩
    next source name hencoded => exact .evaluated _ _ hencoded

theorem serves_serve (q : Sequence) (job : Option Job) :
    ∃ calls x, Serves b path job calls x ∧ (serve b path q job).calls = q.calls ++ calls ∧
      (serve b path q job).answers = q.answers ++ [x] := by
  cases job with
  | none => exact ⟨[], none, .dropped, (List.append_nil _).symm, rfl⟩
  | some job => exact ⟨_, _, serves_handle b path job q.stdio q.calls, rfl, rfl⟩

/-- The calls of a sequential evaluator are those of its jobs, one after the other. -/
theorem exists_parts (q : Sequence) (jobs : List (Option Job)) :
    ∃ parts : List (List Call × Option Result),
      List.Forall₂ (fun job part => Serves b path job part.1 part.2) jobs parts ∧
      (serveAll b path q jobs).calls = q.calls ++ (parts.map (·.1)).flatten ∧
      (serveAll b path q jobs).answers = q.answers ++ parts.map (·.2) := by
  induction jobs generalizing q with
  | nil => exact ⟨[], .nil, by simp [serveAll], by simp [serveAll]⟩
  | cons job jobs ih =>
      obtain ⟨calls, x, hserves, hcalls, hanswers⟩ := serves_serve b path q job
      obtain ⟨parts, hparts, hcalls', hanswers'⟩ := ih (serve b path q job)
      have hnext : serveAll b path q (job :: jobs) = serveAll b path (serve b path q job) jobs := rfl
      refine ⟨(calls, x) :: parts, .cons hserves hparts, ?_, ?_⟩
      · rw [hnext, hcalls', hcalls]
        simp
      · rw [hnext, hanswers', hanswers]
        simp

end Sequence

namespace World

/-! ### A worker and its queue -/

/-- The job of a request that is queued. -/
def pendingJob? (s : World) (r : Nat) : Option Job :=
  match s.host.requests[r]? with
  | some ⟨kind, source, .queued, _⟩ => some ⟨kind, source, s.refusalOf r⟩
  | _ => none

theorem pendingJob?_eq {s : World} {r : Nat} {q : Request} (hrequest : s.host.requests[r]? = some q)
    (hqueued : q.progress = .queued) : s.pendingJob? r = some ⟨q.kind, q.source, s.refusalOf r⟩ := by
  obtain ⟨kind, source, progress, abandoned⟩ := q
  obtain rfl : progress = .queued := hqueued
  simp [pendingJob?, hrequest]

theorem pendingJob?_of_withdrawn {s : World} {r : Nat} (hr : s.host.progress? r = some .withdrawn) :
    s.pendingJob? r = none := by
  obtain ⟨⟨kind, source, progress, abandoned⟩, hrequest, hwithdrawn⟩ := Option.map_eq_some_iff.mp hr
  obtain rfl : progress = .withdrawn := hwithdrawn
  simp [pendingJob?, hrequest]

/-- The worker has some queue, of requests that are queued or withdrawn, none of them twice. -/
structure Loaded (s : World) (w : Nat) (path : Option Text) (items : List Item) (phase : Phase) :
    Prop where
  present : s.host.workers[w]? = some ⟨path, items, phase⟩
  distinct : (items.filterMap Item.request?).Nodup
  pending : ∀ r ∈ items.filterMap Item.request?,
    s.host.progress? r = some .queued ∨ s.host.progress? r = some .withdrawn

/-- The evaluator when it has come past some requests. -/
def past (s : World) (path : Option Text) (done : List Nat) : Sequence :=
  Sequence.serveAll s.host.behaviour path ⟨s.host.stdio, s.host.calls, []⟩ (done.map s.pendingJob?)

theorem past_concat (s : World) (path : Option Text) (done : List Nat) (r : Nat) :
    s.past path (done ++ [r]) =
      Sequence.serve s.host.behaviour path (s.past path done) (s.pendingJob? r) := by
  rw [past, List.map_append, List.map_singleton, Sequence.serveAll_concat]
  rfl

/-- **How far the worker has come** since a world in which it began to serve: past some requests, and
maybe to one that it handles. -/
structure At (s₀ : World) (w : Nat) (path : Option Text) (items : List Item) (done : List Nat)
    (worker : Worker) (s : World) : Prop where
  present : s.host.workers[w]? = some worker
  sourcePath : worker.sourcePath = path
  live : worker.phase.isLive = true
  split : items = (done ++ worker.phase.request?.toList).map .request ++ worker.queue
  behaviour : s.host.behaviour = s₀.host.behaviour
  refusals : ∀ r, s.refusalOf r = s₀.refusalOf r
  trace : ∃ calls : List Call, s.host.trace = s₀.host.trace ++ calls.map (w, ·)
  answers : (s₀.past path done).answers = done.map s.host.result?
  stage : Stage s₀.host.behaviour path (s₀.past path done)
    (worker.phase.request?.bind s₀.pendingJob?) s.host worker.phase
  held : ∀ r, worker.phase.request? = some r → ∃ q, s₀.host.requests[r]? = some q ∧
    q.progress = .queued ∧ s.host.requests[r]? = some { q with progress := .running }
  /-- What the worker has not handled is as it was. -/
  untouched : ∀ r, (s₀.host.progress? r = some .queued → r ∉ done ∧ worker.phase.request? ≠ some r) →
    s.host.requests[r]? = s₀.host.requests[r]?
  free : s₀.host.holder = none →
    s.host.holder = none ∨ ∃ r session p, worker.phase = .evaluating r session p

/-- **What has become of a queue** when its worker has ended. -/
structure Over (s₀ : World) (w : Nat) (path : Option Text) (items : List Item) (s : World) : Prop where
  present : s.host.workers[w]? = some ⟨path, [], .stopped⟩
  trace : ∃ calls : List Call, (s₀.past path (Item.front items)).calls = s₀.host.calls ++ calls ∧
    s.host.trace = s₀.host.trace ++ (calls ++ [Call.deinit]).map (w, ·)
  answers : (s₀.past path (Item.front items)).answers = (Item.front items).map s.host.result?
  refused : ∀ r ∈ Item.behind items, s₀.host.progress? r = some .queued →
    s.host.result? r = some Host.closedBefore
  untouched : ∀ r, (s₀.host.progress? r = some .queued → r ∉ items.filterMap Item.request?) →
    s.host.requests[r]? = s₀.host.requests[r]?

variable {s₀ s : World} {w : Nat} {path : Option Text} {items : List Item} {done : List Nat}
  {worker : Worker}

theorem Loaded.at (h : Loaded s w path items .serving) : At s w path items [] ⟨path, items, .serving⟩ s where
  present := h.present
  sourcePath := rfl
  live := rfl
  split := rfl
  behaviour := rfl
  refusals _ := rfl
  trace := ⟨[], by simp⟩
  answers := rfl
  stage := .serving rfl rfl
  held r hr := by cases hr
  untouched _ _ := rfl
  free hfree := .inl hfree

namespace At

/-- The request at the head of the queue is a new one. -/
theorem head (h : At s₀ w path items done worker s) (hloaded : Loaded s₀ w path items .serving)
    (hphase : worker.phase = .serving) {r : Nat} {rest : List Item}
    (hqueue : worker.queue = .request r :: rest) :
    r ∉ done ∧ s.host.requests[r]? = s₀.host.requests[r]? ∧
      (s₀.host.progress? r = some .queued ∨ s₀.host.progress? r = some .withdrawn) := by
  have hsplit := h.split
  rw [hphase, hqueue] at hsplit
  have hrequests : items.filterMap Item.request? = done ++ r :: rest.filterMap Item.request? := by
    simp [hsplit, Phase.request?]
  have hdistinct := hloaded.distinct
  rw [hrequests] at hdistinct
  have hnew : r ∉ done := fun hmem =>
    (List.nodup_append.mp hdistinct).2.2 r hmem r List.mem_cons_self rfl
  refine ⟨hnew, h.untouched r fun _ => ⟨hnew, by simp [hphase, Phase.request?]⟩, ?_⟩
  exact hloaded.pending r (by simp [hrequests])

/-- What the system refuses to the capture of the request that the worker takes next. -/
theorem refusal_braced (h : At s₀ w path items done worker s) (hphase : worker.phase = .serving)
    {r : Nat} {rest : List Item} (hqueue : worker.queue = .request r :: rest) :
    (s.braced w).refusal = s₀.refusalOf r := by
  have hworker := h.present
  obtain ⟨sourcePath, queue, phase⟩ := worker
  obtain rfl : phase = .serving := hphase
  obtain rfl : queue = .request r :: rest := hqueue
  simp [braced, Host.next?, hworker, h.refusals]

/-- The process and the calls when the worker is ready for the next item. -/
theorem stdio_and_calls (h : At s₀ w path items done worker s) (hphase : worker.phase = .serving) :
    s.host.stdio = (s₀.past path done).stdio ∧ s.host.calls = (s₀.past path done).calls := by
  have hstage := h.stage
  rw [hphase] at hstage
  cases hstage with
  | serving hstdio hcalls => exact ⟨hstdio, hcalls⟩

/-- A worker that is about to take a request does not hold the descriptors. -/
theorem holder_eq_none (h : At s₀ w path items done worker s) (hphase : worker.phase = .serving)
    (hfree : s₀.host.holder = none) : s.host.holder = none := by
  rcases h.free hfree with hnone | ⟨r, session, p, hevaluating⟩
  · exact hnone
  · cases hphase.symm.trans hevaluating

/-- The results of other requests stay when a request changes. -/
theorem map_result?_modify {h h' : Host} {r : Nat} {f : Request → Request}
    (hrequests : h'.requests = h.requests.modify r f) (hr : r ∉ done) :
    done.map h'.result? = done.map h.result? := by
  refine List.map_congr_left fun v hv => ?_
  have hne : r ≠ v := by
    rintro rfl
    exact hr hv
  rw [Host.result?, hrequests, List.getElem?_modify_ne _ _ hne, Host.result?]

/-- A request that the worker handles then, or has handled, may change. -/
theorem untouched_modify (h : At s₀ w path items done worker s) {host : Host} {r : Nat}
    {f : Request → Request} {done' : List Nat} {worker' : Worker}
    (hrequests : host.requests = s.host.requests.modify r f)
    (hqueued : s₀.host.progress? r = some .queued)
    (hthis : r ∈ done' ∨ worker'.phase.request? = some r)
    (hdone : ∀ v, v ∈ done ∨ worker.phase.request? = some v →
      v ∈ done' ∨ worker'.phase.request? = some v) (v : Nat)
    (hv : s₀.host.progress? v = some .queued → v ∉ done' ∧ worker'.phase.request? ≠ some v) :
    host.requests[v]? = s₀.host.requests[v]? := by
  have hne : r ≠ v := by
    rintro rfl
    exact hthis.elim (hv hqueued).1 (hv hqueued).2
  rw [hrequests, List.getElem?_modify_ne _ _ hne]
  refine h.untouched v fun hvqueued => ?_
  obtain ⟨hnotdone, hnotheld⟩ := hv hvqueued
  exact ⟨fun hmem => (hdone v (.inl hmem)).elim hnotdone hnotheld,
    fun hheld => (hdone v (.inr hheld)).elim hnotdone hnotheld⟩

section Does

variable {host : Host} {rest : List Item} {r : Nat}

/-- It passes a request over. -/
theorem passes (h : At s₀ w path items done worker s) (hloaded : Loaded s₀ w path items .serving)
    (hphase : worker.phase = .serving) (hqueue : worker.queue = .request r :: rest)
    (hprogress : s.host.progress? r ≠ some .queued)
    (hworkers : host.workers = s.host.workers.modify w ({ · with queue := rest }))
    (hrequests : host.requests = s.host.requests) (hstdio : host.stdio = s.host.stdio)
    (htrace : host.trace = s.host.trace) (hbehaviour : host.behaviour = s.host.behaviour)
    (hholder : host.holder = s.host.holder) :
    At s₀ w path items (done ++ [r]) { worker with queue := rest } { s with host } := by
  obtain ⟨hnew, hsame, hpending⟩ := h.head hloaded hphase hqueue
  obtain ⟨hstdio', hcalls'⟩ := h.stdio_and_calls hphase
  have hp : s.host.progress? r = s₀.host.progress? r := by rw [Host.progress?, hsame, Host.progress?]
  have hwithdrawn : s₀.host.progress? r = some .withdrawn :=
    hpending.resolve_left (hp ▸ hprogress)
  have hjob := pendingJob?_of_withdrawn hwithdrawn
  refine ⟨?_, h.sourcePath, h.live, ?_, hbehaviour.trans h.behaviour, h.refusals, ?_, ?_, ?_, ?_, ?_, ?_⟩
  · simp [hworkers, h.present]
  · have hsplit := h.split
    rw [hphase, hqueue] at hsplit
    simpa [hphase, Phase.request?] using hsplit
  · obtain ⟨calls, hcalls⟩ := h.trace
    exact ⟨calls, htrace.trans hcalls⟩
  · have hnone : host.result? r = none := by
      rw [Host.result?, hrequests]
      exact Host.result?_eq_none_of_withdrawn (hp.trans hwithdrawn)
    rw [past_concat, hjob, Sequence.serve, h.answers, List.map_append, List.map_singleton, hnone,
      Host.result?_of_requests hrequests]
  · rw [past_concat, hjob, hphase]
    exact .serving (hstdio.trans hstdio') (by rw [Host.calls, htrace]; exact hcalls')
  · intro v hv
    simp [hphase, Phase.request?] at hv
  · intro v hv
    refine (congrArg (·[v]?) hrequests).trans (h.untouched v fun hqueued => ?_)
    obtain ⟨hnotdone, hnotheld⟩ := hv hqueued
    exact ⟨fun hmem => hnotdone (List.mem_append_left _ hmem), hnotheld⟩
  · exact fun hfree => .inl (hholder.trans (h.holder_eq_none hphase hfree))

/-- It opens the pipes for a request. -/
theorem picksUp {pipes : Capture.Pipes} {d : Descriptors} (h : At s₀ w path items done worker s)
    (hloaded : Loaded s₀ w path items .serving) (hphase : worker.phase = .serving)
    (hqueue : worker.queue = .request r :: rest) (hprogress : s.host.progress? r = some .queued)
    (hpipes : Capture.openPipes (s.host.stdio.refusing (s₀.refusalOf r)).descriptors = (.ok pipes, d))
    (hworkers : host.workers = s.host.workers.modify w
      ({ · with queue := rest, phase := .waiting r pipes d.refusal }))
    (hrequests : host.requests = s.host.requests.modify r ({ · with progress := .running }))
    (hstdio : host.stdio = s.host.stdio.having d) (htrace : host.trace = s.host.trace)
    (hbehaviour : host.behaviour = s.host.behaviour) (hholder : host.holder = s.host.holder) :
    At s₀ w path items done { worker with queue := rest, phase := .waiting r pipes d.refusal }
      { s with host } := by
  obtain ⟨hnew, hsame, hpending⟩ := h.head hloaded hphase hqueue
  obtain ⟨hstdio', hcalls'⟩ := h.stdio_and_calls hphase
  obtain ⟨q, hq, hqueued⟩ := Option.map_eq_some_iff.mp hprogress
  have hq₀ : s₀.host.requests[r]? = some q := hsame.symm.trans hq
  have hp : s₀.host.progress? r = some .queued := by simp [Host.progress?, hq₀, hqueued]
  refine ⟨?_, h.sourcePath, rfl, ?_, hbehaviour.trans h.behaviour, h.refusals, ?_, ?_, ?_, ?_, ?_, ?_⟩
  · simp [hworkers, h.present]
  · have hsplit := h.split
    rw [hphase, hqueue] at hsplit
    simpa [Phase.request?] using hsplit
  · obtain ⟨calls, hcalls⟩ := h.trace
    exact ⟨calls, htrace.trans hcalls⟩
  · rw [h.answers, map_result?_modify hrequests hnew]
  · refine .waiting (pendingJob?_eq hq₀ hqueued) ?_ (hstdio.trans (congrArg (·.having d) hstdio')) ?_
    · rw [← hstdio']
      exact hpipes
    · rw [Host.calls, htrace]
      exact hcalls'
  · rintro v ⟨⟩
    exact ⟨q, hq₀, hqueued, by simp [hrequests, hq]⟩
  · refine h.untouched_modify hrequests hp (.inr rfl) fun v hv => .inl (hv.resolve_right ?_)
    simp [hphase, Phase.request?]
  · exact fun hfree => .inl (hholder.trans (h.holder_eq_none hphase hfree))

/-- It has the interpreter evaluate its request. -/
theorem evaluates {pipes : Capture.Pipes} {refusal : Refusal} {request : Request}
    {session : Capture.Session} {stdio : Stdio} {source : String} {name : Option String}
    {p : Interpreter.Program} (h : At s₀ w path items done worker s)
    (hphase : worker.phase = .waiting r pipes refusal) (hrequest : s.host.requests[r]? = some request)
    (hredirect : Capture.redirect {} pipes (s.host.stdio.refusing refusal) = (.ok session, stdio))
    (hencoded : Call.encoded request.source worker.sourcePath = .ok (source, name))
    (hprogram : p = s.host.behaviour.program source (s.host.calls.countP (Call.evaluates source)))
    (hworkers : host.workers = s.host.workers.modify w ({ · with phase := .evaluating r session p }))
    (hrequests : host.requests = s.host.requests)
    (hstdio : host.stdio = (stdio.refusing {}).applyAll p.writes)
    (htrace : host.trace = s.host.trace ++ [(w, .evaluate source name)])
    (hbehaviour : host.behaviour = s.host.behaviour) :
    At s₀ w path items done { worker with phase := .evaluating r session p } { s with host } := by
  have hheld : worker.phase.request? = some r := by rw [hphase]; rfl
  obtain ⟨q, hq₀, hqueued, hq⟩ := h.held r hheld
  obtain rfl := Option.some.inj (hrequest.symm.trans hq)
  have hjob := pendingJob?_eq hq₀ hqueued
  refine ⟨?_, h.sourcePath, rfl, ?_, hbehaviour.trans h.behaviour, h.refusals, ?_, ?_, ?_, ?_, ?_, ?_⟩
  · simp [hworkers, h.present]
  · have hsplit := h.split
    rw [hphase] at hsplit
    exact hsplit
  · obtain ⟨calls, hcalls⟩ := h.trace
    exact ⟨calls ++ [.evaluate source name], by simp [htrace, hcalls]⟩
  · rw [h.answers, Host.result?_of_requests hrequests]
  · have hstage := h.stage
    rw [hphase] at hstage
    cases hstage with
    | waiting hjob' hpipes hstdio' hcalls' =>
        obtain rfl := Option.some.inj (hjob'.symm.trans hjob)
        refine .evaluating hjob ?_ (h.sourcePath ▸ hencoded) ?_ hstdio ?_
        · rw [Capture.start_of_openPipes hpipes, ← hstdio']
          exact hredirect
        · rw [hprogram, h.behaviour, hcalls']
        · rw [Host.calls, htrace, List.map_append, ← hcalls']
          rfl
  · rintro v ⟨⟩
    exact ⟨q, hq₀, hqueued, by rw [hrequests]; exact hq⟩
  · intro v hv
    refine (congrArg (·[v]?) hrequests).trans (h.untouched v fun hvqueued => ?_)
    obtain ⟨hnotdone, hnotheld⟩ := hv hvqueued
    exact ⟨hnotdone, by simpa [hphase, Phase.request?] using hnotheld⟩
  · exact fun _ => .inr ⟨r, session, p, rfl⟩

/-- It is done with a request. -/
theorem finishes {q : Request} {x : Result} {stdio : Stdio} {calls : List Call} {worker' : Worker}
    {g : Worker → Worker} {f : Request → Request} (h : At s₀ w path items done worker s)
    (hnew : r ∉ done) (hq₀ : s₀.host.requests[r]? = some q) (hqueued : q.progress = .queued)
    (hhandle : Sequence.handle s₀.host.behaviour path ⟨q.kind, q.source, s₀.refusalOf r⟩
      (s₀.past path done).stdio (s₀.past path done).calls = (x, stdio, calls))
    (hpath : worker'.sourcePath = path) (hphase : worker'.phase = .serving)
    (hsplit : items = (done ++ [r]).map .request ++ worker'.queue)
    (hheld : ∀ v, worker.phase.request? = some v → v = r)
    (hworkers : host.workers = s.host.workers.modify w g) (hg : g worker = worker')
    (hrequests : host.requests = s.host.requests.modify r f) (hresult : host.result? r = some x)
    (hstdio : host.stdio = stdio) (hcalls : host.calls = (s₀.past path done).calls ++ calls)
    (htrace : ∃ calls : List Call, host.trace = s.host.trace ++ calls.map (w, ·))
    (hbehaviour : host.behaviour = s.host.behaviour)
    (hholder : s₀.host.holder = none → host.holder = none) :
    At s₀ w path items (done ++ [r]) worker' { s with host } := by
  have hp : s₀.host.progress? r = some .queued := by simp [Host.progress?, hq₀, hqueued]
  have hnext : s₀.past path (done ++ [r]) =
      ⟨stdio, (s₀.past path done).calls ++ calls, (s₀.past path done).answers ++ [some x]⟩ := by
    rw [past_concat, pendingJob?_eq hq₀ hqueued, Sequence.serve, hhandle]
  refine ⟨?_, hpath, by rw [hphase]; rfl, ?_, hbehaviour.trans h.behaviour, h.refusals, ?_, ?_, ?_, ?_,
    ?_, fun hfree => .inl (hholder hfree)⟩
  · simp [hworkers, h.present, hg]
  · simpa [hphase, Phase.request?] using hsplit
  · obtain ⟨calls', hcalls'⟩ := h.trace
    obtain ⟨more, hmore⟩ := htrace
    exact ⟨calls' ++ more, by simp [hmore, hcalls']⟩
  · rw [hnext, h.answers, List.map_append, map_result?_modify hrequests hnew, List.map_singleton,
      hresult]
  · rw [hnext, hphase]
    exact .serving hstdio hcalls
  · intro v hv
    simp [hphase, Phase.request?] at hv
  · refine h.untouched_modify hrequests hp (.inl (by simp)) ?_
    rintro v (hmem | hv)
    · exact .inl (List.mem_append_left _ hmem)
    · obtain rfl := hheld v hv
      exact .inl (by simp)

/-- It leaves its loop. -/
theorem leaves (h : At s₀ w path items done worker s) (hloaded : Loaded s₀ w path items .serving)
    (hphase : worker.phase = .serving) (hqueue : worker.queue = .stop :: rest)
    (hworkers : host.workers = s.host.workers.modify w ({ · with queue := [], phase := .stopped }))
    (hrequests : ∀ v, host.requests[v]? = if v ∈ rest.filterMap Item.request? then
      s.host.requests[v]?.map Host.refuseQueued else s.host.requests[v]?)
    (htrace : host.trace = s.host.trace ++ [(w, .deinit)]) : Over s₀ w path items { s with host } := by
  have hsplit := h.split
  rw [hphase, hqueue] at hsplit
  simp only [Phase.request?, Option.toList_none, List.append_nil] at hsplit
  subst hsplit
  obtain ⟨hstdio, hcalls⟩ := h.stdio_and_calls hphase
  have hdistinct := hloaded.distinct
  have hsame : ∀ v ∉ done, s.host.requests[v]? = s₀.host.requests[v]? := fun v hv =>
    h.untouched v fun _ => ⟨hv, by simp [hphase, Phase.request?]⟩
  rw [List.filterMap_append, List.filterMap_map, Item.request?_comp_request, List.filterMap_some,
    List.filterMap_cons] at hdistinct
  simp only [Item.request?_stop] at hdistinct
  have hapart : ∀ v ∈ rest.filterMap Item.request?, v ∉ done := fun v hv hmem =>
    (List.nodup_append.mp hdistinct).2.2 v hmem v hv rfl
  refine ⟨?_, ?_, ?_, ?_, ?_⟩
  · simp [hworkers, h.present, h.sourcePath]
  · obtain ⟨calls, hcalls'⟩ := h.trace
    refine ⟨calls, ?_, by simp [htrace, hcalls']⟩
    rw [Item.front_append_stop, ← hcalls, Host.calls, hcalls', List.map_append, List.map_map]
    simp [Host.calls, Function.comp_def]
  · rw [Item.front_append_stop, h.answers]
    refine List.map_congr_left fun v hv => ?_
    have hnot : v ∉ rest.filterMap Item.request? := fun hmem => hapart v hmem hv
    rw [Host.result?, Host.result?, hrequests, if_neg hnot]
  · intro v hv hp
    rw [Item.behind_append_stop] at hv
    obtain ⟨q, hq, hqueued⟩ := Option.map_eq_some_iff.mp hp
    rw [Host.result?, hrequests, if_pos hv, hsame v (hapart v hv), hq]
    simp [Host.refuseQueued, hqueued, Request.finish, Progress.result?]
  · intro v hv
    have hmine : s₀.host.progress? v = some .queued → v ∉ done ∧ v ∉ rest.filterMap Item.request? := by
      intro hp
      have hnot := hv hp
      rw [List.filterMap_append, List.filterMap_map, Item.request?_comp_request, List.filterMap_some,
        List.mem_append, not_or] at hnot
      exact hnot
    have hbefore : s.host.requests[v]? = s₀.host.requests[v]? :=
      h.untouched v fun hp => ⟨(hmine hp).1, by simp [hphase, Phase.request?]⟩
    refine (hrequests v).trans ?_
    rw [hbefore]
    split
    next hmem =>
      cases hq : s₀.host.requests[v]? with
      | none => rfl
      | some q =>
          have hqueued : q.progress ≠ .queued := fun hqueued =>
            (hmine (by simp [Host.progress?, hq, hqueued])).2 hmem
          simp [Host.refuseQueued_of_ne hqueued]
    next => rfl

/-- **A step of the worker.** -/
theorem does (h : At s₀ w path items done worker s) (hloaded : Loaded s₀ w path items .serving)
    (hdoes : Host.Does (s.braced w) w worker host) :
    (∃ done' worker', At s₀ w path items done' worker' { s with host }) ∨
      Over s₀ w path items { s with host } := by
  have hsplit := h.split
  cases hdoes with
  | @leave rest log hphase hqueue =>
      exact .inr (h.leaves hloaded hphase hqueue rfl ((s.braced w).getElem?_failPending rest) rfl)
  | @pass r rest log hphase hqueue hprogress =>
      exact .inl ⟨_, _, h.passes hloaded hphase hqueue hprogress rfl rfl rfl rfl rfl rfl⟩
  | @pickUp r rest pipes d hphase hqueue hprogress hpipes =>
      rw [h.refusal_braced hphase hqueue] at hpipes
      exact .inl ⟨_, _, h.picksUp hloaded hphase hqueue hprogress hpipes rfl rfl rfl rfl rfl rfl⟩
  | @refuse r rest f d log hphase hqueue hprogress hpipes =>
      rw [h.refusal_braced hphase hqueue] at hpipes
      obtain ⟨hnew, hsame, -⟩ := h.head hloaded hphase hqueue
      obtain ⟨hstdio, hcalls⟩ := h.stdio_and_calls hphase
      obtain ⟨q, hq, hqueued⟩ := Option.map_eq_some_iff.mp hprogress
      have hq₀ : s₀.host.requests[r]? = some q := hsame.symm.trans hq
      have hhandle := Sequence.handle_refused s₀.host.behaviour path
        ⟨q.kind, q.source, s₀.refusalOf r⟩ (s₀.past path done).calls (hstdio ▸ hpipes)
      rw [hphase, hqueue] at hsplit
      exact .inl ⟨_, { worker with queue := rest, phase := .serving }, h.finishes hnew hq₀ hqueued
        hhandle h.sourcePath rfl (by simpa [Phase.request?] using hsplit)
        (by simp [hphase, Phase.request?]) rfl rfl rfl (Host.result?_finish hq rfl)
        (congrArg (·.having d) hstdio) ((List.append_nil _).symm ▸ hcalls) ⟨[], by simp [braced]⟩ rfl
        (h.holder_eq_none hphase)⟩
  | @evaluate r pipes refusal request session stdio source name p hphase hrequest hholder hredirect
      hencoded hprogram =>
      exact .inl ⟨_, _, h.evaluates hphase hrequest hredirect hencoded hprogram rfl rfl rfl rfl rfl⟩
  | @finish r request x stdio calls log hheld hrequest hends =>
      obtain ⟨q, hq₀, hqueued, hq⟩ := h.held r hheld
      have heq : request = { q with progress := .running } := Option.some.inj (hrequest.symm.trans hq)
      have hjob : s₀.pendingJob? r = some ⟨request.kind, request.source, s₀.refusalOf r⟩ := by
        have hpending := pendingJob?_eq hq₀ hqueued
        rw [heq]
        exact hpending
      have hstage := h.stage
      rw [hheld, Option.bind_some, hjob] at hstage
      have hbraced : Stage s₀.host.behaviour path (s₀.past path done)
          (some ⟨request.kind, request.source, s₀.refusalOf r⟩) (s.braced w) worker.phase :=
        hstage.congr rfl rfl fun _ => rfl
      rw [h.sourcePath] at hends
      obtain ⟨past, hhandle, hpast⟩ := hbraced.handle_eq hends
      subst heq
      rw [hheld] at hsplit
      have hnew : r ∉ done := by
        have hdistinct := hloaded.distinct
        rw [hsplit] at hdistinct
        simp only [List.filterMap_append, List.filterMap_map, Item.request?_comp_request,
          List.filterMap_some, Option.toList_some] at hdistinct
        exact fun hmem => (List.nodup_append.mp (List.nodup_append.mp hdistinct).1).2.2 r hmem r
          List.mem_cons_self rfl
      refine .inl ⟨_, { worker with phase := .serving }, h.finishes hnew hq₀ hqueued hhandle
        h.sourcePath rfl hsplit (fun v hv => ?_) rfl rfl rfl (Host.result?_finish hrequest rfl) rfl ?_
        ⟨calls, rfl⟩ rfl fun _ => rfl⟩
      · exact Option.some.inj (hv.symm.trans hheld)
      · simpa [Host.calls, Function.comp_def] using hpast

end Does

/-- A worker that rests stands at a gate that is closed, provided that there is an order to stop and
that nobody else holds the descriptors. -/
theorem rests (h : At s₀ w path items done worker s) (hstop : .stop ∈ items)
    (hfree : s₀.host.holder = none) (hquiet : s.host.work? w = none) :
    ∃ r session p, worker.phase = .evaluating r session p ∧ s.host.isOpen p.gate = false := by
  have hlive := h.live
  have hheld : ∀ r, worker.phase.request? = some r → (s.host.requests[r]?).isSome := by
    intro r hr
    obtain ⟨q, -, -, hq⟩ := h.held r hr
    rw [hq]
    rfl
  cases Host.rests_of_work? h.present hheld hquiet with
  | created hphase => simp [hphase, Phase.isLive] at hlive
  | ended hphase => cases hphase' : worker.phase <;> simp_all [Phase.isLive, Phase.hasEnded]
  | empty hphase hqueue =>
      have hsplit := h.split
      rw [hqueue, List.append_nil] at hsplit
      rw [hsplit] at hstop
      obtain ⟨r, -, hr⟩ := List.mem_map.mp hstop
      cases hr
  | crowded hphase hholder =>
      rcases h.free hfree with hnone | ⟨r, session, p, hevaluating⟩
      · exact absurd hnone hholder
      · cases hphase.symm.trans hevaluating
  | gated hphase hgate => exact ⟨_, _, _, hphase, hgate⟩

end At

/-! ### Runs of the worker -/

/-- The worker has come some way, or to the end. -/
def Underway (s₀ : World) (w : Nat) (path : Option Text) (items : List Item) (s : World) : Prop :=
  (∃ done worker, At s₀ w path items done worker s) ∨ Over s₀ w path items s

/-- Opening a gate changes nothing for the worker. -/
theorem Underway.openGate (h : Underway s₀ w path items s) (gate : String) :
    Underway s₀ w path items (s.step (.openGate gate)) := by
  rcases h with ⟨done, worker, h⟩ | h
  · exact .inl ⟨done, worker, h.present, h.sourcePath, h.live, h.split, h.behaviour, h.refusals, h.trace,
      h.answers, h.stage.congr rfl rfl fun _ => rfl, h.held, h.untouched, h.free⟩
  · exact .inr ⟨h.present, h.trace, h.answers, h.refused, h.untouched⟩

/-- **Every step brings the worker on its way.** -/
theorem Underway.work (h : Underway s₀ w path items s) (hloaded : Loaded s₀ w path items .serving) :
    Underway s₀ w path items (s.step (.work w)) := by
  cases hstep : (s.braced w).work? w with
  | none =>
      have hsame : s.step (.work w) = s := by simp [step, World.work, hstep]
      rw [hsame]
      exact h
  | some host =>
      have hhost : s.step (.work w) = { s with host } := by simp [step, World.work, hstep]
      obtain ⟨worker', hworker', hdoes⟩ := Host.does_of_work? hstep
      have hpresent : s.host.workers[w]? = some worker' := hworker'
      rw [hhost]
      rcases h with ⟨done, worker, h⟩ | h
      · obtain rfl := Option.some.inj (hpresent.symm.trans h.present)
        exact h.does hloaded hdoes
      · obtain rfl := Option.some.inj (hpresent.symm.trans h.present)
        cases hdoes.hasEnded_eq_false

theorem Underway.run (h : Underway s₀ w path items s) (hloaded : Loaded s₀ w path items .serving)
    {acts : List Act} (hacts : ∀ a ∈ acts, a = .work w ∨ ∃ gate, a = .openGate gate) :
    Underway s₀ w path items (s.run acts) := by
  induction acts generalizing s with
  | nil => exact h
  | cons a acts ih =>
      have hstep : Underway s₀ w path items (s.step a) := by
        rcases hacts a List.mem_cons_self with rfl | ⟨gate, rfl⟩
        · exact h.work hloaded
        · exact h.openGate gate
      exact ih hstep fun x hx => hacts x (List.mem_cons_of_mem a hx)

/-- A world whose worker has started its interpreter. -/
def launched (s : World) (w : Nat) : World := { s with host := (s.host.startWorker w).2 }

/-! ### What is promised of every queue -/

/-- **What has become of a queue** when its worker has ended. -/
structure Drained (s : World) (w : Nat) (path : Option Text) (items : List Item) (s' : World) : Prop where
  /-- The queue is empty, and the worker is not busy. -/
  idle : ∃ worker, s'.host.workers[w]? = some worker ∧ worker.queue = [] ∧ worker.isBusy = false
  /-- The interpreter is started, evaluates the requests in front one after the other, each once or, if
  it is withdrawn or its result says why, not at all, and is ended. -/
  calls : ∃ parts : List (List Call),
    List.Forall₂ (fun r part => Sequence.Serves s.host.behaviour path (s.pendingJob? r) part
      (s'.host.result? r)) (Item.front items) parts ∧
    s'.host.trace =
      s.host.trace ++ (.init :: .environment :: parts.flatten ++ [Call.deinit]).map (w, ·)
  /-- Their results are those of the sequential evaluator. -/
  answers : (Item.front items).map s'.host.result? =
    (Sequence.serveAll s.host.behaviour path
      ⟨s.host.stdio, s.host.calls ++ [.init, .environment], []⟩
      ((Item.front items).map s.pendingJob?)).answers
  /-- The requests behind are refused. -/
  refused : ∀ r ∈ Item.behind items, s.host.progress? r = some .queued →
    s'.host.result? r = some Host.closedBefore
  /-- Those that have been withdrawn stay so, and have no result. -/
  withdrawn : ∀ r, s.host.progress? r = some .withdrawn →
    s'.host.progress? r = some .withdrawn ∧ s'.host.result? r = none
  /-- No request of the queue is left over. -/
  settled : ∀ r ∈ items.filterMap Item.request?,
    ∃ p, s'.host.progress? r = some p ∧ p.isSettled = true
  /-- The requests of others are as they were. -/
  untouched : ∀ r ∉ items.filterMap Item.request?, s'.host.requests[r]? = s.host.requests[r]?

/-- What each part of a run comes to, told by the results. -/
theorem forall₂_results {α β γ : Type} {R : α → β → γ → Prop} {f : α → γ} {xs : List α}
    {parts : List (β × γ)} (h : List.Forall₂ (fun x part => R x part.1 part.2) xs parts)
    (hresults : xs.map f = parts.map (·.2)) :
    List.Forall₂ (fun x y => R x y (f x)) xs (parts.map (·.1)) := by
  induction h with
  | nil => exact .nil
  | @cons x part xs parts hpart hparts ih =>
      obtain ⟨hx, hxs⟩ := List.cons.inj hresults
      exact .cons (hx ▸ hpart) (ih hxs)

/-- A queue that is over is drained. -/
theorem Over.drained {log : List Log.Record} (hloaded : Loaded s w path items .created)
    (hlaunched : s.launched w = { s with host := { s.host with
      workers := s.host.workers.modify w ({ · with phase := .serving })
      trace := s.host.trace ++ [(w, .init), (w, .environment)]
      log } }) {s' : World} (h : Over (s.launched w) w path items s') : Drained s w path items s' := by
  rw [hlaunched] at h
  have hcalls₀ : ({ s.host with
      workers := s.host.workers.modify w ({ · with phase := .serving })
      trace := s.host.trace ++ [(w, .init), (w, .environment)]
      log } : Host).calls = s.host.calls ++ [.init, .environment] := by
    simp [Host.calls]
  obtain ⟨calls, hcalls, htrace⟩ := h.trace
  have hpast := h.answers
  simp only [past, hcalls₀] at hcalls hpast
  obtain ⟨parts, hparts, hflat, hanswers⟩ := Sequence.exists_parts s.host.behaviour path
    ⟨s.host.stdio, s.host.calls ++ [.init, .environment], []⟩ ((Item.front items).map s.pendingJob?)
  have hresults : (Item.front items).map s'.host.result? = parts.map (·.2) := by
    rw [← hpast]
    exact hanswers
  have hserves := forall₂_results (List.forall₂_map_left_iff.mp hparts) hresults
  have hparted : calls = (parts.map (·.1)).flatten := by
    refine List.append_cancel_left (hcalls.symm.trans ?_)
    exact hflat
  have hwithdrawn : ∀ r, s.host.progress? r = some .withdrawn →
      s'.host.progress? r = some .withdrawn := by
    intro r hr
    have hsame : s'.host.requests[r]? = s.host.requests[r]? :=
      h.untouched r fun hqueued => by cases hr.symm.trans hqueued
    rw [Host.progress?, hsame]
    exact hr
  refine ⟨⟨_, h.present, rfl, rfl⟩, ⟨parts.map (·.1), hserves, ?_⟩, hpast.symm, h.refused,
    fun r hr => ⟨hwithdrawn r hr, Host.result?_eq_none_of_withdrawn (hwithdrawn r hr)⟩, fun r hr => ?_,
    fun r hr => h.untouched r fun _ => hr⟩
  · rw [htrace, hparted]
    simp
  · rcases hloaded.pending r hr with hqueued | hr
    · obtain ⟨x, hx⟩ : ∃ x, s'.host.result? r = some x := by
        rcases Item.mem_front_or_behind hr with hfront | hbehind
        · obtain ⟨i, hi, rfl⟩ := List.getElem_of_mem hfront
          have hserve := hserves.get hi (hserves.length_eq ▸ hi)
          obtain ⟨q, hq, hqp⟩ := Option.map_eq_some_iff.mp hqueued
          rw [List.get_eq_getElem, pendingJob?_eq hq hqp] at hserve
          exact Option.isSome_iff_exists.mp hserve.isSome
        · exact ⟨_, h.refused r hbehind hqueued⟩
      exact ⟨_, Host.result?_eq_some_iff.mp hx, rfl⟩
    · exact ⟨_, hwithdrawn r hr, rfl⟩

/-- **Any queue is drained.** A worker starts its interpreter over a queue that has an order to stop.
When it has ended, its queue is drained; it comes to rest after some more steps of its own; and when it
rests it has ended, or its evaluation stands at a gate that is closed. -/
theorem drained_run (hloaded : Loaded s w path items .created) (hstop : .stop ∈ items)
    (hstart : (s.host.startWorker w).1 = none) {acts : List Act}
    (hacts : ∀ a ∈ acts, a = .work w ∨ ∃ gate, a = .openGate gate) :
    let s' := (s.launched w).run acts
    (s'.host.hasEnded w = true → Drained s w path items s') ∧
      (∃ k, (s'.run (List.replicate k (.work w))).host.work? w = none) ∧
      (s.host.holder = none → s'.host.work? w = none → s'.host.hasEnded w = true ∨
        ∃ worker r session p, s'.host.workers[w]? = some worker ∧
          worker.phase = .evaluating r session p ∧ s'.host.isOpen p.gate = false) := by
  intro s'
  rcases Host.startWorker_cases s.host w with ⟨f, calls, log, -, -, -, -, heq⟩ | ⟨-, log, heq⟩
  · rw [heq] at hstart
    cases hstart
  have hlaunched : s.launched w = { s with host := (s.host.startWorker w).2 } := rfl
  rw [heq] at hlaunched
  have hserving : Loaded (s.launched w) w path items .serving := by
    rw [hlaunched]
    exact ⟨by simp [hloaded.present], hloaded.distinct, hloaded.pending⟩
  have hunderway : Underway (s.launched w) w path items s' :=
    Underway.run (.inl ⟨_, _, hserving.at⟩) hserving hacts
  refine ⟨fun hended => ?_, exists_rest _ w, fun hfree hquiet => ?_⟩
  · rcases hunderway with ⟨done, worker, h⟩ | h
    · have hlive := h.live
      rw [Host.hasEnded, h.present, Option.any_some] at hended
      cases hphase : worker.phase <;> simp_all [Phase.isLive, Phase.hasEnded]
    · exact h.drained hloaded hlaunched
  · rcases hunderway with ⟨done, worker, h⟩ | h
    · have hfree' : (s.launched w).host.holder = none := by rw [hlaunched]; exact hfree
      obtain ⟨r, session, p, hphase, hgate⟩ := h.rests hstop hfree' hquiet
      exact .inr ⟨worker, r, session, p, h.present, hphase, hgate⟩
    · refine .inl ?_
      rw [Host.hasEnded, h.present]
      rfl

/-- A queue with three orders to stop: an evaluation that succeeds, a request that is withdrawn, and an
evaluation that an exception ends stand in front of the first one; behind it one request is refused, and
another one is withdrawn. -/
theorem drained_run_of_five :
    let items : List Item :=
      [.request 0, .request 1, .request 2, .stop, .request 3, .stop, .request 4, .stop]
    let s : World :=
      { host :=
          { behaviour := { programs := [("a", [{ gate := some "g" }]), ("b", [{ raised := some "broken" }])] }
            workers := [⟨none, items, .created⟩]
            requests := [⟨.execute, "a", .queued, false⟩, ⟨.execute, "a", .withdrawn, false⟩,
              ⟨.parse, "b", .queued, false⟩, ⟨.execute, "a", .queued, false⟩,
              ⟨.execute, "a", .withdrawn, false⟩] } }
    let acts : List Act := [.work 0, .work 0, .openGate "g", .work 0, .work 0, .work 0, .work 0, .work 0,
      .work 0]
    let s' := (s.launched 0).run acts
    Loaded s 0 none items .created ∧ .stop ∈ items ∧ (s.host.startWorker 0).1 = none ∧
      (∀ a ∈ acts, a = .work 0 ∨ ∃ gate, a = .openGate gate) ∧ Drained s 0 none items s' ∧
      s'.host.trace.map (·.2) = [.init, .environment, .evaluate "a" none, .root, .inspect, .unroot,
        .evaluate "b" none, .deinit] ∧
      ([0, 1, 2, 3, 4].map fun r => (s'.host.result? r).map (·.status)) =
        [some .success, none, some .error, some .error, none] := by
  intro items s acts s'
  have hloaded : Loaded s 0 none items .created := by
    refine ⟨rfl, by decide, fun r hr => ?_⟩
    have hr : r ∈ [0, 1, 2, 3, 4] := hr
    simp only [List.mem_cons, List.not_mem_nil, or_false] at hr
    rcases hr with rfl | rfl | rfl | rfl | rfl
    exacts [.inl rfl, .inr rfl, .inl rfl, .inl rfl, .inr rfl]
  have hstop : Item.stop ∈ items := by decide
  have hstart : (s.host.startWorker 0).1 = none := rfl
  have hacts : ∀ a ∈ acts, a = .work 0 ∨ ∃ gate, a = .openGate gate := by simp [acts]
  have hended : s'.host.hasEnded 0 = true := by decide +kernel
  refine ⟨hloaded, hstop, hstart, hacts, (drained_run hloaded hstop hstart hacts).1 hended, ?_, ?_⟩ <;>
    decide +kernel

end World

end JanetEmbedding
