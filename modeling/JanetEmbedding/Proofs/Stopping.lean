import JanetEmbedding.Proofs.Closing

/-!
# The answers to closing

Whoever closes a handle waits until its worker has ended, or for as long as it has time, and is told
which of the two it was. This module says what can be concluded from either answer.

A handle that is closed already is not waited for: closing it once more is answered as if its worker
had ended, also when an earlier close has told that it has not. And whoever has no time is answered
before the worker can follow the order to stop, though it may have nothing else to do.

## Conventions

* A close has two steps: the handle is asked to close, and later the answer is given. In between others
  may act, and other closes of the handle may begin and be answered.
* The shared handle, a task and the end of a block close their handles in the same way.

## Main definitions

* `World.closeAnswer`: the answer to a close.
* `World.Gone`: what there is when a handle has no worker left.
* `World.Occupied`: what keeps a worker from having ended.

## Main results

* `World.stops_close`: what the answers to a close tell.
-/

namespace JanetEmbedding

open Interpreter (Call)

namespace Host

/-- A start of a fresh handle makes it run, if nothing is wrong. -/
theorem Starts.exists_running {h h' : Host} {id : Nat} {handle : Handle}
    (hstarts : Starts h id none h') (hhandle : h.handles[id]? = some handle)
    (hfresh : handle.state = .fresh) :
    ∃ handle w, h'.handles[id]? = some handle ∧ handle.state = .running w := by
  cases hstarts with
  | stays f log hfault hstarted => exact absurd hfresh (hstarted rfl handle hhandle)
  | serves log hother hstate =>
      refine ⟨{ handle with state := .running h.workers.length }, h.workers.length, ?_, rfl⟩
      simp [hhandle]

theorem Does.shared_eq {h h' : Host} {w : Nat} {worker : Worker} (hdoes : Does h w worker h') :
    h'.shared = h.shared := by
  cases hdoes <;> rfl

end Host

namespace World

/-! ### The shared handle -/

/-- The **shared** handle runs. -/
def SharedRuns (s : World) : Prop :=
  ∀ id, s.host.shared = some id → ∃ handle w, s.host.handles[id]? = some handle ∧
    handle.state = .running w

theorem sharedRuns_opening (e : Circumstances) : (opening e).SharedRuns := fun _ hid => nomatch hid

/-- A start leaves the shared handle as it is. -/
theorem SharedRuns.starts {s : World} {host : Host} {id : Nat} {f : Option Fault}
    (h : s.SharedRuns) (hstarts : Host.Starts s.host id f host) : SharedRuns { s with host } := by
  intro i hi
  obtain ⟨handle, w, hhandle, hstate⟩ := h i (hstarts.shared_eq.symm.trans hi)
  exact ⟨handle, w, hstarts.handle_of_ne_fresh hhandle (by simp [hstate]), hstate⟩

/-- Only the shared handle itself is not shared any more when it is closed. -/
theorem SharedRuns.closes {s : World} {host : Host} {id : Nat} (h : s.SharedRuns)
    (hcloses : Host.Closes s.host id host) : SharedRuns { s with host } := by
  intro i hi
  cases hcloses with
  | stays => exact h i hi
  | fresh shared hhandle hfresh hshared | running shared hhandle hrunning hshared =>
      obtain ⟨hi, hne⟩ := hshared i hi
      obtain ⟨handle, w, hhandle, hstate⟩ := h i hi
      exact ⟨handle, w, (List.getElem?_modify_ne _ _ hne.symm).trans hhandle, hstate⟩

/-- **The shared handle runs** after every action. -/
theorem Moves.sharedRuns {s s' : World} {a : Act} (hmoves : Moves s a s') (h : s.SharedRuns) :
    s'.SharedRuns := by
  cases hmoves with
  | stays | expired | looked | turned | accepted | served | noted | opened => exact h
  | created config source =>
      intro i hi
      obtain ⟨handle, w, hhandle, hstate⟩ := h i hi
      exact ⟨handle, w, Host.handle_addHandle config source hhandle, hstate⟩
  | @shared c f host config source shared hstarts hshared =>
      intro i hi
      obtain ⟨rfl, rfl⟩ := hshared i hi
      -- the handle that has been made is fresh, so a start without a fault makes it run
      have hnew : (s.host.addHandle c source).2.handles[s.host.handles.length]? =
          some ⟨c, source, .fresh⟩ := by simp [Host.addHandle]
      obtain ⟨handle, w, hhandle, hstate⟩ := hstarts.exists_running hnew rfl
      exact ⟨handle, w, hhandle, hstate⟩
  | started hstarts | ready _ _ hstarts | refused _ _ hstarts => exact h.starts hstarts
  | @left c r caller m hcaller hstanding =>
      obtain ⟨requests, heq⟩ := Host.giveUp_snd_eq s.host r
      rw [heq]
      exact h
  | closed hcloses => exact h.closes hcloses
  | worked hworker hdoes =>
      intro i hi
      obtain ⟨handle, w, hhandle, hstate⟩ := h i (hdoes.shared_eq.symm.trans hi)
      exact ⟨handle, w, (congrArg (·[i]?) hdoes.handles_eq).trans hhandle, hstate⟩

theorem sharedRuns_run {s : World} (h : s.SharedRuns) (acts : List Act) : (s.run acts).SharedRuns := by
  induction acts generalizing s with
  | nil => exact h
  | cons a acts ih => exact ih ((moves_step s a).sharedRuns h)

/-! ### Handles that have been closed -/

theorem handle_of_closed_run {s : World} {id : Nat} {handle : Handle}
    (hhandle : s.host.handles[id]? = some handle) (hclosed : handle.state.isClosed = true)
    (acts : List Act) : (s.run acts).host.handles[id]? = some handle := by
  induction acts generalizing s with
  | nil => exact hhandle
  | cons a acts ih => exact ih ((moves_step s a).handle_of_closed hhandle hclosed)

/-- A handle has **gone** when its worker has left its loop and its interpreter is ended. A handle that
has never been started has gone. -/
def Gone (s : World) (id : Nat) : Prop :=
  ∀ w, s.host.workerOf? id = some w → s.host.phase? w = some .stopped ∧ (w, Call.deinit) ∈ s.host.trace

/-- A closed handle that has gone stays so. -/
theorem Gone.run {s : World} {id : Nat} (h : s.Gone id) (hclosed : s.host.isClosed id = true)
    (acts : List Act) : (s.run acts).Gone id := by
  obtain ⟨handle, hhandle, hstate⟩ := Host.isClosed_eq_true_iff.mp hclosed
  intro w hw
  have hbefore : s.host.workerOf? id = some w := by
    simpa [Host.workerOf?, hhandle, handle_of_closed_run hhandle hstate acts] using hw
  obtain ⟨hphase, hdeinit⟩ := h w hbefore
  clear h hclosed hw hbefore hhandle
  induction acts generalizing s with
  | nil => exact ⟨hphase, hdeinit⟩
  | cons a acts ih =>
      have hmoves := moves_step s a
      exact ih (hmoves.hasEnded hphase rfl) (hmoves.trace_prefix.subset hdeinit)

/-! ### The answers -/

/-- The **answer** to a close, if `more` is done while it waits. -/
def closeAnswer (s : World) (id : Nat) (more : List Act) (timeout : Option Seconds) : Bool :=
  ((s.run (.close id :: more)).host.answerClose (s.host.requestClose id).1 timeout).1

/-- What keeps the worker of a handle from having ended. -/
inductive Occupied (s : World) (id : Nat) (worker : Worker) : Prop
  /-- It holds a request of the handle. -/
  | holds {r : Nat} {t : Ticket} (hheld : worker.phase.request? = some r)
      (ht : s.tickets[r]? = some t) (hhandle : t.handle = id)
  /-- There is a request of the handle in its queue. -/
  | owes {r : Nat} {t : Ticket} (hqueued : r ∈ worker.requests) (ht : s.tickets[r]? = some t)
      (hhandle : t.handle = id)
  /-- It has nothing left but the order to stop, which it has had no time to follow. -/
  | late (hphase : worker.phase = .serving) (hqueue : worker.queue = [.stop])

/-- The requests that a worker has to do with are those of its handle. -/
theorem exists_ticket_of_mem {s : World} {id r : Nat} (hr : r ∈ placesOf s.owners id) :
    ∃ t, s.tickets[r]? = some t ∧ t.handle = id := by
  have howner := mem_placesOf.mp hr
  rw [owners, List.getElem?_map] at howner
  exact Option.map_eq_some_iff.mp howner

theorem exists_ticket_of_handled {s : World} (hkept : s.Kept) {id w r : Nat}
    (hw : s.host.workerOf? id = some w) (hheld : s.host.handled? w = some r) :
    ∃ t, s.tickets[r]? = some t ∧ t.handle = id :=
  exists_ticket_of_mem (hkept.mem_placesOf_of_handled hw hheld)

section Closed

variable {s : World} {id w : Nat} {worker : Worker}

/-- A worker of a closed handle that has not ended has the order to stop in its queue. -/
theorem live_of_closed (hkept : s.Kept) (hw : s.host.workerOf? id = some w)
    (hworker : s.host.workers[w]? = some worker) (hclosed : s.host.isClosed id = true)
    (hlive : worker.phase.hasEnded = false) :
    worker.phase.isLive = true ∧ worker.queue = worker.requests.map .request ++ [.stop] := by
  rcases (hkept.charged hw hworker).shape with ⟨hphase, hqueue⟩ | ⟨-, -, hstopped⟩
  · rw [hclosed] at hqueue
    exact ⟨hphase, hqueue⟩
  · rw [hstopped] at hlive
    cases hlive

/-- Such a worker is occupied. -/
theorem occupied_of_closed (hkept : s.Kept) (hw : s.host.workerOf? id = some w)
    (hworker : s.host.workers[w]? = some worker) (hclosed : s.host.isClosed id = true)
    (hlive : worker.phase.hasEnded = false) : s.Occupied id worker := by
  obtain ⟨hphase, hqueue⟩ := live_of_closed hkept hw hworker hclosed hlive
  cases hheld : worker.phase.request? with
  | some r =>
      have hhandled : s.host.handled? w = some r := by simp [Host.handled?, hworker, hheld]
      obtain ⟨t, ht, hhandle⟩ := exists_ticket_of_handled hkept hw hhandled
      exact .holds hheld ht hhandle
  | none =>
      cases hrequests : worker.requests with
      | cons r rest =>
          have hqueued : r ∈ worker.requests := by
            rw [hrequests]
            exact List.mem_cons_self
          have hplace := (hkept.charged hw hworker).mem_places_of_mem_requests hqueued
          obtain ⟨t, ht, hhandle⟩ := exists_ticket_of_mem hplace
          exact .owes hqueued ht hhandle
      | nil =>
          rw [hrequests] at hqueue
          refine .late ?_ hqueue
          cases hserving : worker.phase <;> simp_all [Phase.isLive, Phase.request?]

/-- If such a worker has no step left, it holds a request. -/
theorem exists_handled_of_quiet (hkept : s.Kept) (hw : s.host.workerOf? id = some w)
    (hworker : s.host.workers[w]? = some worker) (hclosed : s.host.isClosed id = true)
    (hlive : worker.phase.hasEnded = false) (hquiet : s.host.work? w = none) :
    ∃ r, s.host.handled? w = some r := by
  obtain ⟨hphase, hqueue⟩ := live_of_closed hkept hw hworker hclosed hlive
  have hhandled : ∀ {r}, worker.phase.request? = some r → s.host.handled? w = some r := by
    intro r hr
    simp [Host.handled?, hworker, hr]
  cases rests_of_quiet hkept hworker hquiet with
  | created hcreated => simp [hcreated, Phase.isLive] at hphase
  | ended hended => cases hlive.symm.trans hended
  | empty _ hempty => simp [hempty] at hqueue
  | crowded hwaiting => exact ⟨_, hhandled (by rw [hwaiting]; rfl)⟩
  | gated hevaluating => exact ⟨_, hhandled (by rw [hevaluating]; rfl)⟩

end Closed

/-- What the **answer** to a close tells, which begins in one state and is answered in another. -/
structure Stops (s t : World) (id : Nat) (answer : Bool) : Prop where
  /-- The handle has gone, unless it was closed already. -/
  answered : answer = true ↔ s.host.isClosed id = true ∨ t.Gone id
  /-- The shared handle is not closed. -/
  shared : s.host.shared = some id → s.host.isClosed id = false
  /-- A handle that has gone stays so. -/
  lasting : t.Gone id → ∀ later, (t.run later).Gone id
  /-- A worker that has not ended is occupied, or has had no time to follow the order to stop. -/
  occupied : answer = false → ∃ w worker, t.host.workerOf? id = some w ∧
    t.host.workers[w]? = some worker ∧ t.Occupied id worker
  /-- If it has had the time to do what it could, it holds a request of the handle. -/
  held : answer = false → (∀ w, t.host.workerOf? id = some w → t.host.work? w = none) →
    ∃ w r ticket, t.host.workerOf? id = some w ∧ t.host.handled? w = some r ∧
      t.tickets[r]? = some ticket ∧ ticket.handle = id

/-- A handle that has been asked to close keeps the worker that it had. -/
theorem handle_of_close {s : World} {id : Nat} {handle : Handle}
    (hhandle : s.host.handles[id]? = some handle) (more : List Act) :
    (s.run (.close id :: more)).host.handles[id]? =
      some { handle with state := .closed handle.state.hired? } := by
  refine handle_of_closed_run ?_ rfl more
  have hcloses := Host.closes_requestClose s.host id
  show (s.host.requestClose id).2.handles[id]? = _
  generalize (s.host.requestClose id).2 = host at hcloses
  cases hcloses with
  | stays hclosed =>
      have hclosed := hclosed handle hhandle
      obtain ⟨config, source, state⟩ := handle
      cases state with
      | closed former => exact hhandle
      | fresh | running => cases hclosed
  | fresh shared hother hstate | running shared hother hstate =>
      obtain rfl := Option.some.inj (hother.symm.trans hhandle)
      simp [hhandle, hstate, HandleState.hired?]

/-- Whoever closes a handle waits for the worker that the handle has. -/
theorem closeAnswer_eq {s : World} {id : Nat} {handle : Handle}
    (hhandle : s.host.handles[id]? = some handle) (more : List Act) (timeout : Option Seconds) :
    s.closeAnswer id more timeout =
      handle.state.worker?.all (s.run (.close id :: more)).host.hasEnded := by
  have hworker : (s.host.requestClose id).1 = handle.state.worker? := by
    simp only [Host.requestClose, hhandle]
    cases handle.state <;> rfl
  rw [closeAnswer, hworker]
  cases handle.state.worker? with
  | none => rfl
  | some w =>
      simp only [Host.answerClose, Option.all_some]
      split
      next hended => exact hended.symm
      next hended => exact (Bool.eq_false_iff.mpr hended).symm

/-- A handle has gone when its worker has ended. -/
theorem gone_iff {s : World} (hkept : s.Kept) (hended : s.Ended) {id : Nat} :
    s.Gone id ↔ (s.host.workerOf? id).all s.host.hasEnded = true := by
  cases hw : s.host.workerOf? id with
  | none => simp [Gone, hw]
  | some w =>
      obtain ⟨worker, hworker, -⟩ := Host.Kept.attached hkept id w hw
      simp only [Gone, hw, Option.some.injEq, forall_eq', Option.all_some, Host.hasEnded, hworker,
        Option.any_some]
      refine ⟨fun ⟨hphase, _⟩ => ?_, fun hdone => ?_⟩
      · have hstopped : worker.phase = .stopped := by simpa [Host.phase?, hworker] using hphase
        rw [hstopped]
        rfl
      · obtain ⟨hstopped, -⟩ := stopped_of_hasEnded hkept hw hworker hdone
        have hphase : s.host.phase? w = some .stopped := by simp [Host.phase?, hworker, hstopped]
        exact ⟨hphase, hended.deinit w hphase⟩

/-- Whoever is told that the worker has not ended has waited for a worker, and it has not. -/
theorem exists_live {s : World} (hkept : s.Kept) {id : Nat} {state : HandleState}
    (hhired : s.host.workerOf? id = state.hired?)
    (hno : state.worker?.all s.host.hasEnded = false) :
    ∃ w worker, s.host.workerOf? id = some w ∧ s.host.workers[w]? = some worker ∧
      worker.phase.hasEnded = false := by
  cases state with
  | fresh | closed former => cases hno
  | running w =>
      obtain ⟨worker, hworker, -⟩ := Host.Kept.attached hkept id w hhired
      refine ⟨w, worker, hhired, hworker, ?_⟩
      simpa [HandleState.worker?, Host.hasEnded, hworker] using hno

/-- **What the answer to a close tells**, in every run. -/
theorem stops_close (e : Circumstances) (acts : List Act) {id : Nat}
    (hid : id < ((opening e).run acts).host.handles.length) (more : List Act)
    (timeout : Option Seconds) :
    Stops ((opening e).run acts) ((opening e).run (acts ++ .close id :: more)) id
      (((opening e).run acts).closeAnswer id more timeout) := by
  have hkept := (ledger_run (ledger_opening e) (acts ++ .close id :: more)).kept
  have hended := ended_run (ended_opening e) (acts ++ .close id :: more)
  have hshared := sharedRuns_run (sharedRuns_opening e) acts
  have hhandle := List.getElem?_eq_getElem hid
  rw [run_append] at hkept hended ⊢
  have hafter := handle_of_close hhandle more
  rw [closeAnswer_eq hhandle more]
  generalize ((opening e).run acts).run (.close id :: more) = t at *
  generalize ((opening e).run acts).host.handles[id] = handle at *
  generalize (opening e).run acts = s at *
  have hhired : t.host.workerOf? id = handle.state.hired? := by
    simp [Host.workerOf?, hafter, HandleState.hired?]
  have hclosed : t.host.isClosed id = true := Host.isClosed_eq_true_iff.mpr ⟨_, hafter, rfl⟩
  refine ⟨?_, fun hid' => ?_, fun hgone later => hgone.run hclosed later, fun hno => ?_,
    fun hno hquiet => ?_⟩
  · rw [gone_iff hkept hended, hhired, Host.isClosed, hhandle, Option.any_some]
    cases handle.state <;> simp [HandleState.worker?, HandleState.hired?, HandleState.isClosed]
  · obtain ⟨other, w, hother, hstate⟩ := hshared id hid'
    simp [Host.isClosed, hother, hstate, HandleState.isClosed]
  · obtain ⟨w, worker, hw, hworker, hlive⟩ := exists_live hkept hhired hno
    exact ⟨w, worker, hw, hworker, occupied_of_closed hkept hw hworker hclosed hlive⟩
  · obtain ⟨w, worker, hw, hworker, hlive⟩ := exists_live hkept hhired hno
    obtain ⟨r, hheld⟩ := exists_handled_of_quiet hkept hw hworker hclosed hlive (hquiet w hw)
    obtain ⟨ticket, hticket, hhandle'⟩ := exists_ticket_of_handled hkept hw hheld
    exact ⟨w, r, ticket, hw, hheld, hticket, hhandle'⟩

/-- A handle is closed while its worker stands at a gate: whoever has a second is told that the worker
has not ended, and whoever waits until the gate is open is told that it has. -/
theorem stops_close_of_gated :
    let e : Circumstances := { behaviour := { programs := [("a", [{ gate := some "g" }])] } }
    let acts : List Act := [.create {} .given, .start 0, .call 0 0 .execute "a" none, .advance 0,
      .work 0, .work 0]
    let more : List Act := [.openGate "g", .work 0, .receive 0, .work 0]
    0 < ((opening e).run acts).host.handles.length ∧
      ((opening e).run acts).closeAnswer 0 [] (some (.whole 1)) = false ∧
      Stops ((opening e).run acts) ((opening e).run (acts ++ [.close 0])) 0 false ∧
      ((opening e).run acts).closeAnswer 0 more none = true ∧
      Stops ((opening e).run acts) ((opening e).run (acts ++ .close 0 :: more)) 0 true := by
  intro e acts more
  have hid : 0 < ((opening e).run acts).host.handles.length := by decide +kernel
  have hno : ((opening e).run acts).closeAnswer 0 [] (some (.whole 1)) = false := by decide +kernel
  have hyes : ((opening e).run acts).closeAnswer 0 more none = true := by decide +kernel
  refine ⟨hid, hno, ?_, hyes, ?_⟩
  · exact hno ▸ stops_close e acts hid [] (some (.whole 1))
  · exact hyes ▸ stops_close e acts hid more none

/-- **The answers are not always true.** A handle whose worker stands at a gate is closed twice. The
first close is told that the worker has not ended, and the second one that it has, though it has not.
And a worker that has nothing to do is said not to have ended, when there is no time to wait for it. -/
theorem closeAnswer_untrue_of_repeated :
    let e : Circumstances := { behaviour := { programs := [("a", [{ gate := some "g" }])] } }
    let s := (opening e).run [.create {} .given, .start 0, .call 0 0 .execute "a" none, .advance 0,
      .work 0, .work 0]
    let idle := (opening e).run [.create {} .given, .start 0]
    (s.closeAnswer 0 [] (some (.whole 1)) = false ∧
      (s.step (.close 0)).closeAnswer 0 [] (some (.whole 1)) = true ∧
      (s.run [.close 0, .close 0]).host.workerOf? 0 = some 0 ∧
      (s.run [.close 0, .close 0]).host.handled? 0 = some 0 ∧
      (0, Call.deinit) ∉ (s.run [.close 0, .close 0]).host.trace) ∧
    idle.closeAnswer 0 [] (some (.whole 0)) = false ∧ (idle.step (.close 0)).host.handled? 0 = none ∧
      (idle.step (.close 0)).tickets = [] := by
  decide +kernel

end World

end JanetEmbedding
