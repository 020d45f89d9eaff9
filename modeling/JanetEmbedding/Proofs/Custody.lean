import JanetEmbedding.Proofs.Moves

/-!
# Custody

Every request that is accepted is in the custody of one worker until nothing more becomes of it.
This module states that as an invariant of the host, and proves that every operation keeps it.

The requests of a handle, in the order in which they came, are those that are **settled**, then the
one that its worker holds, then those in its queue. The order to stop is behind all of them, and
once it has been given there is nothing behind it.

## Conventions

* The **owners** of a host are the handles of its requests, in the order of the requests.

## Main definitions

* `Charged`: what a worker is charged with, in terms of the requests of its handle.
* `Host.Kept`: the invariant.

## Main results

* `Kept.work`, `Kept.accept`, `Kept.giveUp`, `Kept.starts`, `Kept.closes`: the operations keep it.
* `World.kept_run`: it holds in every run.
* `Kept.progress_of_handled`, `Kept.exists_handled`, `Kept.handled_inj`: a request is running
  exactly when some worker holds it, and only one does.
-/

namespace JanetEmbedding

/-- A list that has grown by one ends there. -/
theorem getElem?_concat_of_gt {α : Type} {xs : List α} {i : Nat} (h : xs.length < i) (x : α) :
    (xs ++ [x])[i]? = none ∧ xs[i]? = none := by
  refine ⟨List.getElem?_eq_none ?_, List.getElem?_eq_none (Nat.le_of_lt h)⟩
  rw [List.length_append, List.length_singleton]
  exact h

/-- What is found in a list that has grown by one. -/
theorem getElem?_concat_eq_some_iff {α : Type} {xs : List α} {x y : α} {i : Nat} :
    (xs ++ [x])[i]? = some y ↔ xs[i]? = some y ∨ i = xs.length ∧ x = y := by
  rcases Nat.lt_trichotomy i xs.length with hlt | heq | hgt
  · simp [List.getElem?_append_left hlt, Nat.ne_of_lt hlt]
  · subst heq
    simp
  · obtain ⟨hnone, hnone'⟩ := getElem?_concat_of_gt hgt x
    rw [hnone, hnone']
    simp [Nat.ne_of_gt hgt]

/-- The worker that a handle has or had. -/
def HandleState.hired? : HandleState → Option Nat
  | fresh => none
  | running w => some w
  | closed former => former

/-- Whether a worker takes requests, or handles one. -/
def Phase.isLive : Phase → Bool
  | serving => true
  | waiting .. => true
  | evaluating .. => true
  | _ => false

/-- Whether a worker holds the descriptors. -/
def Phase.isEvaluating : Phase → Bool
  | evaluating .. => true
  | _ => false

/-- A worker that holds a request is live. -/
theorem Phase.isLive_of_request? {p : Phase} {r : Nat} (h : p.request? = some r) :
    p.isLive = true := by
  cases p <;> simp_all [request?, isLive]

/-- The requests in the queue of a worker. -/
def Worker.requests (w : Worker) : List Nat := w.queue.filterMap Item.request?

namespace Host

/-- The worker that a handle has or had. -/
def workerOf? (h : Host) (id : Nat) : Option Nat := h.handles[id]?.bind (·.state.hired?)

/-- Whether a handle is closed. -/
def isClosed (h : Host) (id : Nat) : Bool := h.handles[id]?.any (·.state.isClosed)

/-- A handle that is running has its worker, and is not closed. -/
theorem workerOf?_of_worker? {h : Host} {id w : Nat}
    (hrunning : h.handles[id]?.bind (·.state.worker?) = some w) :
    h.workerOf? id = some w ∧ h.isClosed id = false := by
  obtain ⟨handle, hhandle, hstate⟩ := Option.bind_eq_some_iff.mp hrunning
  obtain ⟨config, source, state⟩ := handle
  cases state with
  | fresh => cases hstate
  | closed former => cases hstate
  | running v =>
      obtain rfl : v = w := Option.some.inj hstate
      simp [workerOf?, isClosed, hhandle, HandleState.hired?, HandleState.isClosed]

/-- Changing a handle changes its worker. -/
theorem workerOf?_modify {h h' : Host} {id : Nat} {handle : Handle} {f : Handle → Handle}
    (hhandle : h.handles[id]? = some handle) (hhandles : h'.handles = h.handles.modify id f) :
    h'.workerOf? = Function.update h.workerOf? id (f handle).state.hired? := by
  funext i
  by_cases hi : i = id
  · subst hi
    simp [workerOf?, hhandles, hhandle]
  · rw [Function.update_of_ne hi]
    simp [workerOf?, hhandles, Ne.symm hi]

/-- Changing a handle changes whether it is closed. -/
theorem isClosed_modify {h h' : Host} {id : Nat} {handle : Handle} {f : Handle → Handle}
    (hhandle : h.handles[id]? = some handle) (hhandles : h'.handles = h.handles.modify id f) :
    h'.isClosed = Function.update h.isClosed id (f handle).state.isClosed := by
  funext i
  by_cases hi : i = id
  · subst hi
    simp [isClosed, hhandles, hhandle]
  · rw [Function.update_of_ne hi]
    simp [isClosed, hhandles, Ne.symm hi]

/-- Where requests stand is told by the requests alone. -/
theorem progress?_of_requests {h h' : Host} (hrequests : h'.requests = h.requests) :
    h'.progress? = h.progress? := by
  funext r
  simp only [progress?, hrequests]

/-- Changing a request changes where that request stands. -/
theorem progress?_updateRequest {h : Host} {r : Nat} {request : Request}
    (hrequest : h.requests[r]? = some request) (f : Request → Request) :
    (h.updateRequest r f).progress? =
      Function.update h.progress? r (some (f request).progress) := by
  funext v
  by_cases hv : v = r
  · subst hv
    simp [progress?, updateRequest, hrequest]
  · rw [Function.update_of_ne hv]
    simp [progress?, updateRequest, Ne.symm hv]

/-- A request that comes is the last one. -/
theorem progress?_concat (h : Host) (request : Request) :
    ({ h with requests := h.requests ++ [request] } : Host).progress? =
      Function.update h.progress? h.requests.length (some request.progress) := by
  funext v
  by_cases hv : v = h.requests.length
  · subst hv
    simp [progress?]
  · rw [Function.update_of_ne hv]
    rcases Nat.lt_or_gt_of_ne hv with hlt | hgt
    · simp [progress?, List.getElem?_append_left hlt]
    · obtain ⟨hnone, hnone'⟩ := getElem?_concat_of_gt hgt request
      simp only [progress?, hnone, hnone']

/-- A request that is accepted is queued. -/
theorem progress?_accept (h : Host) (w : Nat) (kind : RequestKind) (source : Text) :
    (h.accept w kind source).progress? =
      Function.update h.progress? h.requests.length (some .queued) :=
  progress?_concat h { kind, source }

/-- A request comes to its result when its worker holds the descriptors, or when they are free. -/
theorem Ends.isEvaluating_or_free {h : Host} {path : Option Text} {request : Request} {phase : Phase}
    {x : Result} {stdio : Stdio} {calls : List Interpreter.Call}
    (hends : Ends h path request phase x stdio calls) :
    phase.isEvaluating = true ∨ h.holder = none := by
  cases hends with
  | unredirected hholder => exact .inr hholder
  | unencoded hholder => exact .inr hholder
  | concluded => exact .inl rfl

end Host

/-! ### The requests of a handle -/

/-- The requests of a handle, in the order in which they came. -/
def placesOf (owners : List Nat) (id : Nat) : List Nat :=
  (List.range owners.length).filter (owners[·]? = some id)

theorem mem_placesOf {owners : List Nat} {id r : Nat} :
    r ∈ placesOf owners id ↔ owners[r]? = some id := by
  simp only [placesOf, List.mem_filter, List.mem_range, decide_eq_true_eq, and_iff_right_iff_imp]
  exact fun h => (List.getElem?_eq_some_iff.mp h).1

theorem nodup_placesOf (owners : List Nat) (id : Nat) : (placesOf owners id).Nodup :=
  List.nodup_range.filter _

/-- A request that comes last is the last of the requests of its handle. -/
theorem placesOf_concat (owners : List Nat) (id id' : Nat) :
    placesOf (owners ++ [id']) id =
      placesOf owners id ++ if id' = id then [owners.length] else [] := by
  have hold : (List.range owners.length).filter ((owners ++ [id'])[·]? = some id) =
      placesOf owners id := by
    refine List.filter_congr fun r hr => ?_
    rw [List.getElem?_append_left (List.mem_range.mp hr)]
  rw [placesOf, List.length_append, List.length_singleton, List.range_succ, List.filter_append, hold]
  by_cases hid : id' = id <;> simp [hid]

/-! ### What a worker is charged with -/

/-- What a worker is **charged** with, given where every request stands, the requests of its handle
and whether its handle is closed. -/
structure Charged (progress : Nat → Option Progress) (places : List Nat) (closed : Bool)
    (worker : Worker) : Prop where
  order : ∃ done, places = done ++ worker.phase.request?.toList ++ worker.requests ∧
    ∀ r ∈ done, ∃ p, progress r = some p ∧ p.isSettled = true
  held : ∀ r, worker.phase.request? = some r → progress r = some .running
  queued : ∀ r ∈ worker.requests, progress r = some .queued ∨ progress r = some .withdrawn
  /-- The order to stop is at the end of the queue, or has been followed. -/
  shape : (worker.phase.isLive = true ∧
      worker.queue = worker.requests.map .request ++ if closed then [.stop] else []) ∨
    (closed = true ∧ worker.queue = [] ∧ worker.phase = .stopped)

namespace Charged

variable {progress progress' : Nat → Option Progress} {places rest : List Nat} {closed : Bool}
  {worker : Worker} {r : Nat} {items : List Item}

theorem mem_places_of_mem_requests (h : Charged progress places closed worker)
    (hr : r ∈ worker.requests) : r ∈ places := by
  obtain ⟨done, horder, -⟩ := h.order
  rw [horder]
  simp [hr]

/-- A worker is charged with its own requests only. -/
theorem congr (h : Charged progress places closed worker)
    (hsame : ∀ r ∈ places, progress' r = progress r) : Charged progress' places closed worker := by
  obtain ⟨done, horder, hdone⟩ := h.order
  have hheld : ∀ r, worker.phase.request? = some r → r ∈ places := fun r hr => by
    rw [horder, hr]
    simp
  refine ⟨⟨done, horder, fun r hr => ?_⟩, fun r hr => ?_, fun r hr => ?_, h.shape⟩
  · rw [hsame r (by rw [horder]; simp [hr])]
    exact hdone r hr
  · rw [hsame r (hheld r hr)]
    exact h.held r hr
  · rw [hsame r (h.mem_places_of_mem_requests hr)]
    exact h.queued r hr

/-- Each request of a handle is settled, held or queued. -/
theorem cases_of_mem (h : Charged progress places closed worker) (hr : r ∈ places) :
    (∃ p, progress r = some p ∧ p.isSettled = true) ∨ worker.phase.request? = some r ∨
      r ∈ worker.requests := by
  obtain ⟨done, horder, hdone⟩ := h.order
  rw [horder] at hr
  rcases List.mem_append.mp hr with hr | hr
  · rcases List.mem_append.mp hr with hr | hr
    · exact .inl (hdone r hr)
    · exact .inr (.inl (by simpa using hr))
  · exact .inr (.inr hr)

/-- The queue of a worker that is about to take a request. -/
theorem queue_eq_of_request (h : Charged progress places closed worker)
    (hqueue : worker.queue = .request r :: items) :
    items = (items.filterMap Item.request?).map .request ++ if closed then [.stop] else [] := by
  rcases h.shape with ⟨-, hshape⟩ | ⟨-, hempty, -⟩
  · simp only [Worker.requests, hqueue, List.filterMap_cons, Item.request?_request, List.map_cons,
      List.cons_append, List.cons.injEq, true_and] at hshape
    exact hshape
  · rw [hqueue] at hempty
    cases hempty

/-- The order to stop is alone in the queue when it is followed. -/
theorem eq_nil_of_stop (h : Charged progress places closed worker)
    (hqueue : worker.queue = .stop :: items) : items = [] ∧ closed = true := by
  rcases h.shape with ⟨-, hshape⟩ | ⟨-, hempty, -⟩
  · cases hrequests : worker.requests with
    | nil =>
        rw [hqueue, hrequests] at hshape
        cases closed <;> simp_all
    | cons v vs =>
        rw [hqueue, hrequests] at hshape
        simp at hshape
  · rw [hqueue] at hempty
    cases hempty

/-- Following the order to stop. -/
theorem leave (h : Charged progress places closed worker) (hphase : worker.phase = .serving)
    (hqueue : worker.queue = .stop :: items) :
    Charged progress places closed { worker with queue := [], phase := .stopped } := by
  obtain ⟨rfl, hclosed⟩ := h.eq_nil_of_stop hqueue
  obtain ⟨done, horder, hdone⟩ := h.order
  refine ⟨⟨done, ?_, hdone⟩, by simp [Phase.request?], by simp [Worker.requests],
    .inr ⟨hclosed, rfl, rfl⟩⟩
  simpa [Worker.requests, List.filterMap_cons, hphase, hqueue, Phase.request?] using horder

/-- Taking a request from the queue, after which the worker holds it or it is settled. -/
theorem take (p : Progress) (phase : Phase) (h : Charged progress places closed worker)
    (hnodup : places.Nodup) (hphase : worker.phase = .serving)
    (hqueue : worker.queue = .request r :: items) (hlive : phase.isLive = true)
    (hp : phase.request? = some r ∧ p = .running ∨ phase.request? = none ∧ p.isSettled = true) :
    Charged (Function.update progress r (some p)) places closed
      { worker with queue := items, phase } := by
  obtain ⟨done, horder, hdone⟩ := h.order
  have hrequests : worker.requests = r :: items.filterMap Item.request? := by
    simp [Worker.requests, hqueue]
  rw [hphase, hrequests] at horder
  simp only [Phase.request?, Option.toList_none, List.append_nil] at horder
  rw [horder, List.nodup_append] at hnodup
  obtain ⟨-, hrest, hdisjoint⟩ := hnodup
  have hother : ∀ v ∈ done, v ≠ r := fun v hv => hdisjoint v hv r (by simp)
  have hlater : ∀ v ∈ items.filterMap Item.request?, v ≠ r := fun v hv heq =>
    (List.nodup_cons.mp hrest).1 (heq ▸ hv)
  have hqueued : ∀ v ∈ items.filterMap Item.request?,
      Function.update progress r (some p) v = some .queued ∨
        Function.update progress r (some p) v = some .withdrawn := fun v hv => by
    rw [Function.update_of_ne (hlater v hv)]
    exact h.queued v (by rw [hrequests]; exact List.mem_cons_of_mem r hv)
  have hsettled : ∀ v ∈ done, ∃ q, Function.update progress r (some p) v = some q ∧
      q.isSettled = true := fun v hv => by
    rw [Function.update_of_ne (hother v hv)]
    exact hdone v hv
  have hshape := h.queue_eq_of_request hqueue
  rcases hp with ⟨hholds, rfl⟩ | ⟨hholds, hp⟩
  · refine ⟨⟨done, ?_, hsettled⟩, fun v hv => ?_, hqueued, .inl ⟨hlive, hshape⟩⟩
    · simp only [hholds, Worker.requests, Option.toList_some, List.append_assoc,
        List.singleton_append]
      exact horder
    · obtain rfl : r = v := Option.some.inj (hholds.symm.trans hv)
      exact Function.update_self ..
  · refine ⟨⟨done ++ [r], ?_, fun v hv => ?_⟩, fun v hv => ?_, hqueued, .inl ⟨hlive, hshape⟩⟩
    · simp only [hholds, Worker.requests, Option.toList_none, List.append_nil, List.append_assoc,
        List.singleton_append]
      exact horder
    · rcases List.mem_append.mp hv with hv | hv
      · exact hsettled v hv
      · obtain rfl : v = r := by simpa using hv
        exact ⟨p, Function.update_self .., hp⟩
    · cases hholds.symm.trans hv

/-- Going on with the request that is held. -/
theorem goOn {phase : Phase} (h : Charged progress places closed worker)
    (hheld : worker.phase.request? = some r) (hphase : phase.request? = some r) :
    Charged progress places closed { worker with phase } := by
  refine ⟨?_, fun v hv => h.held v ?_, h.queued, ?_⟩
  · obtain ⟨done, horder, hdone⟩ := h.order
    rw [hheld, ← hphase] at horder
    exact ⟨done, horder, hdone⟩
  · rw [hheld, ← hphase]
    exact hv
  · rcases h.shape with ⟨-, hqueue⟩ | ⟨-, -, hstopped⟩
    · exact .inl ⟨Phase.isLive_of_request? hphase, hqueue⟩
    · rw [hstopped] at hheld
      cases hheld

/-- Finishing the request that is held. -/
theorem finish {x : Result} (h : Charged progress places closed worker) (hnodup : places.Nodup)
    (hheld : worker.phase.request? = some r) :
    Charged (Function.update progress r (some (.finished x))) places closed
      { worker with phase := .serving } := by
  obtain ⟨done, horder, hdone⟩ := h.order
  simp only [hheld, Option.toList_some] at horder
  rw [horder, List.append_assoc, List.nodup_append] at hnodup
  obtain ⟨-, hrest, hdisjoint⟩ := hnodup
  refine ⟨⟨done ++ [r], ?_, fun v hv => ?_⟩, by simp [Phase.request?], fun v hv => ?_, ?_⟩
  · simp only [Phase.request?, Option.toList_none, List.append_nil]
    exact horder
  · rcases List.mem_append.mp hv with hv | hv
    · rw [Function.update_of_ne (hdisjoint v hv r (by simp))]
      exact hdone v hv
    · obtain rfl : v = r := by simpa using hv
      exact ⟨.finished x, Function.update_self .., rfl⟩
  · have hne : v ≠ r := fun heq => (List.nodup_cons.mp hrest).1 (heq ▸ hv)
    rw [Function.update_of_ne hne]
    exact h.queued v hv
  · rcases h.shape with ⟨-, hqueue⟩ | ⟨-, -, hstopped⟩
    · exact .inl ⟨rfl, hqueue⟩
    · rw [hstopped] at hheld
      cases hheld

/-- Withdrawing a request that is queued. -/
theorem withdraw (h : Charged progress places closed worker) (hr : progress r = some .queued) :
    Charged (Function.update progress r (some .withdrawn)) places closed worker := by
  obtain ⟨done, horder, hdone⟩ := h.order
  refine ⟨⟨done, horder, fun v hv => ?_⟩, fun v hv => ?_, fun v hv => ?_, h.shape⟩
  · by_cases hne : v = r
    · exact ⟨.withdrawn, by rw [hne, Function.update_self], rfl⟩
    · rw [Function.update_of_ne hne]
      exact hdone v hv
  · have hne : v ≠ r := by
      rintro rfl
      cases hr.symm.trans (h.held v hv)
    rw [Function.update_of_ne hne]
    exact h.held v hv
  · by_cases hne : v = r
    · exact .inr (by rw [hne, Function.update_self])
    · rw [Function.update_of_ne hne]
      exact h.queued v hv

/-- Putting a request at the end of the queue. -/
theorem submit (h : Charged progress places false worker) (hr : progress r = some .queued) :
    Charged progress (places ++ [r]) false
      { worker with queue := worker.queue ++ [.request r] } := by
  obtain ⟨done, horder, hdone⟩ := h.order
  refine ⟨⟨done, ?_, hdone⟩, h.held, fun v hv => ?_, ?_⟩
  · simp [horder, Worker.requests]
  · rcases List.mem_append.mp (by simpa only [Worker.requests, List.filterMap_append] using hv)
      with hv | hv
    · exact h.queued v hv
    · obtain rfl : v = r := by simpa using hv
      exact .inl hr
  · rcases h.shape with ⟨hlive, hqueue⟩ | ⟨hclosed, -, -⟩
    · refine .inl ⟨hlive, ?_⟩
      simp only [Bool.false_eq_true, if_false, List.append_nil] at hqueue ⊢
      rw [hqueue]
      simp [Worker.requests, List.filterMap_append, Function.comp_def]
    · cases hclosed

/-- Giving the order to stop. -/
theorem close (h : Charged progress places false worker) :
    Charged progress places true { worker with queue := worker.queue ++ [.stop] } := by
  have hrequests : ({ worker with queue := worker.queue ++ [.stop] } : Worker).requests =
      worker.requests := by
    simp [Worker.requests, List.filterMap_cons]
  refine ⟨?_, h.held, ?_, ?_⟩
  · rw [hrequests]
    exact h.order
  · rw [hrequests]
    exact h.queued
  · rcases h.shape with ⟨hlive, hqueue⟩ | ⟨hclosed, -, -⟩
    · refine .inl ⟨hlive, ?_⟩
      rw [hrequests]
      simpa using hqueue
    · cases hclosed

end Charged

/-! ### The invariant -/

namespace Host

/-- The **invariant**: every worker that belongs to a handle is charged with its requests, the
others have ended, and the descriptors are held by the worker that evaluates. -/
structure Kept (owners : List Nat) (h : Host) : Prop where
  size : owners.length = h.requests.length
  owned : ∀ id ∈ owners, (h.workerOf? id).isSome
  sole : ∀ id id' w, h.workerOf? id = some w → h.workerOf? id' = some w → id = id'
  attached : ∀ id w, h.workerOf? id = some w → ∃ worker, h.workers[w]? = some worker ∧
    Charged h.progress? (placesOf owners id) (h.isClosed id) worker
  idle : ∀ w worker, h.workers[w]? = some worker → (∀ id, h.workerOf? id ≠ some w) →
    worker.phase.hasEnded = true ∧ worker.queue = []
  holder : ∀ w, h.holder = some w ↔
    ∃ worker, h.workers[w]? = some worker ∧ worker.phase.isEvaluating = true

namespace Kept

variable {owners : List Nat} {h h' : Host} {id w r : Nat} {worker : Worker}

/-- A change of one worker and of the requests of its handle keeps the invariant, if the worker is
charged with them afterwards. -/
theorem charge {owners' : List Nat} (worker' : Worker) (hkept : Kept owners h)
    (hid : h.workerOf? id = some w) (hsize : owners'.length = h'.requests.length)
    (howned : ∀ i ∈ owners', i ∈ owners ∨ i = id)
    (hplaces : ∀ i, i ≠ id → placesOf owners' i = placesOf owners i)
    (hof : ∀ i, h'.workerOf? i = h.workerOf? i)
    (hclosed : ∀ i, i ≠ id → h'.isClosed i = h.isClosed i)
    (hothers : ∀ v, v ≠ w → h'.workers[v]? = h.workers[v]?)
    (hworker : h'.workers[w]? = some worker')
    (hprogress : ∀ i, i ≠ id → ∀ r ∈ placesOf owners i, h'.progress? r = h.progress? r)
    (hcharged : Charged h'.progress? (placesOf owners' id) (h'.isClosed id) worker')
    (hholder : ∀ v, h'.holder = some v ↔
      if v = w then worker'.phase.isEvaluating = true else h.holder = some v) :
    Kept owners' h' := by
  refine ⟨hsize, fun i hi => ?_, fun i j v hi hj => ?_, fun i v hi => ?_, fun v x hv hfree => ?_,
    fun v => ?_⟩
  · rw [hof]
    rcases howned i hi with hold | rfl
    · exact hkept.owned i hold
    · rw [hid]
      rfl
  · rw [hof] at hi hj
    exact hkept.sole i j v hi hj
  · rw [hof] at hi
    by_cases hne : i = id
    · subst hne
      obtain rfl : w = v := Option.some.inj (hid.symm.trans hi)
      exact ⟨worker', hworker, hcharged⟩
    · obtain ⟨x, hx, hx'⟩ := hkept.attached i v hi
      have hv : v ≠ w := fun heq => hne (hkept.sole i id w (heq ▸ hi) hid)
      refine ⟨x, (hothers v hv).trans hx, ?_⟩
      rw [hclosed i hne, hplaces i hne]
      exact hx'.congr (hprogress i hne)
  · have hne : v ≠ w := fun heq => hfree id ((hof id).trans (heq ▸ hid))
    exact hkept.idle v x ((hothers v hne).symm.trans hv) fun i hi => hfree i ((hof i).trans hi)
  · rw [hholder]
    by_cases hv : v = w
    · subst hv
      simp [hworker]
    · rw [if_neg hv, hothers v hv]
      exact hkept.holder v

/-- A worker that has not ended belongs to a handle. -/
theorem exists_workerOf? (hkept : Kept owners h) (hworker : h.workers[w]? = some worker)
    (hlive : worker.phase.hasEnded = false) : ∃ id, h.workerOf? id = some w := by
  by_contra hfree
  have hended := (hkept.idle w worker hworker (not_exists.mp hfree)).1
  rw [hlive] at hended
  cases hended

/-- The worker of a handle is charged with its requests. -/
theorem charged (hkept : Kept owners h) (hid : h.workerOf? id = some w)
    (hworker : h.workers[w]? = some worker) :
    Charged h.progress? (placesOf owners id) (h.isClosed id) worker := by
  obtain ⟨x, hx, hcharged⟩ := hkept.attached id w hid
  obtain rfl : worker = x := Option.some.inj (hworker.symm.trans hx)
  exact hcharged

/-- The worker that holds the descriptors is the one that evaluates. -/
theorem holder_eq_some_iff (hkept : Kept owners h) (hworker : h.workers[w]? = some worker) :
    h.holder = some w ↔ worker.phase.isEvaluating = true := by
  rw [hkept.holder w]
  simp [hworker]

theorem lt_of_mem_placesOf (hkept : Kept owners h) (hr : r ∈ placesOf owners id) :
    r < h.requests.length := by
  rw [← hkept.size]
  exact (List.getElem?_eq_some_iff.mp (mem_placesOf.mp hr)).1

/-- A request is running when a worker holds it. -/
theorem progress_of_handled (hkept : Kept owners h) (hheld : h.handled? w = some r) :
    h.progress? r = some .running := by
  obtain ⟨worker, hworker, hphase⟩ := Option.bind_eq_some_iff.mp hheld
  obtain ⟨id, hid⟩ := hkept.exists_workerOf? hworker (by
    cases hworker' : worker.phase <;> simp_all [Phase.request?, Phase.hasEnded])
  exact (hkept.charged hid hworker).held r hphase

/-- A request that a worker holds is one of its handle. -/
theorem mem_placesOf_of_handled (hkept : Kept owners h) (hid : h.workerOf? id = some w)
    (hheld : h.handled? w = some r) : r ∈ placesOf owners id := by
  obtain ⟨worker, hworker, hphase⟩ := Option.bind_eq_some_iff.mp hheld
  obtain ⟨done, horder, -⟩ := (hkept.charged hid hworker).order
  rw [horder, hphase]
  simp

/-- Only one worker holds a request. -/
theorem handled_inj {v : Nat} (hkept : Kept owners h) (hw : h.handled? w = some r)
    (hv : h.handled? v = some r) : w = v := by
  have hlive : ∀ {v}, h.handled? v = some r → ∃ id, h.workerOf? id = some v := fun hv => by
    obtain ⟨worker, hworker, hphase⟩ := Option.bind_eq_some_iff.mp hv
    refine hkept.exists_workerOf? hworker ?_
    cases hworker' : worker.phase <;> simp_all [Phase.request?, Phase.hasEnded]
  obtain ⟨i, hi⟩ := hlive hw
  obtain ⟨j, hj⟩ := hlive hv
  have hri := mem_placesOf.mp (hkept.mem_placesOf_of_handled hi hw)
  have hrj := mem_placesOf.mp (hkept.mem_placesOf_of_handled hj hv)
  obtain rfl : i = j := Option.some.inj (hri.symm.trans hrj)
  exact Option.some.inj (hi.symm.trans hj)

/-- Every request belongs to a worker. -/
theorem exists_charged (hkept : Kept owners h) (hr : r < h.requests.length) :
    ∃ id w worker, owners[r]? = some id ∧ h.workerOf? id = some w ∧
      h.workers[w]? = some worker ∧
      Charged h.progress? (placesOf owners id) (h.isClosed id) worker := by
  have hr' : r < owners.length := hkept.size ▸ hr
  obtain ⟨w, hw⟩ := Option.isSome_iff_exists.mp (hkept.owned _ (List.getElem_mem hr'))
  obtain ⟨worker, hworker, hcharged⟩ := hkept.attached _ w hw
  exact ⟨_, w, worker, List.getElem?_eq_getElem hr', hw, hworker, hcharged⟩

/-- Some worker holds a request that is running. -/
theorem exists_handled (hkept : Kept owners h) (hr : h.progress? r = some .running) :
    ∃ w, h.handled? w = some r := by
  have hlt : r < h.requests.length := by
    by_contra hge
    simp [progress?, List.getElem?_eq_none (Nat.le_of_not_lt hge)] at hr
  obtain ⟨id, w, worker, hid, hw, hworker, hcharged⟩ := hkept.exists_charged hlt
  refine ⟨w, ?_⟩
  rcases hcharged.cases_of_mem (mem_placesOf.mpr hid) with ⟨p, hp, hsettled⟩ | hheld | hqueued
  · obtain rfl : .running = p := Option.some.inj (hr.symm.trans hp)
    cases hsettled
  · simp [handled?, hworker, hheld]
  · rcases hcharged.queued r hqueued with hq | hq <;> cases hr.symm.trans hq

/-! ### Workers keep it -/

/-- A step of one worker keeps the invariant, if the worker is charged with its requests afterwards. -/
theorem chargeWorker {f : Worker → Worker} (hkept : Kept owners h) (hid : h.workerOf? id = some w)
    (hworker : h.workers[w]? = some worker) (hhandles : h'.handles = h.handles)
    (hlength : h'.requests.length = h.requests.length) (hworkers : h'.workers = h.workers.modify w f)
    (hprogress : h'.progress? = h.progress? ∨ ∃ r ∈ placesOf owners id, ∃ p,
      h'.progress? = Function.update h.progress? r p)
    (hcharged : Charged h'.progress? (placesOf owners id) (h.isClosed id) (f worker))
    (hholder : h'.holder = if (f worker).phase.isEvaluating then some w
      else if worker.phase.isEvaluating then none else h.holder)
    (hfree : (f worker).phase.isEvaluating = true → h.holder = none) :
    Kept owners h' := by
  have hof : ∀ i, h'.workerOf? i = h.workerOf? i := fun i => by rw [workerOf?, hhandles]; rfl
  have hclosed : ∀ i, h'.isClosed i = h.isClosed i := fun i => by rw [isClosed, hhandles]; rfl
  refine hkept.charge (f worker) hid (hkept.size.trans hlength.symm) (fun i hi => .inl hi)
    (fun i _ => rfl) hof (fun i _ => hclosed i) (fun v hv => ?_) ?_ (fun i hi v hv => ?_) ?_
    (fun v => ?_)
  · rw [hworkers, List.getElem?_modify_ne _ _ (Ne.symm hv)]
  · rw [hworkers, List.getElem?_modify_eq, hworker]
    rfl
  · rcases hprogress with hsame | ⟨r, hr, p, hsame⟩
    · rw [hsame]
    · have hne : v ≠ r := by
        rintro rfl
        exact hi (Option.some.inj ((mem_placesOf.mp hv).symm.trans (mem_placesOf.mp hr)))
      rw [hsame, Function.update_of_ne hne]
  · rw [hclosed]
    exact hcharged
  · have hbefore := hkept.holder_eq_some_iff hworker
    rw [hholder]
    by_cases hv : v = w
    · subst hv
      cases hafter : (f worker).phase.isEvaluating <;>
        cases hwas : worker.phase.isEvaluating <;> simp_all
    · rw [if_neg hv]
      cases hafter : (f worker).phase.isEvaluating <;>
        cases hwas : worker.phase.isEvaluating <;> simp_all [Ne.symm hv]

/-- A worker does not fail what is left in its queue when it leaves its loop, as there is nothing. -/
theorem failPending_eq_self (hkept : Kept owners h) (hid : h.workerOf? id = some w)
    (hworker : h.workers[w]? = some worker) {rest : List Item} (hqueue : worker.queue = .stop :: rest) :
    h.failPending rest = h := by
  obtain ⟨rfl, -⟩ := (hkept.charged hid hworker).eq_nil_of_stop hqueue
  rfl

/-- Workers keep the invariant. -/
theorem work (hkept : Kept owners h) (hworker : h.workers[w]? = some worker)
    (hdoes : Does h w worker h') : Kept owners h' := by
  obtain ⟨id, hid⟩ := hkept.exists_workerOf? hworker hdoes.hasEnded_eq_false
  have hcharged := hkept.charged hid hworker
  have hnodup := nodup_placesOf owners id
  cases hdoes with
  | @leave rest log hphase hqueue =>
      have hrequests : (h.failPending rest).requests = h.requests := by
        rw [hkept.failPending_eq_self hid hworker hqueue]
      have hsame := progress?_of_requests hrequests
      refine hkept.chargeWorker hid hworker rfl (congrArg List.length hrequests) rfl (.inl hsame) ?_ ?_
        (by simp [Phase.isEvaluating])
      · exact (hcharged.leave hphase hqueue).congr fun r _ => congrFun hsame r
      · simp [hphase, Phase.isEvaluating]
  | @pass r rest log hphase hqueue hprogress =>
      have hr : r ∈ worker.requests := by simp [Worker.requests, hqueue]
      have hwithdrawn := (hcharged.queued r hr).resolve_left hprogress
      have hsame : Function.update h.progress? r (some .withdrawn) = h.progress? := by
        rw [← hwithdrawn, Function.update_eq_self]
      have htake := hcharged.take .withdrawn .serving hnodup hphase hqueue rfl (.inr ⟨rfl, rfl⟩)
      rw [hsame, ← hphase] at htake
      refine hkept.chargeWorker hid hworker rfl rfl rfl (.inl rfl) htake ?_ ?_
      · simp [hphase, Phase.isEvaluating]
      · simp [hphase, Phase.isEvaluating]
  | @pickUp r rest pipes d hphase hqueue hprogress hpipes =>
      obtain ⟨request, hrequest, -⟩ := Option.map_eq_some_iff.mp hprogress
      have hafter := progress?_updateRequest hrequest ({ · with progress := .running })
      have hr := hcharged.mem_places_of_mem_requests (r := r) (by simp [Worker.requests, hqueue])
      have htake := hcharged.take .running (.waiting r pipes d.refusal) hnodup hphase hqueue
        rfl (.inl ⟨rfl, rfl⟩)
      refine hkept.chargeWorker hid hworker rfl (by simp) rfl (.inr ⟨r, hr, _, hafter⟩) ?_ ?_
        (by simp [Phase.isEvaluating])
      · exact htake.congr fun v _ => congrFun hafter v
      · simp [hphase, Phase.isEvaluating]
  | @refuse r rest f d log hphase hqueue hprogress hpipes =>
      obtain ⟨request, hrequest, -⟩ := Option.map_eq_some_iff.mp hprogress
      have hafter := progress?_updateRequest hrequest (·.finish (uncaptured f))
      have hr := hcharged.mem_places_of_mem_requests (r := r) (by simp [Worker.requests, hqueue])
      have htake := hcharged.take (.finished (uncaptured f)) .serving hnodup hphase hqueue
        rfl (.inr ⟨rfl, rfl⟩)
      refine hkept.chargeWorker hid hworker rfl (by simp) rfl (.inr ⟨r, hr, _, hafter⟩) ?_ ?_
        (by simp [Phase.isEvaluating])
      · exact htake.congr fun v _ => congrFun hafter v
      · simp [hphase, Phase.isEvaluating]
  | @evaluate r pipes refusal request session stdio source path p hphase hrequest hholder =>
      refine hkept.chargeWorker hid hworker rfl rfl rfl (.inl rfl) ?_ ?_ (fun _ => hholder)
      · exact hcharged.goOn (r := r) (by rw [hphase]; rfl) rfl
      · simp [Phase.isEvaluating]
  | @finish r request x stdio calls log hheld hrequest hends =>
      have hafter := progress?_updateRequest hrequest (·.finish x)
      have hr := hkept.mem_placesOf_of_handled hid (r := r) (by simp [handled?, hworker, hheld])
      refine hkept.chargeWorker hid hworker rfl (by simp) rfl (.inr ⟨r, hr, _, hafter⟩) ?_ ?_
        (by simp [Phase.isEvaluating])
      · exact (hcharged.finish hnodup hheld).congr fun v _ => congrFun hafter v
      · rcases hends.isEvaluating_or_free with hevaluating | hfree
        · rw [hevaluating]
          rfl
        · simp [Phase.isEvaluating, hfree]

/-! ### Callers keep it -/

/-- A request that is accepted is queued. -/
theorem accept (hkept : Kept owners h) (hrunning : h.handles[id]?.bind (·.state.worker?) = some w)
    (kind : RequestKind) (source : Text) : Kept (owners ++ [id]) (h.accept w kind source) := by
  obtain ⟨hid, hclosed⟩ := workerOf?_of_worker? hrunning
  obtain ⟨worker, hworker, hcharged⟩ := hkept.attached id w hid
  have hafter := progress?_accept h w kind source
  have hsame : ∀ i, ∀ r ∈ placesOf owners i,
      Function.update h.progress? h.requests.length (some .queued) r = h.progress? r :=
    fun i r hr => Function.update_of_ne (Nat.ne_of_lt (hkept.lt_of_mem_placesOf hr)) ..
  refine hkept.charge { worker with queue := worker.queue ++ [.request h.requests.length] } hid
    (by simp [Host.accept, hkept.size]) (fun i hi => ?_)
    (fun i hi => ?_) (fun i => rfl) (fun i _ => rfl) (fun v hv => ?_) ?_ (fun i _ r hr => ?_)
    ?_ (fun v => ?_)
  · simpa using hi
  · simp [placesOf_concat, Ne.symm hi]
  · exact List.getElem?_modify_ne _ _ (Ne.symm hv)
  · simp [Host.accept, hworker]
  · exact (congrFun hafter r).trans (hsame i r hr)
  · have hplaces : placesOf (owners ++ [id]) id = placesOf owners id ++ [h.requests.length] := by
      rw [placesOf_concat, if_pos rfl, hkept.size]
    have hopen : (h.accept w kind source).isClosed id = false := hclosed
    rw [hplaces, hopen]
    rw [hclosed] at hcharged
    exact ((hcharged.congr (hsame id)).submit (Function.update_self ..)).congr fun r _ =>
      congrFun hafter r
  · by_cases hv : v = w
    · subst hv
      simpa [Host.accept] using hkept.holder_eq_some_iff hworker
    · simp [hv, Host.accept]

/-- A request may be withdrawn while it is queued. -/
theorem giveUp (hkept : Kept owners h) (r : Nat) : Kept owners (h.giveUp r).2 := by
  unfold Host.giveUp
  cases hrequest : h.requests[r]? with
  | none => exact hkept
  | some request =>
      obtain ⟨id, w, worker, howner, hid, hworker, hcharged⟩ :=
        hkept.exists_charged (List.getElem?_eq_some_iff.mp hrequest).1
      have hafter := progress?_updateRequest hrequest fun _ => request.giveUp.2
      refine hkept.charge worker hid (by simp [updateRequest, hkept.size]) (fun i hi => .inl hi)
        (fun i _ => rfl) (fun i => rfl) (fun i _ => rfl) (fun v _ => rfl) hworker
        (fun i hi v hv => ?_) ?_ (fun v => ?_)
      · have hne : v ≠ r := by
          rintro rfl
          exact hi (Option.some.inj ((mem_placesOf.mp hv).symm.trans howner))
        exact (congrFun hafter v).trans (Function.update_of_ne hne ..)
      · refine Charged.congr ?_ fun v _ => congrFun hafter v
        have hprogress : h.progress? r = some request.progress := by simp [progress?, hrequest]
        obtain ⟨kind, source, progress, abandoned⟩ := request
        cases progress with
        | queued => exact hcharged.withdraw hprogress
        | withdrawn | running | finished =>
            have hsame := Function.update_eq_self r h.progress?
            rw [hprogress] at hsame
            exact hcharged.congr fun v _ => congrFun hsame v
      · by_cases hv : v = w
        · subst hv
          rw [if_pos rfl]
          exact hkept.holder_eq_some_iff hworker
        · rw [if_neg hv]
          rfl

/-! ### Making, starting and closing handles keeps it -/

/-- The invariant does not look at handles without a worker, at the calls so far and at the process. -/
theorem congr (hkept : Kept owners h) (hof : ∀ i, h'.workerOf? i = h.workerOf? i)
    (hclosed : ∀ i w, h.workerOf? i = some w → h'.isClosed i = h.isClosed i)
    (hworkers : h'.workers = h.workers) (hrequests : h'.requests = h.requests)
    (hholder : h'.holder = h.holder) : Kept owners h' := by
  have hprogress := progress?_of_requests hrequests
  refine ⟨hrequests ▸ hkept.size, fun i hi => ?_, fun i j v hi hj => ?_, fun i v hi => ?_,
    fun v x hv hfree => ?_, fun v => ?_⟩
  · rw [hof]
    exact hkept.owned i hi
  · rw [hof] at hi hj
    exact hkept.sole i j v hi hj
  · rw [hof] at hi
    rw [hclosed i v hi, hworkers, hprogress]
    exact hkept.attached i v hi
  · rw [hworkers] at hv
    exact hkept.idle v x hv fun i => hof i ▸ hfree i
  · rw [hholder, hworkers]
    exact hkept.holder v

/-- A handle that is made has no worker. -/
theorem addHandle (hkept : Kept owners h) (config : Config) (source : LibrarySource) :
    Kept owners (h.addHandle config source).2 := by
  have hhandles : ∀ i, (h.addHandle config source).2.handles[i]? = h.handles[i]? ∨
      h.handles[i]? = none ∧
        (h.addHandle config source).2.handles[i]? = some (Handle.mk config source .fresh) := fun i => by
    rcases Nat.lt_trichotomy i h.handles.length with hlt | heq | hgt
    · exact .inl (List.getElem?_append_left hlt)
    · subst heq
      exact .inr ⟨List.getElem?_eq_none (Nat.le_refl _), List.getElem?_concat_length⟩
    · obtain ⟨hnone, hnone'⟩ := getElem?_concat_of_gt hgt (Handle.mk config source .fresh)
      exact .inl (hnone.trans hnone'.symm)
  refine hkept.congr (fun i => ?_) (fun i _ _ => ?_) rfl rfl rfl
  · rcases hhandles i with hsame | ⟨hnone, hnew⟩
    · rw [workerOf?, hsame]
      rfl
    · simp [workerOf?, hnone, hnew, HandleState.hired?]
  · rcases hhandles i with hsame | ⟨hnone, hnew⟩
    · rw [isClosed, hsame]
      rfl
    · simp [isClosed, hnone, hnew, HandleState.isClosed]

/-- A worker that is made does not hold the descriptors. -/
theorem holder_concat (hkept : Kept owners h) {x : Worker} (hx : x.phase.isEvaluating = false)
    (hworkers : h'.workers = h.workers ++ [x]) (hholder : h'.holder = h.holder) (w : Nat) :
    h'.holder = some w ↔
      ∃ worker, h'.workers[w]? = some worker ∧ worker.phase.isEvaluating = true := by
  rw [hholder, hkept.holder, hworkers]
  constructor
  · rintro ⟨worker, hworker, hevaluating⟩
    exact ⟨worker, getElem?_concat_eq_some_iff.mpr (.inl hworker), hevaluating⟩
  · rintro ⟨worker, hworker, hevaluating⟩
    rcases getElem?_concat_eq_some_iff.mp hworker with hold | ⟨-, rfl⟩
    · exact ⟨worker, hold, hevaluating⟩
    · rw [hx] at hevaluating
      cases hevaluating

/-- A worker that is made and fails has ended. -/
theorem fails (hkept : Kept owners h) {path : Option Text} {f : Fault}
    (hof : ∀ i, h'.workerOf? i = h.workerOf? i) (hclosed : ∀ i, h'.isClosed i = h.isClosed i)
    (hworkers : h'.workers = h.workers ++ [⟨path, [], .failed f⟩])
    (hrequests : h'.requests = h.requests) (hholder : h'.holder = h.holder) : Kept owners h' := by
  have hprogress := progress?_of_requests hrequests
  refine ⟨hrequests ▸ hkept.size, fun i hi => ?_, fun i j v hi hj => ?_, fun i v hi => ?_,
    fun v x hv hfree => ?_, hkept.holder_concat rfl hworkers hholder⟩
  · rw [hof]
    exact hkept.owned i hi
  · rw [hof] at hi hj
    exact hkept.sole i j v hi hj
  · rw [hof] at hi
    obtain ⟨x, hx, hcharged⟩ := hkept.attached i v hi
    rw [hclosed i, hworkers, hprogress]
    exact ⟨x, getElem?_concat_eq_some_iff.mpr (.inl hx), hcharged⟩
  · rw [hworkers] at hv
    rcases getElem?_concat_eq_some_iff.mp hv with hold | ⟨-, rfl⟩
    · exact hkept.idle v x hold fun i => hof i ▸ hfree i
    · exact ⟨rfl, rfl⟩

/-- The worker of a handle is one of those there are. -/
theorem workerOf?_lt (hkept : Kept owners h) (hid : h.workerOf? id = some w) :
    w < h.workers.length := by
  obtain ⟨worker, hworker, -⟩ := hkept.attached id w hid
  exact (List.getElem?_eq_some_iff.mp hworker).1

/-- A worker that is made and serves is charged with nothing. -/
theorem serves {handle : Handle} {path : Option Text} (hkept : Kept owners h)
    (hhandle : h.handles[id]? = some handle) (hstate : handle.state = .fresh)
    (hhandles : h'.handles = h.handles.modify id ({ · with state := .running h.workers.length }))
    (hworkers : h'.workers = h.workers ++ [⟨path, [], .serving⟩])
    (hrequests : h'.requests = h.requests) (hholder : h'.holder = h.holder) : Kept owners h' := by
  have hprogress := progress?_of_requests hrequests
  have hof := workerOf?_modify hhandle hhandles
  have hclosed := isClosed_modify hhandle hhandles
  simp only [HandleState.hired?, HandleState.isClosed] at hof hclosed
  have hfresh : h.workerOf? id = none := by
    simp [workerOf?, hhandle, hstate, HandleState.hired?]
  have hne : ∀ i ∈ owners, i ≠ id := by
    rintro i hi rfl
    have howned := hkept.owned i hi
    rw [hfresh] at howned
    cases howned
  have hcases : ∀ i v, h'.workerOf? i = some v →
      i = id ∧ v = h.workers.length ∨ i ≠ id ∧ h.workerOf? i = some v := fun i v hi => by
    rw [hof] at hi
    by_cases heq : i = id
    · subst heq
      rw [Function.update_self] at hi
      exact .inl ⟨rfl, (Option.some.inj hi).symm⟩
    · rw [Function.update_of_ne heq] at hi
      exact .inr ⟨heq, hi⟩
  refine ⟨hrequests ▸ hkept.size, fun i hi => ?_, fun i j v hi hj => ?_, fun i v hi => ?_,
    fun v x hv hfree => ?_, hkept.holder_concat rfl hworkers hholder⟩
  · rw [hof, Function.update_of_ne (hne i hi)]
    exact hkept.owned i hi
  · rcases hcases i v hi with ⟨rfl, rfl⟩ | ⟨-, hi'⟩ <;> rcases hcases j _ hj with ⟨rfl, hv⟩ | ⟨-, hj'⟩
    · rfl
    · exact absurd (hkept.workerOf?_lt hj') (Nat.lt_irrefl _)
    · exact absurd (hkept.workerOf?_lt hi') (hv ▸ Nat.lt_irrefl _)
    · exact hkept.sole i j v hi' hj'
  · rcases hcases i v hi with ⟨rfl, rfl⟩ | ⟨heq, hi'⟩
    · have hempty : placesOf owners i = [] := List.eq_nil_iff_forall_not_mem.mpr fun r hr =>
        hne i (List.mem_of_getElem? (mem_placesOf.mp hr)) rfl
      refine ⟨_, hworkers ▸ List.getElem?_concat_length, ?_⟩
      rw [hclosed, Function.update_self, hempty]
      exact ⟨⟨[], rfl, by simp⟩, by simp [Phase.request?], by simp [Worker.requests],
        .inl ⟨rfl, rfl⟩⟩
    · obtain ⟨x, hx, hcharged⟩ := hkept.attached i v hi'
      refine ⟨x, hworkers ▸ getElem?_concat_eq_some_iff.mpr (.inl hx), ?_⟩
      rw [hclosed, hprogress, Function.update_of_ne heq]
      exact hcharged
  · rw [hworkers] at hv
    rcases getElem?_concat_eq_some_iff.mp hv with hold' | ⟨rfl, -⟩
    · refine hkept.idle v x hold' fun i hi => ?_
      by_cases heq : i = id
      · subst heq
        rw [hfresh] at hi
        cases hi
      · exact hfree i (by rw [hof, Function.update_of_ne heq]; exact hi)
    · exact absurd (by rw [hof, Function.update_self]) (hfree id)

/-- What the start of a handle comes to keeps the invariant. -/
theorem starts {f : Option Fault} (hkept : Kept owners h) (hstarts : Starts h id f h') :
    Kept owners h' := by
  cases hstarts with
  | stays => exact hkept.congr (fun i => rfl) (fun i _ _ => rfl) rfl rfl rfl
  | fails log hhandle hstate => exact hkept.fails (fun i => rfl) (fun i => rfl) rfl rfl rfl
  | serves log hhandle hstate => exact hkept.serves hhandle hstate rfl rfl rfl rfl

/-- The worker of a handle that is closed is told to stop. -/
theorem dismissed {handle : Handle} (hkept : Kept owners h) (hhandle : h.handles[id]? = some handle)
    (hstate : handle.state = .running w)
    (hhandles : h'.handles = h.handles.modify id ({ · with state := .closed (some w) }))
    (hworkers : h'.workers = h.workers.modify w fun x => { x with queue := x.queue ++ [.stop] })
    (hrequests : h'.requests = h.requests) (hholder : h'.holder = h.holder) : Kept owners h' := by
  have hprogress := progress?_of_requests hrequests
  have hid : h.workerOf? id = some w := by simp [workerOf?, hhandle, hstate, HandleState.hired?]
  have hopen : h.isClosed id = false := by simp [isClosed, hhandle, hstate, HandleState.isClosed]
  have hof := workerOf?_modify hhandle hhandles
  have hclosed := isClosed_modify hhandle hhandles
  simp only [HandleState.hired?, HandleState.isClosed] at hof hclosed
  obtain ⟨worker, hworker, hcharged⟩ := hkept.attached id w hid
  rw [hopen] at hcharged
  refine hkept.charge { worker with queue := worker.queue ++ [.stop] } hid
    (hrequests ▸ hkept.size) (fun i hi => .inl hi) (fun i _ => rfl) (fun i => ?_) (fun i hi => ?_)
    (fun v hv => ?_) ?_ (fun i _ r _ => congrFun hprogress r) ?_ (fun v => ?_)
  · rw [hof, ← hid, Function.update_eq_self]
  · rw [hclosed, Function.update_of_ne hi]
  · rw [hworkers]
    exact List.getElem?_modify_ne _ _ (Ne.symm hv)
  · simp [hworkers, hworker]
  · rw [hprogress, hclosed, Function.update_self]
    exact hcharged.close
  · rw [hholder]
    by_cases hv : v = w
    · subst hv
      rw [if_pos rfl, hkept.holder_eq_some_iff hworker]
    · rw [if_neg hv]

/-- Closing a handle keeps the invariant. -/
theorem closes (hkept : Kept owners h) (hcloses : Closes h id h') : Kept owners h' := by
  cases hcloses with
  | stays => exact hkept
  | @fresh handle shared hhandle hstate =>
      have hfresh : h.workerOf? id = none := by
        simp [workerOf?, hhandle, hstate, HandleState.hired?]
      refine hkept.congr (fun i => ?_) (fun i w hi => ?_) rfl rfl rfl
      · rw [workerOf?_modify hhandle rfl]
        simp only [HandleState.hired?]
        rw [← hfresh, Function.update_eq_self]
      · have hne : i ≠ id := by
          rintro rfl
          rw [hfresh] at hi
          cases hi
        rw [isClosed_modify hhandle rfl, Function.update_of_ne hne]
  | running shared hhandle hstate => exact hkept.dismissed hhandle hstate rfl rfl rfl rfl

end Kept

end Host

/-- A host without workers, handles and requests. -/
theorem Host.kept_empty {h : Host} (hworkers : h.workers = []) (hhandles : h.handles = [])
    (hrequests : h.requests = []) (hholder : h.holder = none) : Kept [] h := by
  have hof : ∀ id, h.workerOf? id = none := fun id => by simp [workerOf?, hhandles]
  refine ⟨by simp [hrequests], by simp, ?_, ?_, ?_, ?_⟩ <;> simp [hof, hworkers, hholder]

/-! ### Runs keep it -/

namespace World

/-- The handles of the requests. -/
def owners (s : World) : List Nat := s.tickets.map (·.handle)

/-- The invariant holds of the host, with the tickets as its account of the requests. -/
def Kept (s : World) : Prop := s.host.Kept s.owners

theorem kept_opening (e : Circumstances) : (opening e).Kept := Host.kept_empty rfl rfl rfl rfl

theorem kept_braced {s : World} (hkept : s.Kept) (w : Nat) : (s.braced w).Kept s.owners :=
  Host.Kept.congr hkept (fun _ => rfl) (fun _ _ _ => rfl) rfl rfl rfl

/-- **What an action comes to keeps the invariant.** -/
theorem Moves.kept {s s' : World} {a : Act} (hmoves : Moves s a s') (hkept : s.Kept) : s'.Kept := by
  cases hmoves with
  | stays => exact hkept
  | created config source => exact Host.Kept.addHandle hkept config source
  | shared config source shared hstarts =>
      exact ((Host.Kept.addHandle hkept _ source).starts hstarts).congr (fun _ => rfl)
        (fun _ _ _ => rfl) rfl rfl rfl
  | started hstarts => exact Host.Kept.starts hkept hstarts
  | expired => exact hkept
  | looked => exact hkept
  | ready hcaller hstanding hstarts => exact Host.Kept.starts hkept hstarts
  | refused hcaller hstanding hstarts => exact Host.Kept.starts hkept hstarts
  | turned => exact hkept
  | @accepted c w caller hcaller hstanding hhandle =>
      have hafter := Host.Kept.accept hkept hhandle caller.kind caller.source
      have howners : s.owners ++ [caller.handle] =
          (s.tickets ++ [Ticket.mk c caller.handle]).map (·.handle) := by simp [owners]
      rw [howners] at hafter
      exact hafter
  | served => exact hkept
  | left => exact Host.Kept.giveUp hkept _
  | closed hcloses => exact Host.Kept.closes hkept hcloses
  | noted => exact Host.Kept.congr hkept (fun _ => rfl) (fun _ _ _ => rfl) rfl rfl rfl
  | @worked w worker host hworker hdoes => exact (kept_braced hkept w).work hworker hdoes
  | opened => exact Host.Kept.congr hkept (fun _ => rfl) (fun _ _ _ => rfl) rfl rfl rfl

theorem kept_run {s : World} (hkept : s.Kept) (acts : List Act) : (s.run acts).Kept := by
  induction acts generalizing s with
  | nil => exact hkept
  | cons a acts ih => exact ih ((moves_step s a).kept hkept)

end World

end JanetEmbedding
