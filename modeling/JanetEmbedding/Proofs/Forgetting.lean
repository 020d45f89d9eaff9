import JanetEmbedding.Proofs.Effect
import Mathlib.Data.List.InsertIdx

/-!
# Forgetting a request

Two runs in which one request differs are compared by **forgetting** it in both. What is left of a
host is the same as if the request had never been there: the requests that came later have moved up
by one. The log is forgotten too, and so are the marks of those that stopped waiting, which only the
log shows, and what the system refuses to a capture, which is set anew before each step of a worker.

This module proves that whatever is done to a host with other requests can be done after forgetting
as well, and comes to the same.

## Conventions

* The **gap** is the number of the request that is forgotten. If there is none, only the log and the
  marks are forgotten.

## Main definitions

* `renumber`: the number of a request when the gap is closed.
* `Host.forget`: what is left of a host.
* `Host.Like`: the same is left of two hosts.

## Main results

* `Like.work?`: a step of a worker that does not take the request of the gap, and does not hold it.
* `Like.start`, `Like.share`, `Like.requestClose`: what is done with handles.
* `Like.submit`, `Like.giveUp`: what is done with the other requests.
* `Like.enqueue_new`, `Like.giveUp_self`, `Like.giveUp_of_ne`: what is done in the first host only.
-/

namespace JanetEmbedding

/-! ### Closing a gap -/

/-- The number of a request when the gap is closed. -/
def renumber : Option Nat → Nat → Nat
  | none, r => r
  | some k, r => if k < r then r - 1 else r

@[simp] theorem renumber_none (r : Nat) : renumber none r = r := rfl

/-- Only the request of the gap can be mistaken for another. -/
theorem renumber_inj {gap : Option Nat} {r v : Nat} (hr : gap ≠ some r) (hv : gap ≠ some v)
    (h : renumber gap r = renumber gap v) : r = v := by
  cases gap with
  | none => exact h
  | some k =>
      simp only [ne_eq, Option.some.injEq] at hr hv
      simp only [renumber] at h
      split at h <;> split at h <;> omega

/-- Every number is that of some request when the gap is closed. -/
theorem exists_renumber (gap : Option Nat) (v : Nat) : ∃ r, gap ≠ some r ∧ renumber gap r = v := by
  cases gap with
  | none => exact ⟨v, by simp, rfl⟩
  | some k =>
      rcases Nat.lt_or_ge v k with hlt | hge
      · exact ⟨v, by simp [Nat.ne_of_gt hlt], if_neg (Nat.lt_asymm hlt)⟩
      · exact ⟨v + 1, by simp; omega, if_pos (Nat.lt_succ_of_le hge)⟩

/-- A list without what stands at the gap. -/
def closeGap {α : Type} : Option Nat → List α → List α
  | none, xs => xs
  | some k, xs => xs.eraseIdx k

@[simp] theorem closeGap_none {α : Type} (xs : List α) : closeGap none xs = xs := rfl

theorem getElem?_closeGap {α : Type} {gap : Option Nat} {r : Nat} (h : gap ≠ some r) (xs : List α) :
    (closeGap gap xs)[renumber gap r]? = xs[r]? := by
  cases gap with
  | none => rfl
  | some k =>
      simp only [ne_eq, Option.some.injEq] at h
      simp only [closeGap, renumber, List.getElem?_eraseIdx]
      rcases Nat.lt_or_gt_of_ne h with hlt | hgt
      · rw [if_pos hlt, if_neg (by omega), Nat.sub_add_cancel (by omega)]
      · rw [if_neg (Nat.lt_asymm hgt), if_pos hgt]

/-- What a list is without the gap, told place by place. -/
theorem eq_closeGap {α : Type} {gap : Option Nat} {xs ys : List α}
    (h : ∀ r, gap ≠ some r → xs[renumber gap r]? = ys[r]?) : xs = closeGap gap ys := by
  refine List.ext_getElem? fun v => ?_
  obtain ⟨r, hr, rfl⟩ := exists_renumber gap v
  rw [h r hr, getElem?_closeGap hr]

/-- What stands at the gap may change. -/
theorem closeGap_modify_self {α : Type} (r : Nat) (xs : List α) (f : α → α) :
    closeGap (some r) (xs.modify r f) = closeGap (some r) xs :=
  List.eraseIdx_modify_of_eq ..

theorem map_closeGap {α β : Type} (gap : Option Nat) (f : α → β) (xs : List α) :
    (closeGap gap xs).map f = closeGap gap (xs.map f) := by
  cases gap with
  | none => rfl
  | some k => exact (List.eraseIdx_map ..).symm

/-- Whether the gap is somewhere in a list. -/
def GapIn {α : Type} (gap : Option Nat) (xs : List α) : Prop := ∀ k ∈ gap, k < xs.length

theorem GapIn.map {α β : Type} {gap : Option Nat} {xs : List α} (h : GapIn gap xs) (f : α → β) :
    GapIn gap (xs.map f) := fun k hk => by
  rw [List.length_map]
  exact h k hk

theorem closeGap_append {α : Type} {gap : Option Nat} {xs : List α} (h : GapIn gap xs)
    (ys : List α) : closeGap gap (xs ++ ys) = closeGap gap xs ++ ys := by
  cases gap with
  | none => rfl
  | some k => exact List.eraseIdx_append_of_lt_length (h k rfl) ys

/-- The gap may be what comes last. -/
theorem closeGap_concat {α : Type} (xs : List α) (x : α) :
    closeGap (some xs.length) (xs ++ [x]) = xs := by
  simp [closeGap, List.eraseIdx_append_of_length_le]

theorem length_closeGap {α : Type} {gap : Option Nat} {xs : List α} (h : GapIn gap xs) :
    (closeGap gap xs).length = renumber gap xs.length := by
  cases gap with
  | none => rfl
  | some k => simp only [closeGap, renumber, List.length_eraseIdx, if_pos (h k rfl)]

/-- Changing one place of a list, and then all, is the same as the other way round. -/
theorem map_modify {α β : Type} {f : α → β} {g : α → α} {g' : β → β} (h : ∀ x, f (g x) = g' (f x))
    (xs : List α) (i : Nat) : (xs.modify i g).map f = (xs.map f).modify i g' := by
  refine List.ext_getElem? fun j => ?_
  by_cases hj : i = j
  · subst hj
    simp [Function.comp_def, h]
  · simp [List.getElem?_modify_ne _ _ hj]

/-! ### What is left -/

/-- A request without the mark of a caller that stopped waiting. -/
def Request.unmarked (q : Request) : Request := { q with abandoned := false }

/-- An item when the gap is closed, unless it is the request of the gap. -/
def Item.forget? (gap : Option Nat) : Item → Option Item
  | request r => if gap = some r then none else some (request (renumber gap r))
  | stop => some stop

/-- What a worker is doing, when the gap is closed. -/
def Phase.renumber (gap : Option Nat) : Phase → Phase
  | waiting r pipes refusal => waiting (JanetEmbedding.renumber gap r) pipes refusal
  | evaluating r session p => evaluating (JanetEmbedding.renumber gap r) session p
  | p => p

/-- What is left of a worker. -/
def Worker.forget (gap : Option Nat) (w : Worker) : Worker :=
  { w with queue := w.queue.filterMap (Item.forget? gap), phase := w.phase.renumber gap }

theorem Item.forget?_of_ne {gap : Option Nat} {r : Nat} (h : gap ≠ some r) :
    Item.forget? gap (.request r) = some (.request (renumber gap r)) := if_neg h

theorem Item.forget?_self (r : Nat) : Item.forget? (some r) (.request r) = none := if_pos rfl

@[simp] theorem Item.forget?_none : Item.forget? none = some := by
  funext item
  cases item <;> rfl

@[simp] theorem Phase.renumber_none (p : Phase) : p.renumber none = p := by
  cases p <;> rfl

@[simp] theorem Worker.forget_none : Worker.forget none = id := by
  funext w
  simp [Worker.forget]

/-- The request that a worker takes next, if it is ready to take one. -/
def Worker.next? (w : Worker) : Option Nat :=
  match w.phase with
  | .serving => w.queue.head?.bind Item.request?
  | _ => none

/-- A worker that takes a request next finds it at the head of its queue. -/
theorem Worker.eq_of_next? {w : Worker} {r : Nat} (h : w.next? = some r) :
    ∃ rest, w.phase = .serving ∧ w.queue = .request r :: rest := by
  obtain ⟨path, queue, phase⟩ := w
  cases phase with
  | created | waiting | evaluating | stopped | failed => cases h
  | serving =>
      cases queue with
      | nil => cases h
      | cons item rest =>
          cases item with
          | stop => cases h
          | request v =>
              obtain rfl := Option.some.inj h
              exact ⟨rest, rfl, rfl⟩

namespace Host

theorem next?_eq (h : Host) (w : Nat) : h.next? w = h.workers[w]?.bind Worker.next? := by
  rw [next?]
  split
  next hworker => simp [hworker, Worker.next?]
  next hother =>
    cases hworker : h.workers[w]? with
    | none => rfl
    | some worker =>
        obtain ⟨path, queue, phase⟩ := worker
        cases phase with
        | created | waiting | evaluating | stopped | failed => rfl
        | serving =>
            cases queue with
            | nil => rfl
            | cons item rest =>
                cases item with
                | stop => rfl
                | request r => exact absurd hworker (hother path r rest)

/-- What is **left** of a host when a request is forgotten. -/
def forget (gap : Option Nat) (h : Host) : Host :=
  { h with
    workers := h.workers.map (Worker.forget gap)
    requests := closeGap gap (h.requests.map Request.unmarked)
    refusal := {}
    log := [] }

/-- Two hosts are **alike** up to a gap when the same is left of the first, with the request of the
gap forgotten, and of the second. -/
def Like (gap : Option Nat) (h h' : Host) : Prop := h.forget gap = h'.forget none

theorem Like.refl (h : Host) : Like none h h := rfl

namespace Like

variable {gap : Option Nat} {h h' : Host} {w r id : Nat}

/-! ### What two hosts share -/

theorem system (hlike : Like gap h h') : h'.system = h.system := (congrArg Host.system hlike).symm

theorem behaviour (hlike : Like gap h h') : h'.behaviour = h.behaviour :=
  (congrArg Host.behaviour hlike).symm

theorem trace (hlike : Like gap h h') : h'.trace = h.trace := (congrArg Host.trace hlike).symm

theorem calls (hlike : Like gap h h') : h'.calls = h.calls := by
  rw [Host.calls, hlike.trace]
  rfl

theorem stdio (hlike : Like gap h h') : h'.stdio = h.stdio := (congrArg Host.stdio hlike).symm

theorem holder (hlike : Like gap h h') : h'.holder = h.holder := (congrArg Host.holder hlike).symm

theorem gates (hlike : Like gap h h') : h'.gates = h.gates := (congrArg Host.gates hlike).symm

theorem handles (hlike : Like gap h h') : h'.handles = h.handles := (congrArg Host.handles hlike).symm

theorem shared (hlike : Like gap h h') : h'.shared = h.shared := (congrArg Host.shared hlike).symm

theorem workers (hlike : Like gap h h') : h'.workers = h.workers.map (Worker.forget gap) := by
  have hworkers := congrArg Host.workers hlike
  simpa [forget] using hworkers.symm

theorem worker (hlike : Like gap h h') : h'.workers[w]? = h.workers[w]?.map (Worker.forget gap) := by
  rw [hlike.workers, List.getElem?_map]

theorem requests (hlike : Like gap h h') :
    h'.requests.map Request.unmarked = closeGap gap (h.requests.map Request.unmarked) :=
  (congrArg Host.requests hlike).symm

theorem request (hlike : Like gap h h') (hr : gap ≠ some r) :
    h'.requests[renumber gap r]?.map Request.unmarked = h.requests[r]?.map Request.unmarked := by
  rw [← List.getElem?_map, ← List.getElem?_map, hlike.requests, getElem?_closeGap hr]

/-- Another request is there in both hosts or in neither, and differs in the mark only. -/
theorem request_cases (hlike : Like gap h h') (hr : gap ≠ some r) :
    h.requests[r]? = none ∧ h'.requests[renumber gap r]? = none ∨
      ∃ q q', h.requests[r]? = some q ∧ h'.requests[renumber gap r]? = some q' ∧
        q'.unmarked = q.unmarked := by
  have hsame := hlike.request hr
  cases hq : h.requests[r]? with
  | none =>
      rw [hq] at hsame
      exact .inl ⟨rfl, Option.map_eq_none_iff.mp hsame⟩
  | some q =>
      rw [hq] at hsame
      obtain ⟨q', hq', hsame⟩ := Option.map_eq_some_iff.mp hsame
      exact .inr ⟨q, q', rfl, hq', hsame⟩

/-- The results of the others are the same. -/
theorem result? (hlike : Like gap h h') (hr : gap ≠ some r) :
    h'.result? (renumber gap r) = h.result? r := by
  have hresult : ∀ (h : Host) (v : Nat),
      h.result? v = (h.requests[v]?.map Request.unmarked).bind (·.progress.result?) := fun h v => by
    rw [Host.result?]
    cases h.requests[v]? <;> rfl
  rw [hresult, hresult, hlike.request hr]

/-- What the second host is, given the first. -/
theorem exists_eq (hlike : Like gap h h') : ∃ requests refusal log,
    h' = { h with workers := h.workers.map (Worker.forget gap), requests, refusal, log } := by
  refine ⟨h'.requests, h'.refusal, h'.log, ?_⟩
  obtain ⟨system, behaviour, trace, stdio, refusal, holder, gates, workers, requests, handles, shared,
    log⟩ := h'
  have hworkers := hlike.workers
  obtain ⟨rfl, rfl, rfl, rfl, rfl, rfl, rfl, rfl⟩ :=
    And.intro hlike.system <| And.intro hlike.behaviour <| And.intro hlike.trace <|
      And.intro hlike.stdio <| And.intro hlike.holder <| And.intro hlike.gates <|
        And.intro hlike.handles hlike.shared
  simp only at hworkers
  rw [hworkers]

/-! ### Changes -/

/-- The log is not looked at. -/
theorem log (hlike : Like gap h h') (log log' : List Log.Record) :
    Like gap { h with log } { h' with log := log' } := hlike

theorem note (hlike : Like gap h h') {level level' : Log.Level} {origin origin' : Log.Origin}
    {message message' : Text} :
    Like gap (h.note level origin message) (h'.note level' origin' message') := hlike

/-- A change of the parts that are shared. -/
theorem change (hlike : Like gap h h') {f : Host → Host}
    (hf : ∀ gap h, (f h).forget gap = f (h.forget gap)) : Like gap (f h) (f h') := by
  rw [Like, hf, hf]
  exact congrArg f hlike

theorem noteCall (hlike : Like gap h h') (call : Interpreter.Call) :
    Like gap (h.noteCall w call) (h'.noteCall w call) :=
  hlike.change (f := (·.noteCall w call)) fun _ _ => rfl

theorem setHandleState (hlike : Like gap h h') (state : HandleState) :
    Like gap (h.setHandleState id state) (h'.setHandleState id state) :=
  hlike.change (f := (·.setHandleState id state)) fun _ _ => rfl

theorem updateWorker (hlike : Like gap h h') {f g : Worker → Worker}
    (hfg : ∀ x, (f x).forget gap = g (x.forget gap)) :
    Like gap (h.updateWorker w f) (h'.updateWorker w g) := by
  have hforget : ∀ {gap : Option Nat} {f : Worker → Worker} (h : Host),
      (∀ x, (f x).forget gap = g (x.forget gap)) →
        (h.updateWorker w f).forget gap = (h.forget gap).updateWorker w g := fun h hfg => by
    simp only [forget, Host.updateWorker, map_modify hfg]
  rw [Like, hforget h hfg, hforget h' (by simp), hlike]

theorem setPhase (hlike : Like gap h h') (p : Phase) :
    Like gap (h.setPhase w p) (h'.setPhase w (p.renumber gap)) :=
  hlike.updateWorker fun _ => rfl

theorem enqueue_stop (hlike : Like gap h h') : Like gap (h.enqueue w .stop) (h'.enqueue w .stop) :=
  hlike.updateWorker fun x => by simp [Worker.forget, List.filterMap_append, Item.forget?]

theorem enqueue_request (hlike : Like gap h h') (hr : gap ≠ some r) :
    Like gap (h.enqueue w (.request r)) (h'.enqueue w (.request (renumber gap r))) :=
  hlike.updateWorker fun x => by
    simp [Worker.forget, List.filterMap_append, Item.forget?_of_ne hr]

/-- A change of the requests. -/
theorem changeRequests (hlike : Like gap h h') {requests requests' : List Request}
    (hrequests : requests'.map Request.unmarked = closeGap gap (requests.map Request.unmarked)) :
    Like gap { h with requests } { h' with requests := requests' } := by
  have hleft : ({ h with requests } : Host).forget gap =
      { h.forget gap with requests := closeGap gap (requests.map Request.unmarked) } := rfl
  rw [Like, hleft, hlike, ← hrequests]
  rfl

/-- A change of the workers. -/
theorem changeWorkers (hlike : Like gap h h') {workers workers' : List Worker}
    (hworkers : workers' = workers.map (Worker.forget gap)) :
    Like gap { h with workers } { h' with workers := workers' } := by
  have hleft : ({ h with workers } : Host).forget gap =
      { h.forget gap with workers := workers.map (Worker.forget gap) } := rfl
  have hright : ({ h' with workers := workers' } : Host).forget none =
      { h'.forget none with workers := workers' } := by simp [forget]
  rw [Like, hleft, hright, hlike, hworkers]

theorem updateRequest (hlike : Like gap h h') (hr : gap ≠ some r) {f f' : Request → Request}
    (hf : ∀ q q' : Request, q.unmarked = q'.unmarked → (f q).unmarked = (f' q').unmarked) :
    Like gap (h.updateRequest r f) (h'.updateRequest (renumber gap r) f') := by
  refine hlike.changeRequests (eq_closeGap fun v hv => ?_)
  rw [List.getElem?_map, List.getElem?_map]
  by_cases hne : r = v
  · subst hne
    rw [List.getElem?_modify_eq, List.getElem?_modify_eq]
    rcases hlike.request_cases hr with ⟨hq, hq'⟩ | ⟨q, q', hq, hq', hsame⟩ <;> rw [hq, hq']
    · rfl
    · exact congrArg some (hf q q' hsame.symm).symm
  · have hne' : renumber gap r ≠ renumber gap v := fun heq => hne (renumber_inj hr hv heq)
    rw [List.getElem?_modify_ne _ _ hne, List.getElem?_modify_ne _ _ hne']
    exact hlike.request hv

/-- The request of the gap may change. -/
theorem updateRequest_self (hlike : Like (some r) h h') (f : Request → Request) :
    Like (some r) (h.updateRequest r f) h' := by
  rw [Like, ← hlike]
  simp only [forget, Host.updateRequest, ← map_closeGap, closeGap_modify_self]

/-- Finishing a request. -/
theorem deliver (hlike : Like gap h h') (hr : gap ≠ some r) {request request' : Request}
    (x : Result) :
    Like gap (h.deliver w r request x) (h'.deliver w (renumber gap r) request' x) := by
  have hdone : Like gap ((h.updateRequest r (·.finish x)).setPhase w .serving)
      ((h'.updateRequest (renumber gap r) (·.finish x)).setPhase w .serving) := by
    have hfinish : ∀ q q' : Request, q.unmarked = q'.unmarked →
        (q.finish x).unmarked = (q'.finish x).unmarked := fun _ _ hq =>
      congrArg (Request.finish · x) hq
    exact (hlike.updateRequest hr hfinish).setPhase .serving
  rw [Host.deliver, Host.deliver]
  split <;> split <;> exact hdone

theorem unexpected (hlike : Like gap h h') (hr : gap ≠ some r) {request request' : Request}
    (f : Fault) :
    Like gap (h.unexpected w r request f) (h'.unexpected w (renumber gap r) request' f) :=
  Like.deliver hlike.note hr (.failed f)

/-! ### Workers -/

section Workers

variable {q q' : Request} {rest : List Item}

/-- Picking a request up. -/
theorem pickUp (hlike : Like gap h h') (hrefusal : h'.refusal = h.refusal) (hr : gap ≠ some r)
    (hq : q'.unmarked = q.unmarked) :
    Like gap (h.pickUp w r q) (h'.pickUp w (renumber gap r) q') := by
  obtain ⟨kind, source, progress, mark⟩ := q
  obtain ⟨kind', source', progress', mark'⟩ := q'
  obtain ⟨rfl, rfl, rfl⟩ : kind' = kind ∧ source' = source ∧ progress' = progress := by
    simpa [Request.unmarked] using hq
  cases progress' with
  | withdrawn | running | finished => exact hlike.note
  | queued =>
      have hrun : ∀ q q' : Request, q.unmarked = q'.unmarked →
          ({ q with progress := .running } : Request).unmarked =
            ({ q' with progress := .running } : Request).unmarked := fun _ _ hq =>
        congrArg (fun q : Request => { q with progress := .running }) hq
      have hopened : ∀ stdio : Stdio, Like gap
          { h.updateRequest r ({ · with progress := .running }) with refusal := {}, stdio }
          { h'.updateRequest (renumber gap r) ({ · with progress := .running }) with
            refusal := {}, stdio } := fun stdio =>
        (hlike.updateRequest hr hrun).change (f := fun h => { h with refusal := {}, stdio })
          fun _ _ => rfl
      simp only [Host.pickUp, Host.updateRequest, hlike.stdio, hrefusal] at hopened ⊢
      rcases Capture.openPipes { h.stdio.descriptors with refusal := h.refusal } with ⟨_ | pipes, d⟩
      · exact (hopened _).deliver hr _
      · exact (hopened _).setPhase _

/-- A change of the process. -/
theorem changeStdio (hlike : Like gap h h') (stdio : Stdio) :
    Like gap { h with stdio } { h' with stdio } :=
  hlike.change (f := fun h => { h with stdio }) fun _ _ => rfl

/-- Redirecting the descriptors for a request, and evaluating it. -/
theorem evaluate (hlike : Like gap h h') (hr : gap ≠ some r) (hq : q'.unmarked = q.unmarked)
    {path : Option Text} {pipes : Capture.Pipes} {refusal : Refusal} :
    Like gap (h.evaluate w r path q pipes refusal)
      (h'.evaluate w (renumber gap r) path q' pipes refusal) := by
  have hsource : q'.source = q.source := congrArg (fun x => x.source) hq
  obtain ⟨requests, refusal', log, rfl⟩ := hlike.exists_eq
  simp only [Host.evaluate, Host.calls, hsource]
  rcases Capture.redirect {} pipes
    { h.stdio with descriptors := { h.stdio.descriptors with refusal } } with ⟨f | session, stdio⟩
  · dsimp only
    exact (hlike.changeStdio (stdio.refusing {})).deliver hr (uncaptured f)
  · dsimp only
    cases Interpreter.Call.encoded q.source path with
    | error f =>
        have hfinished := hlike.changeStdio (Capture.finish session (stdio.refusing {})).2
        exact hfinished.unexpected hr ⟨.encoding, f.message⟩
    | ok text =>
        obtain ⟨source, name⟩ := text
        dsimp only
        generalize h.behaviour.program source _ = p
        have hheld := (hlike.noteCall (w := w) (.evaluate source name)).change (f := fun h => { h with
          holder := some w, stdio := (stdio.refusing {}).applyAll p.writes }) fun _ _ => rfl
        exact hheld.setPhase (.evaluating r session p)

/-- Noting calls of the interpreter. -/
theorem noteCalls (hlike : Like gap h h') (calls : List Interpreter.Call) :
    Like gap (h.noteCalls w calls) (h'.noteCalls w calls) :=
  hlike.change (f := (·.noteCalls w calls)) fun _ _ => rfl

/-- Ending an evaluation. -/
theorem conclude (hlike : Like gap h h') (hr : gap ≠ some r) (hq : q'.unmarked = q.unmarked)
    {session : Capture.Session} {p : Interpreter.Program} :
    Like gap (h.conclude w r q session p) (h'.conclude w (renumber gap r) q' session p) := by
  have hkind : q'.kind = q.kind := congrArg (fun x => x.kind) hq
  simp only [Host.conclude, hlike.stdio, hkind]
  rcases Capture.finish session (h.stdio.applyAll p.writesAfter) with ⟨captured, stdio⟩
  have hended : Like gap { h with stdio, holder := none } { h' with stdio, holder := none } :=
    hlike.change (f := fun h => { h with stdio, holder := none }) fun _ _ => rfl
  cases p.raised with
  | some text => exact hended.unexpected hr ⟨.runtime, text⟩
  | none =>
      have hlooked := hended.noteCalls (w := w) (Interpreter.Call.rooted [.inspect])
      dsimp only
      cases Evaluation.outcome q.kind p.signal p.value captured with
      | ok x => exact hlooked.deliver hr x
      | error f => exact hlooked.unexpected hr ⟨Evaluation.faultKind f, f.message⟩

/-- Refusing what is left in a queue. -/
theorem failPending (hlike : Like gap h h') (items : List Item) :
    Like gap (h.failPending items) (h'.failPending (items.filterMap (Item.forget? gap))) := by
  induction items generalizing h h' with
  | nil => exact hlike
  | cons item items ih =>
      cases item with
      | stop => exact ih hlike
      | request r =>
          by_cases hr : gap = some r
          · subst hr
            rw [List.filterMap_cons_none (Item.forget?_self r)]
            exact ih (hlike.updateRequest_self refuseQueued)
          · rw [List.filterMap_cons_some (Item.forget?_of_ne hr)]
            refine ih (hlike.updateRequest hr fun q q' hq => ?_)
            have hprogress : q.progress = q'.progress := congrArg (fun x => x.progress) hq
            rw [refuseQueued, refuseQueued, hprogress]
            split
            · exact congrArg (Request.finish · closedBefore) hq
            · exact hq

/-- Leaving the loop. -/
theorem stop (hlike : Like gap h h') (rest : List Item) :
    Like gap (h.stop w rest) (h'.stop w (rest.filterMap (Item.forget? gap))) := by
  have hleft := (hlike.failPending rest).updateWorker (w := w)
    (f := ({ · with queue := [], phase := .stopped })) (g := ({ · with queue := [], phase := .stopped }))
    fun _ => rfl
  exact (hleft.noteCall .deinit).note

/-- Taking an item from a queue, unless it is the request of the gap. -/
theorem take (hlike : Like gap h h') (hrefusal : h'.refusal = h.refusal) {item item' : Item}
    (hitem : item.forget? gap = some item') :
    Like gap (h.take w rest item) (h'.take w (rest.filterMap (Item.forget? gap)) item') := by
  cases item with
  | stop =>
      obtain rfl := Option.some.inj hitem
      exact hlike.stop rest
  | request r =>
      have hr : gap ≠ some r := fun heq => by simp [Item.forget?, heq] at hitem
      obtain rfl := Option.some.inj ((Item.forget?_of_ne hr).symm.trans hitem)
      have htaken : Like gap (h.updateWorker w ({ · with queue := rest }))
          (h'.updateWorker w ({ · with queue := rest.filterMap (Item.forget? gap) })) :=
        hlike.updateWorker fun _ => rfl
      rw [Host.take, Host.take]
      rcases htaken.request_cases hr with ⟨hq, hq'⟩ | ⟨q, q', hq, hq', hsame⟩ <;> rw [hq, hq']
      · exact htaken
      · exact htaken.pickUp hrefusal hr hsame

/-- Passing the request of the gap over. -/
theorem pass (hlike : Like (some r) h h') {worker : Worker} (hworker : h.workers[w]? = some worker)
    (hqueue : worker.queue = .request r :: rest) :
    Like (some r) { h with workers := h.workers.modify w ({ · with queue := rest }) } h' := by
  have hsame : (h.workers.modify w ({ · with queue := rest })).map (Worker.forget (some r)) =
      h.workers.map (Worker.forget (some r)) := by
    refine List.ext_getElem? fun v => ?_
    by_cases hne : w = v
    · subst hne
      simp [hworker, Worker.forget, hqueue, Item.forget?_self]
    · simp [List.getElem?_modify_ne _ _ hne]
  rw [Like, ← hlike]
  simp only [forget, hsame]

/-- What a worker takes next, unless it is the request of the gap. -/
theorem next? (hlike : Like gap h h') (hnext : ∀ r ∈ gap, h.next? w ≠ some r) :
    h'.next? w = (h.next? w).map (renumber gap) := by
  simp only [next?_eq, hlike.worker] at hnext ⊢
  cases hworker : h.workers[w]? with
  | none => rfl
  | some worker =>
      obtain ⟨path, queue, phase⟩ := worker
      rw [hworker] at hnext
      cases phase with
      | created | waiting | evaluating | stopped | failed => rfl
      | serving =>
          cases queue with
          | nil => rfl
          | cons item rest =>
              cases item with
              | stop => rfl
              | request r =>
                  have hr : gap ≠ some r := fun heq => hnext r heq rfl
                  simp [Worker.forget, Phase.renumber, Worker.next?, Item.forget?_of_ne hr]

/-- **A step of a worker** that does not take the request of the gap, and does not hold it. -/
theorem work? (hlike : Like gap h h') (hrefusal : h'.refusal = h.refusal)
    (hnext : ∀ r ∈ gap, h.next? w ≠ some r) (hheld : ∀ r ∈ gap, h.handled? w ≠ some r) :
    Option.Rel (Like gap) (h.work? w) (h'.work? w) := by
  simp only [Host.work?, hlike.worker, Option.bind_eq_bind]
  cases hworker : h.workers[w]? with
  | none => exact .none
  | some worker =>
      obtain ⟨path, queue, phase⟩ := worker
      simp only [Option.map_some, Option.bind_some, Worker.forget]
      have hother : ∀ {r}, phase.request? = some r → gap ≠ some r := fun {r} hr heq =>
        hheld r heq (by simp [handled?, hworker, hr])
      cases phase with
      | created | stopped | failed => exact .none
      | serving =>
          cases queue with
          | nil => exact .none
          | cons item rest =>
              obtain ⟨item', hitem⟩ : ∃ item', item.forget? gap = some item' := by
                cases item with
                | stop => exact ⟨.stop, rfl⟩
                | request r =>
                    refine ⟨_, Item.forget?_of_ne fun heq => hnext r heq ?_⟩
                    simp [Host.next?_eq, hworker, Worker.next?]
              rw [List.filterMap_cons_some hitem]
              exact .some (hlike.take hrefusal hitem)
      | waiting r pipes refusal =>
          have hr := hother (r := r) rfl
          simp only [Phase.renumber, hlike.holder]
          rcases hlike.request_cases hr with ⟨hq, hq'⟩ | ⟨q, q', hq, hq', hsame⟩ <;> rw [hq, hq']
          · exact .none
          · rw [Option.bind_some, Option.bind_some]
            split
            · exact .some (hlike.evaluate hr hsame)
            · exact .none
      | evaluating r session p =>
          have hr := hother (r := r) rfl
          have hopen : h'.isOpen p.gate = h.isOpen p.gate := by rw [isOpen, isOpen, hlike.gates]
          simp only [Phase.renumber, hopen]
          rcases hlike.request_cases hr with ⟨hq, hq'⟩ | ⟨q, q', hq, hq', hsame⟩ <;> rw [hq, hq']
          · exact .none
          · rw [Option.bind_some, Option.bind_some]
            split
            · exact .some (hlike.conclude hr hsame)
            · exact .none

end Workers

/-! ### Handles -/

/-- Handles that are made. -/
theorem addHandle (hlike : Like gap h h') (config : Config) (source : LibrarySource) :
    Like gap (h.addHandle config source).2 (h'.addHandle config source).2 :=
  hlike.change (f := fun h => (h.addHandle config source).2) fun _ _ => rfl

/-- Getting hold of the library. -/
theorem acquireLibrary (hlike : Like gap h h') (handle : Handle) :
    (h'.acquireLibrary handle).1 = (h.acquireLibrary handle).1 ∧
      Like gap (h.acquireLibrary handle).2 (h'.acquireLibrary handle).2 := by
  obtain ⟨requests, refusal', log, rfl⟩ := hlike.exists_eq
  simp only [Host.acquireLibrary]
  cases handle.source with
  | given => exact ⟨rfl, hlike⟩
  | system =>
      cases Interpreter.openFor h.system handle.config with
      | error f => exact ⟨rfl, hlike⟩
      | ok b =>
          simp only [Host.note]
          cases Interpreter.checkExports h.system b with
          | error f => exact ⟨rfl, hlike⟩
          | ok => exact ⟨rfl, hlike⟩

/-- A worker that is made. -/
theorem addWorker (hlike : Like gap h h') (path : Option Text) :
    (h'.addWorker path).1 = (h.addWorker path).1 ∧
      Like gap (h.addWorker path).2 (h'.addWorker path).2 := by
  refine ⟨?_, hlike.changeWorkers ?_⟩
  · simp [Host.addWorker, hlike.workers]
  · simp [hlike.workers, Worker.forget, Phase.renumber]

/-- The start of a worker. -/
theorem startWorker (hlike : Like gap h h') :
    (h'.startWorker w).1 = (h.startWorker w).1 ∧
      Like gap (h.startWorker w).2 (h'.startWorker w).2 := by
  have hinit := hlike.noteCall (w := w) .init
  simp only [Host.startWorker, hlike.behaviour, hlike.calls]
  cases h.behaviour.start (h.calls.countP (· = .init)) with
  | ok => exact ⟨rfl, ((hinit.noteCall .environment).setPhase .serving).note⟩
  | refused => exact ⟨rfl, hinit.setPhase (.failed _)⟩
  | noEnvironment =>
      exact ⟨rfl, ((hinit.noteCall .environment).noteCall .deinit).setPhase (.failed _)⟩
  | raised text => exact ⟨rfl, hinit.note.setPhase (.failed _)⟩

/-- The start of a handle that is fresh. -/
theorem startFresh (hlike : Like gap h h') (handle : Handle) :
    (h'.startFresh id handle).1 = (h.startFresh id handle).1 ∧
      Like gap (h.startFresh id handle).2 (h'.startFresh id handle).2 := by
  obtain ⟨hfault, hlike⟩ := hlike.acquireLibrary handle
  rw [Host.startFresh, Host.startFresh]
  rcases hleft : h.acquireLibrary handle with ⟨f, g⟩
  rcases hright : h'.acquireLibrary handle with ⟨f', g'⟩
  rw [hleft, hright] at hfault hlike
  obtain rfl : f' = f := hfault
  cases f' with
  | some f => exact ⟨rfl, hlike⟩
  | none =>
      obtain ⟨hw, hlike⟩ := hlike.addWorker handle.config.sourcePath
      dsimp only at hlike ⊢
      rw [hw]
      generalize (g.addWorker handle.config.sourcePath).1 = w
      obtain ⟨hfault, hlike⟩ := hlike.startWorker (w := w)
      rcases hleft : (g.addWorker handle.config.sourcePath).2.startWorker w with ⟨f, k⟩
      rcases hright : (g'.addWorker handle.config.sourcePath).2.startWorker w with ⟨f', k'⟩
      rw [hleft, hright] at hfault hlike
      obtain rfl : f' = f := hfault
      cases f' with
      | some f => exact ⟨rfl, hlike⟩
      | none => exact ⟨rfl, hlike.setHandleState _⟩

/-- **The start of a handle.** -/
theorem start (hlike : Like gap h h') (id : Nat) :
    (h'.start id).1 = (h.start id).1 ∧ Like gap (h.start id).2 (h'.start id).2 := by
  rw [Host.start, Host.start, hlike.handles]
  split
  next => exact ⟨rfl, hlike⟩
  next handle hhandle =>
    split
    next => exact ⟨rfl, hlike⟩
    next => exact ⟨rfl, hlike⟩
    next =>
      exact hlike.startFresh handle

/-- Asking for the shared handle. -/
theorem share (hlike : Like gap h h') (config : Except Config.Failure Config)
    (source : LibrarySource) :
    Like gap (h.share config source).2 (h'.share config source).2 := by
  rw [Host.share, Host.share, hlike.shared]
  split
  · exact hlike
  · cases config with
    | error f => exact hlike
    | ok c =>
        have hnew : (h'.addHandle c source).1 = (h.addHandle c source).1 :=
          congrArg List.length hlike.handles
        obtain ⟨hfault, hlike⟩ := (hlike.addHandle c source).start (h.addHandle c source).1
        simp only [openRunning, openFresh, hnew]
        generalize (h.addHandle c source).1 = id at hfault hlike ⊢
        rcases hleft : (h.addHandle c source).2.start id with ⟨f, g⟩
        rcases hright : (h'.addHandle c source).2.start id with ⟨f', g'⟩
        rw [hleft, hright] at hfault hlike
        obtain rfl : f' = f := hfault
        cases f' with
        | some f => exact hlike
        | none => exact hlike.change (f := fun h => { h with shared := some id }) fun _ _ => rfl

/-- Asking a handle to close. -/
theorem requestClose (hlike : Like gap h h') :
    Like gap (h.requestClose id).2 (h'.requestClose id).2 := by
  have hmarked : ∀ former, Like gap (h.markClosed id former) (h'.markClosed id former) := fun former =>
    hlike.change (f := (·.markClosed id former)) fun gap h => by
      simp only [markClosed, apply_ite (forget gap)]
      rfl
  rw [Host.requestClose, Host.requestClose, hlike.handles]
  split
  next => exact hlike
  next handle hhandle =>
    split
    next w hstate => exact (hmarked (some w)).enqueue_stop
    next => exact hmarked none
    next => exact hlike

/-! ### Requests -/

/-- A request that comes. -/
theorem submit (hlike : Like gap h h') (hgap : GapIn gap h.requests) (id : Nat) (kind : RequestKind)
    (source : Text) :
    (∃ x, h.submit id kind source = (.answered x, h) ∧ h'.submit id kind source = (.answered x, h')) ∨
    ∃ g g', h.submit id kind source = (.accepted h.requests.length, g) ∧
      h'.submit id kind source = (.accepted (renumber gap h.requests.length), g') ∧ Like gap g g' := by
  have hnew : gap ≠ some h.requests.length := fun heq => Nat.lt_irrefl _ (hgap _ heq)
  have hlength : h'.requests.length = renumber gap h.requests.length := by
    have hlengths := congrArg List.length hlike.requests
    rw [List.length_map, length_closeGap (hgap.map _), List.length_map] at hlengths
    exact hlengths
  have hworker : h'.handles[id]?.bind (·.state.worker?) = h.handles[id]?.bind (·.state.worker?) := by
    rw [hlike.handles]
  rw [Host.submit, Host.submit, hworker]
  simp only [hlength]
  split
  · exact .inl ⟨_, rfl, rfl⟩
  · refine .inr ⟨_, _, rfl, rfl, ?_⟩
    refine Like.enqueue_request (hlike.changeRequests ?_) hnew
    rw [List.map_append, List.map_append, hlike.requests, closeGap_append (hgap.map _)]

/-- A request that comes in the first host only is a gap, if no worker knows of its number yet. -/
theorem enqueue_new (hlike : Like none h h')
    (hworkers : ∀ x ∈ h.workers, x.forget (some h.requests.length) = x) (kind : RequestKind)
    (source : Text) :
    Like (some h.requests.length)
      (({ h with requests := h.requests ++ [{ kind, source }] } : Host).enqueue w
        (.request h.requests.length)) h' := by
  have hqueue : ∀ x : Worker,
      ({ x with queue := x.queue ++ [.request h.requests.length] } : Worker).forget
        (some h.requests.length) = id (x.forget (some h.requests.length)) := fun x => by
    simp [Worker.forget, List.filterMap_append, Item.forget?_self]
  have hsame : (h.workers.modify w fun x =>
      { x with queue := x.queue ++ [.request h.requests.length] }).map
        (Worker.forget (some h.requests.length)) = h.workers := by
    rw [map_modify hqueue, List.modify_id]
    exact (List.map_congr_left (g := id) hworkers).trans (List.map_id _)
  have hrequests : closeGap (some h.requests.length)
      ((h.requests ++ [Request.mk kind source .queued false]).map Request.unmarked) =
        h.requests.map Request.unmarked := by
    have hconcat := closeGap_concat (h.requests.map Request.unmarked) ⟨kind, source, .queued, false⟩
    rw [List.length_map] at hconcat
    rw [List.map_append]
    exact hconcat
  refine Eq.trans ?_ hlike
  simp only [forget, Host.enqueue, Host.updateWorker, hsame, hrequests, Worker.forget_none, List.map_id,
    closeGap_none]

/-- A caller that stops waiting for another request. -/
theorem giveUp (hlike : Like gap h h') (hr : gap ≠ some r) :
    (h'.giveUp (renumber gap r)).1 = (h.giveUp r).1 ∧
      Like gap (h.giveUp r).2 (h'.giveUp (renumber gap r)).2 := by
  rw [Host.giveUp, Host.giveUp]
  rcases hlike.request_cases hr with ⟨hq, hq'⟩ | ⟨q, q', hq, hq', hsame⟩ <;> rw [hq, hq']
  · exact ⟨rfl, hlike⟩
  · obtain ⟨kind, source, progress, mark⟩ := q
    obtain ⟨kind', source', progress', mark'⟩ := q'
    obtain ⟨rfl, rfl, rfl⟩ : kind' = kind ∧ source' = source ∧ progress' = progress := by
      simpa [Request.unmarked] using hsame
    refine ⟨?_, hlike.updateRequest hr fun _ _ _ => ?_⟩ <;> cases progress' <;> rfl

/-- The caller of the request of the gap may stop waiting. -/
theorem giveUp_self (hlike : Like (some r) h h') : Like (some r) (h.giveUp r).2 h' := by
  rw [Host.giveUp]
  split
  · exact hlike
  · exact hlike.updateRequest_self _

/-- A caller may stop waiting for a request that is no longer queued. -/
theorem giveUp_of_ne (hlike : Like none h h') (hr : h.progress? r ≠ some .queued) :
    Like none (h.giveUp r).2 h' := by
  rw [Host.giveUp]
  split
  next => exact hlike
  next q hq =>
    have hmarked : q.giveUp.2.unmarked = q.unmarked := by
      obtain ⟨kind, source, progress, mark⟩ := q
      cases progress with
      | queued => exact absurd (by simp [progress?, hq]) hr
      | withdrawn | running | finished => rfl
    have hsame : Like none { h with requests := h.requests.modify r fun _ => q.giveUp.2 }
        { h' with requests := h'.requests } := by
      refine hlike.changeRequests ?_
      rw [hlike.requests]
      refine List.ext_getElem? fun v => ?_
      by_cases hne : r = v
      · subst hne
        simp [hq, hmarked]
      · simp [List.getElem?_modify_ne _ _ hne]
    exact hsame

end Like

end Host

end JanetEmbedding
