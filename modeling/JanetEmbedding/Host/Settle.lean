import JanetEmbedding.Host.Worker

/-!
# Settling

Between two calls of its users a host settles: its workers do what they can do, until each of them
either has nothing to do, or waits for a gate or for the descriptors.

Every step brings a worker nearer to the end of its queue, so the number of steps is bounded.

## Main definitions

* `Worker.remaining`: a bound on the steps of a worker.
* `Host.settle`: as many steps as can be done.

## Main statements

* `Host.workers_of_work?`: a step changes one worker, and leaves it less to do.
* `Host.work?_settle`: a host that has settled has no step left.
-/

namespace JanetEmbedding

/-- A bound on the steps that a worker can still do. -/
def Worker.remaining (w : Worker) : Nat :=
  3 * w.queue.length + match w.phase with
    | .waiting _ _ _ => 2
    | .evaluating _ _ _ => 1
    | _ => 0

namespace Host

/-- A bound on the steps that the workers can still do. -/
def remaining (h : Host) : Nat := h.workers.foldr (fun w n => w.remaining + n) 0

/-- A step of the first worker that can do one. -/
def workAny? (h : Host) : Option Host := (List.range h.workers.length).findSome? h.work?

/-- At most a number of steps. -/
def settleWithin : Nat → Host → Host
  | 0, h => h
  | n + 1, h => match h.workAny? with
    | some h' => settleWithin n h'
    | none => h

/-- As many steps as can be done. -/
def settle (h : Host) : Host := settleWithin h.remaining h

/-- Opens a gate for good. -/
def openGate (h : Host) (gate : String) : Host := { h with gates := gate :: h.gates }

/-! ### What a step does to the workers -/

@[simp] theorem workers_noteCall (h : Host) (w : Nat) (c : Interpreter.Call) :
    (h.noteCall w c).workers = h.workers := rfl

@[simp] theorem workers_noteCalls (h : Host) (w : Nat) (cs : List Interpreter.Call) :
    (h.noteCalls w cs).workers = h.workers := rfl

@[simp] theorem workers_note (h : Host) (l : Log.Level) (o : Log.Origin) (m : Text) :
    (h.note l o m).workers = h.workers := rfl

@[simp] theorem workers_updateRequest (h : Host) (r : Nat) (f : Request → Request) :
    (h.updateRequest r f).workers = h.workers := rfl

@[simp] theorem workers_updateWorker (h : Host) (w : Nat) (f : Worker → Worker) :
    (h.updateWorker w f).workers = h.workers.modify w f := rfl

@[simp] theorem workers_setPhase (h : Host) (w : Nat) (p : Phase) :
    (h.setPhase w p).workers = h.workers.modify w ({ · with phase := p }) := rfl

@[simp] theorem workers_failPending (h : Host) (items : List Item) :
    (h.failPending items).workers = h.workers := by
  induction items generalizing h with
  | nil => rfl
  | cons item items ih => cases item <;> simp [failPending, ih]

@[simp] theorem workers_deliver (h : Host) (w r : Nat) (request : Request) (result : Result) :
    (h.deliver w r request result).workers =
      h.workers.modify w ({ · with phase := .serving }) := by
  unfold deliver
  split <;> simp

@[simp] theorem workers_unexpected (h : Host) (w r : Nat) (request : Request) (f : Fault) :
    (h.unexpected w r request f).workers = h.workers.modify w ({ · with phase := .serving }) := by
  simp [unexpected]

@[simp] theorem workers_stop (h : Host) (w : Nat) (rest : List Item) :
    (h.stop w rest).workers = h.workers.modify w ({ · with queue := [], phase := .stopped }) := by
  simp [stop]

theorem workers_conclude (h : Host) (w r : Nat) (request : Request) (session : Capture.Session)
    (p : Interpreter.Program) :
    (h.conclude w r request session p).workers =
      h.workers.modify w ({ · with phase := .serving }) := by
  unfold conclude
  dsimp only
  split
  · simp
  · split <;> simp

theorem workers_evaluate (h : Host) (w r : Nat) (path : Option Text) (request : Request)
    (pipes : Capture.Pipes) (refusal : Refusal) :
    ∃ p : Phase, (p = .serving ∨ ∃ s q, p = .evaluating r s q) ∧
      (h.evaluate w r path request pipes refusal).workers =
        h.workers.modify w ({ · with phase := p }) := by
  unfold evaluate
  dsimp only
  split
  · exact ⟨.serving, .inl rfl, by simp⟩
  · split
    · exact ⟨.serving, .inl rfl, by simp⟩
    · exact ⟨.evaluating r _ _, .inr ⟨_, _, rfl⟩, by simp; rfl⟩

theorem workers_pickUp (h : Host) (w r : Nat) (request : Request) :
    (h.pickUp w r request).workers = h.workers ∨
      ∃ p : Phase, (p = .serving ∨ ∃ a b, p = .waiting r a b) ∧
        (h.pickUp w r request).workers = h.workers.modify w ({ · with phase := p }) := by
  unfold pickUp
  split
  · dsimp only
    split
    · exact .inr ⟨.serving, .inl rfl, by simp⟩
    · exact .inr ⟨.waiting r _ _, .inr ⟨_, _, rfl⟩, by simp; rfl⟩
  · exact .inl rfl

/-- A step changes one worker, and leaves it less to do. -/
theorem workers_of_work? {h h' : Host} {w : Nat} (step : h.work? w = some h') :
    ∃ worker f, h.workers[w]? = some worker ∧ h'.workers = h.workers.modify w f ∧
      (f worker).remaining < worker.remaining := by
  unfold work? at step
  cases hw : h.workers[w]? with
  | none => simp [hw] at step
  | some worker =>
    refine ⟨worker, ?_⟩
    rw [hw] at step
    simp only [Option.bind_eq_bind, Option.bind_some] at step
    split at step
    next phase =>
      split at step
      next => simp at step
      next item rest queue =>
        obtain rfl : h.take w rest item = h' := by simpa using step
        cases item with
        | stop =>
          refine ⟨_, rfl, workers_stop h w rest, ?_⟩
          simp [Worker.remaining, phase, queue]
        | request r =>
          have popped : ({ worker with queue := rest } : Worker).remaining + 3 ≤
              worker.remaining := by
            simp only [Worker.remaining, phase, queue, List.length_cons]
            omega
          unfold take
          dsimp only
          split
          next request found =>
            obtain same | ⟨p, hp, same⟩ :=
              workers_pickUp (h.updateWorker w ({ · with queue := rest })) w r request
            · exact ⟨_, rfl, same, by omega⟩
            · refine ⟨_, rfl, by rw [same, workers_updateWorker, List.modify_modify_eq], ?_⟩
              obtain rfl | ⟨a, b, rfl⟩ := hp <;>
                simp only [Function.comp, Worker.remaining, phase, queue, List.length_cons] <;> omega
          next => exact ⟨_, rfl, rfl, by omega⟩
    next r pipes refusal phase =>
      cases hr : h.requests[r]? with
      | none => simp [hr] at step
      | some request =>
        simp only [hr, Option.bind_some] at step
        split at step
        · obtain rfl := Option.some.inj step
          obtain ⟨p, hp, same⟩ :=
            workers_evaluate h w r worker.sourcePath request pipes refusal
          refine ⟨_, rfl, same, ?_⟩
          obtain rfl | ⟨a, b, rfl⟩ := hp <;> simp only [Worker.remaining, phase] <;> omega
        · simp at step
    next r session program phase =>
      cases hr : h.requests[r]? with
      | none => simp [hr] at step
      | some request =>
        simp only [hr, Option.bind_some] at step
        split at step
        · obtain rfl := Option.some.inj step
          refine ⟨_, rfl, workers_conclude h w r request session program, ?_⟩
          simp only [Worker.remaining, phase]
          omega
        · simp at step
    next => simp at step

/-! ### Quiet hosts -/

/-- Changing a worker into one that has less to do leaves all together less to do. -/
theorem foldr_remaining_modify_lt {f : Worker → Worker} {w : Worker} :
    ∀ {ws : List Worker} {i : Nat}, ws[i]? = some w → (f w).remaining < w.remaining →
      (ws.modify i f).foldr (fun w n => w.remaining + n) 0 <
        ws.foldr (fun w n => w.remaining + n) 0
  | v :: ws, 0, found, less => by
    obtain rfl : v = w := by simpa using found
    simpa using less
  | v :: ws, i + 1, found, less => by
    have rest := foldr_remaining_modify_lt (by simpa using found : ws[i]? = some w) less
    simpa using rest
  | [], i, found, _ => by simp at found

/-- Every step leaves less to do. -/
theorem remaining_lt_of_work? {h h' : Host} {w : Nat} (step : h.work? w = some h') :
    h'.remaining < h.remaining := by
  obtain ⟨worker, f, found, same, less⟩ := workers_of_work? step
  rw [remaining, remaining, same]
  exact foldr_remaining_modify_lt found less

/-- No worker can do a step if none of those that there are can. -/
theorem work?_eq_none_of_workAny? {h : Host} (quiet : h.workAny? = none) (w : Nat) :
    h.work? w = none := by
  by_cases present : w < h.workers.length
  · exact List.findSome?_eq_none_iff.1 quiet w (List.mem_range.2 present)
  · simp [work?, List.getElem?_eq_none (Nat.le_of_not_lt present)]

theorem work?_settleWithin {n : Nat} {h : Host} (bound : h.remaining ≤ n) (w : Nat) :
    (settleWithin n h).work? w = none := by
  induction n generalizing h with
  | zero =>
    cases step : h.work? w with
    | none => exact step
    | some h' => exact absurd (remaining_lt_of_work? step) (by omega)
  | succ n ih =>
    unfold settleWithin
    split
    next h' found =>
      obtain ⟨v, -, step⟩ := List.exists_of_findSome?_eq_some found
      exact ih (by have := remaining_lt_of_work? step; omega)
    next quiet => exact work?_eq_none_of_workAny? quiet w

/-- A host that has settled has no step left. -/
theorem work?_settle (h : Host) (w : Nat) : h.settle.work? w = none :=
  work?_settleWithin (Nat.le_refl _) w

end Host

end JanetEmbedding
