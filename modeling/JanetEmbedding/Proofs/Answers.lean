import JanetEmbedding.Proofs.Sharing

/-!
# The answers to calls

Whatever becomes of a call, its caller is told one of three things: the value of the evaluation, or
what went wrong, or that it has stopped waiting. No request makes a worker leave its loop.

A call that is waited for from beginning to end has two ways out that are no answer. The first is that the
library of its handle cannot even be tried to be opened. The other one is that the caller wants to wait
longer than can be waited for. That is found out only when the request is queued, so the request is
evaluated all the same, and nobody is told the result. Besides, a caller without a time limit waits for ever
if the evaluation never comes to its end.

## Conventions

* Nobody waits at all for a length of time that is no number, so there is nothing wrong with it.
* While somebody waits, gates open one after the other.

## Main definitions

* `Result.Proper`: what a caller may be told.
* `Host.Answers`: what is promised of a call that is waited for.
* `World.Answered`: what is promised of every run.

## Main results

* `World.told_of_step`: what a caller is told in one step.
* `Host.answers_callWithin`: every call that is waited for is answered, with these exceptions.
* `World.answered_run`: what is promised of the answers holds in every run.
-/

namespace JanetEmbedding

open Interpreter (Call)

/-! ### Proper results -/

/-- Whether nothing has been written when there is a fault of a kind. -/
def FaultKind.isMute : FaultKind → Bool
  | capture => true
  | closed => true
  | initialization => true
  | libraryMissing => true
  | _ => false

/-- A **proper** result: a value, a fault that is not the caller's own impatience, or that impatience. -/
inductive Result.Proper : Result → Prop
  | success (value : Rendered) (stdout stderr : String) :
      Proper { status := .success, value := some value, stdout, stderr }
  | error {fault : Fault} {stdout stderr : String} (hkind : fault.kind ≠ .deadline)
      (hmute : fault.kind.isMute = true → stdout = "" ∧ stderr = "") :
      Proper { status := .error, fault := some fault, stdout, stderr }
  | cancelled (stillRunning : Bool) :
      Proper { status := .cancelled, fault := some .deadline, stillRunning }

theorem Result.proper_failed {f : Fault} (hkind : f.kind ≠ .deadline) : (Result.failed f).Proper :=
  .error hkind fun _ => ⟨rfl, rfl⟩

theorem Result.proper_expired (stillRunning : Bool) : (Result.expired stillRunning).Proper :=
  .cancelled stillRunning

theorem Host.proper_closedAnswer : closedAnswer.Proper := Result.proper_failed (by simp)

/-- What an evaluation comes to is proper. -/
theorem Evaluation.proper_outcome {kind : RequestKind} {signal : Int} {v : Janet.Value}
    {c : Capture.Captured} {x : Result} (hx : outcome kind signal v c = .ok x) : x.Proper := by
  unfold outcome at hx
  split at hx
  · obtain rfl := Except.ok.inj hx
    exact .error (by simp) (by simp [FaultKind.isMute])
  · cases hrender : render kind v with
    | error f => simp [hrender, Except.map] at hx
    | ok value =>
        rw [hrender] at hx
        obtain rfl := Except.ok.inj hx
        exact .success value c.stdout c.stderr

theorem Interpreter.Program.proper_result (p : Program) (kind : RequestKind) (c : Capture.Captured) :
    (p.result kind c).Proper := by
  unfold result
  split
  · exact Result.proper_failed (by simp)
  · split
    next x hx => exact Evaluation.proper_outcome hx
    next => exact Result.proper_failed (by simp)

namespace Host

/-- The result that a request comes to is proper. -/
theorem Ends.proper {h : Host} {path : Option Text} {request : Request} {phase : Phase} {x : Result}
    {stdio : Stdio} {calls : List Call} (hends : Ends h path request phase x stdio calls) :
    x.Proper := by
  cases hends with
  | unredirected => exact Result.proper_failed (by simp)
  | unencoded => exact Result.proper_failed (by simp)
  | @concluded r session p captured => exact p.proper_result request.kind captured

/-- All results are proper. -/
def ProperResults (h : Host) : Prop := ∀ r x, h.result? r = some x → x.Proper

theorem ProperResults.of_requests {h h' : Host} (hproper : h.ProperResults)
    (hrequests : h'.requests = h.requests) : h'.ProperResults := by
  intro r x hx
  refine hproper r x ?_
  rwa [result?, hrequests] at hx

/-- Workers give requests proper results. -/
theorem Does.properResults {owners : List Nat} {h h' : Host} {w : Nat} {worker : Worker}
    (hdoes : Does h w worker h') (hkept : Kept owners h) (hworker : h.workers[w]? = some worker)
    (hproper : h.ProperResults) : h'.ProperResults := by
  intro r x hx
  rcases hdoes.settles hkept hworker hx with
    hbefore | ⟨-, f, rfl⟩ | ⟨request, stdio, calls, -, -, hends⟩
  · exact hproper r x hbefore
  · exact Result.proper_failed (by simp)
  · exact hends.proper

/-- So they do when the host settles. -/
theorem kept_settle {owners : List Nat} {h : Host} (hkept : Kept owners h)
    (hproper : h.ProperResults) : Kept owners h.settle ∧ h.settle.ProperResults := by
  refine settle_induction (P := fun h => Kept owners h ∧ h.ProperResults) ?_ ⟨hkept, hproper⟩
  rintro h h' w worker ⟨hkept, hproper⟩ hworker hdoes
  exact ⟨hkept.work hworker hdoes, hdoes.properResults hkept hworker hproper⟩

theorem ProperResults.accept {h : Host} (hproper : h.ProperResults) (w : Nat) (kind : RequestKind)
    (source : Text) : (h.accept w kind source).ProperResults := by
  intro r x hx
  rcases result?_of_update (h.progress?_accept w kind source) hx with hbefore | ⟨-, hqueued⟩
  · exact hproper r x hbefore
  · cases hqueued

/-- Whoever stops waiting is told so. -/
theorem giveUp_fst (h : Host) (r : Nat) : ∃ stillRunning, (h.giveUp r).1 = .expired stillRunning := by
  unfold giveUp
  split
  next => exact ⟨false, rfl⟩
  next request _ =>
    rcases request.giveUp_cases with ⟨-, heq⟩ | ⟨-, heq⟩ | ⟨-, heq⟩
    · exact ⟨false, congrArg Prod.fst heq⟩
    · exact ⟨true, congrArg Prod.fst heq⟩
    · exact ⟨false, congrArg Prod.fst heq⟩

/-- What is wrong with a start is not that somebody has stopped waiting. -/
theorem kind_of_start {h : Host} {id : Nat} {f : Fault} (hf : (h.start id).1 = some f) :
    f.kind = .closed ∨ f.kind = .libraryMissing ∨ f.kind = .initialization ∨ f.kind.isHost = false := by
  cases hhandle : h.handles[id]? with
  | none => simp [start, hhandle] at hf
  | some handle =>
      cases hstate : handle.state with
      | fresh =>
          rw [start_fst_of_fresh hhandle hstate] at hf
          rcases kind_of_startFault? hf with ⟨hkind | hkind, -⟩ | ⟨hhost, -⟩
          · exact .inr (.inl hkind)
          · exact .inr (.inr (.inl hkind))
          · exact .inr (.inr (.inr hhost))
      | running w => simp [start, hhandle, hstate] at hf
      | closed former =>
          simp only [start, hhandle, hstate, Option.some.injEq] at hf
          exact .inl (hf ▸ rfl)

theorem proper_of_start {h : Host} {id : Nat} {f : Fault} (hf : (h.start id).1 = some f) :
    (Result.failed f).Proper := by
  refine Result.proper_failed fun hdeadline => ?_
  rcases kind_of_start hf with hkind | hkind | hkind | hhost
  · cases hkind.symm.trans hdeadline
  · cases hkind.symm.trans hdeadline
  · cases hkind.symm.trans hdeadline
  · rw [hdeadline] at hhost
    cases hhost

/-! ### Calls that are waited for -/

/-- What comes of the beginning of a call. -/
inductive BeginsAs (h : Host) (id : Nat) (kind : RequestKind) (source : Text) :
    Begun × Host → Prop
  /-- It is answered at once. -/
  | answered {x : Result} {h' : Host} (hproper : x.Proper) : BeginsAs h id kind source (.answered x, h')
  /-- Its handle does not start, and it is not answered. -/
  | raised {f : Fault} {handle : Handle} {h' : Host} (hhandle : h.handles[id]? = some handle)
      (hfresh : handle.state = .fresh) (hunopenable : Unopenable h.system handle)
      (hf : (h.start id).1 = some f) : BeginsAs h id kind source (.raised f, h')
  /-- It is accepted, after a start maybe. -/
  | accepted {h' : Host} {w : Nat} (hstart : h' = h ∨ h' = (h.start id).2)
      (hworker : h'.handles[id]?.bind (·.state.worker?) = some w) :
      BeginsAs h id kind source (.accepted h'.requests.length, h'.accept w kind source)

theorem beginsAs_submit {h h' : Host} {id : Nat} (kind : RequestKind) (source : Text)
    (hstart : h' = h ∨ h' = (h.start id).2) : BeginsAs h id kind source (h'.submit id kind source) := by
  unfold submit
  split
  next => exact .answered proper_closedAnswer
  next w hworker => exact .accepted hstart hworker

theorem beginsAs_beginCall (h : Host) (id : Nat) (kind : RequestKind) (source : Text)
    (timeout : Option Seconds) : BeginsAs h id kind source (h.beginCall id kind source timeout) := by
  unfold beginCall
  split
  next => exact .answered proper_closedAnswer
  next handle hhandle =>
    split
    next => exact .answered (Result.proper_expired false)
    next =>
      split
      next =>
        rename_i hfresh
        rcases hstart : h.start id with ⟨_ | f, h'⟩
        · exact beginsAs_submit kind source (.inr (congrArg Prod.snd hstart).symm)
        · have hf : (h.start id).1 = some f := congrArg Prod.fst hstart
          simp only [Begun.unstarted]
          split
          next => exact .answered (proper_of_start hf)
          next hhost =>
            have hkind := kind_of_startFault? ((start_fst_of_fresh hhandle hfresh).symm.trans hf)
            rcases hkind with ⟨hkind | hkind, -⟩ | ⟨-, hunopenable⟩
            · simp [hkind, FaultKind.isHost] at hhost
            · simp [hkind, FaultKind.isHost] at hhost
            · exact .raised hhandle hfresh hunopenable hf
      next => exact beginsAs_submit kind source (.inl rfl)

/-- A host keeps its requests in order through the beginning of a call. -/
theorem kept_of_accepted {owners : List Nat} {h h' : Host} {id w : Nat} (hkept : Kept owners h)
    (hproper : h.ProperResults) (hstart : h' = h ∨ h' = (h.start id).2)
    (hworker : h'.handles[id]?.bind (·.state.worker?) = some w) (kind : RequestKind) (source : Text) :
    Kept (owners ++ [id]) (h'.accept w kind source) ∧ (h'.accept w kind source).ProperResults := by
  have hboth : Kept owners h' ∧ h'.ProperResults := by
    rcases hstart with rfl | rfl
    · exact ⟨hkept, hproper⟩
    · exact ⟨hkept.starts (starts_start h id), hproper.of_requests (starts_start h id).requests_eq⟩
  exact ⟨hboth.1.accept hworker kind source, hboth.2.accept w kind source⟩

/-- Whoever waits is told something proper, by induction on the gates that open. -/
theorem proper_awaitResult {owners : List Nat} {h : Host} (hkept : Kept owners h)
    (hproper : h.ProperResults) (r : Nat) {gates : List String} {x : Result}
    (hx : (h.awaitResult r gates).1 = some x) : x.Proper := by
  obtain ⟨hkept', hproper'⟩ := kept_settle hkept hproper
  induction gates generalizing h with
  | nil => exact hproper' r x hx
  | cons gate gates ih =>
      unfold awaitResult at hx
      split at hx
      next y hy =>
        obtain rfl := Option.some.inj hx
        exact hproper' r _ hy
      next =>
        have hopened : Kept owners (h.settle.openGate gate) :=
          hkept'.congr (fun _ => rfl) (fun _ _ _ => rfl) rfl rfl rfl
        exact ih hopened hproper' hx (kept_settle hopened hproper').1 (kept_settle hopened hproper').2

/-- Whoever waits without being told anything waits for a host that has come to rest. -/
theorem rests_of_awaitResult {h : Host} {r : Nat} {gates : List String}
    (hnone : (h.awaitResult r gates).1 = none) :
    (h.awaitResult r gates).2.result? r = none ∧ ∀ w, (h.awaitResult r gates).2.work? w = none := by
  induction gates generalizing h with
  | nil => exact ⟨hnone, work?_settle h⟩
  | cons gate gates ih =>
      unfold awaitResult at hnone ⊢
      cases hresult : h.settle.result? r with
      | some x => simp [hresult] at hnone
      | none =>
          simp only [hresult] at hnone ⊢
          exact ih hnone

/-- What is promised of a call that is **waited for**, if one cannot wait for any length of time. -/
structure Answers {ε : Type} (fault? : Seconds → Option ε) (h : Host) (id : Nat) (kind : RequestKind)
    (source : Text) (timeout : Option Seconds) (gates : List String) : Prop where
  proper : ∀ x, (h.callWithin fault? id kind source timeout gates).1 = .answered x → x.Proper
  /-- A caller that wants to wait, but neither for ever nor for too long, is told something, unless its handle
  is to be started with a library that is unopenable. -/
  returns : (∀ handle, h.handles[id]? = some handle → handle.state = .fresh →
      ¬ Unopenable h.system handle) →
    (h.patienceOf id timeout).bind fault? = none → h.patienceOf id timeout ≠ none →
      ∃ x, (h.callWithin fault? id kind source timeout gates).1 = .answered x
  /-- One that does not mind waiting for ever is told something, or it waits: the workers have come to rest,
  and there is no result. -/
  waits : ∀ r, (h.callWithin fault? id kind source timeout gates).1 = .waiting r →
    h.patienceOf id timeout = none ∧ (h.beginCall id kind source timeout).1 = .accepted r ∧
      (h.callWithin fault? id kind source timeout gates).2.result? r = none ∧
      ∀ w, (h.callWithin fault? id kind source timeout gates).2.work? w = none
  /-- One that wants to wait for too long is not told anything, if its request has been accepted. -/
  fails : ∀ f, (h.callWithin fault? id kind source timeout gates).1 = .unable f ↔
    (∃ r, (h.beginCall id kind source timeout).1 = .accepted r) ∧
      (h.patienceOf id timeout).bind fault? = some f
  /-- The workers do the same then as if nobody had called in vain. -/
  lost : ∀ f, (h.callWithin fault? id kind source timeout gates).1 = .unable f →
    (h.callWithin fault? id kind source timeout gates).2 =
      (h.beginCall id kind source timeout).2.settle
  /-- Nobody is told anything either whose handle has a library that is unopenable, and is to be started. -/
  raises : ∀ f, (h.callWithin fault? id kind source timeout gates).1 = .unstarted f →
    (h.start id).1 = some f ∧
      ∃ handle, h.handles[id]? = some handle ∧ handle.state = .fresh ∧ Unopenable h.system handle

namespace Answers

variable {ε : Type} {fault? : Seconds → Option ε} {h h' : Host} {id r : Nat} {kind : RequestKind}
  {source : Text} {timeout : Option Seconds} {gates : List String}

/-- A call that is answered properly keeps what is promised, if it is not one whose request has been
accepted although its caller wants to wait for too long. -/
theorem of_answered {x : Result} (hx : x.Proper)
    (hanswered : (h.callWithin fault? id kind source timeout gates).1 = .answered x)
    (hable : (∃ r, (h.beginCall id kind source timeout).1 = .accepted r) →
      (h.patienceOf id timeout).bind fault? = none) :
    Answers fault? h id kind source timeout gates where
  proper y hy := by
    obtain rfl := Outcome.answered.inj (hanswered.symm.trans hy)
    exact hx
  returns _ _ _ := ⟨x, hanswered⟩
  waits r hr := by cases hanswered.symm.trans hr
  fails f := by
    constructor
    · intro hf
      cases hanswered.symm.trans hf
    · rintro ⟨haccepted, hf⟩
      cases (hable haccepted).symm.trans hf
  lost f hf := by cases hanswered.symm.trans hf
  raises f hf := by cases hanswered.symm.trans hf

/-- So does one whose handle does not start, since its library is unopenable. -/
theorem of_unstarted {f : Fault} {handle : Handle} (hhandle : h.handles[id]? = some handle)
    (hfresh : handle.state = .fresh) (hunopenable : Unopenable h.system handle)
    (hf : (h.start id).1 = some f) (hbegun : ∀ r, (h.beginCall id kind source timeout).1 ≠ .accepted r)
    (hraised : (h.callWithin fault? id kind source timeout gates).1 = .unstarted f) :
    Answers fault? h id kind source timeout gates where
  proper y hy := by cases hraised.symm.trans hy
  returns hopenable := absurd hunopenable (hopenable handle hhandle hfresh)
  waits r hr := by cases hraised.symm.trans hr
  fails g := by
    constructor
    · intro hg
      cases hraised.symm.trans hg
    · rintro ⟨⟨r, hr⟩, -⟩
      exact absurd hr (hbegun r)
  lost g hg := by cases hraised.symm.trans hg
  raises g hg := by
    obtain rfl := Outcome.unstarted.inj (hraised.symm.trans hg)
    exact ⟨hf, handle, hhandle, hfresh, hunopenable⟩

/-- So does one whose caller wants to wait for too long. -/
theorem of_unable {f : ε} (haccepted : (h.beginCall id kind source timeout).1 = .accepted r)
    (hf : (h.patienceOf id timeout).bind fault? = some f)
    (hunable : h.callWithin fault? id kind source timeout gates =
      (.unable f, (h.beginCall id kind source timeout).2.settle)) :
    Answers fault? h id kind source timeout gates := by
  have hfst := congrArg Prod.fst hunable
  exact
    { proper := fun y hy => by cases hfst.symm.trans hy
      returns := fun _ hnone => by cases hnone.symm.trans hf
      waits := fun r hr => by cases hfst.symm.trans hr
      fails := fun g => by simp [hfst, haccepted, hf]
      lost := fun g _ => congrArg Prod.snd hunable
      raises := fun g hg => by cases hfst.symm.trans hg }

/-- So does one whose caller waits for ever. -/
theorem of_waiting (haccepted : (h.beginCall id kind source timeout).1 = .accepted r)
    (hlimit : h.patienceOf id timeout = none) (hnone : h'.result? r = none)
    (hrests : ∀ w, h'.work? w = none)
    (hwaiting : h.callWithin fault? id kind source timeout gates = (.waiting r, h')) :
    Answers fault? h id kind source timeout gates := by
  have hfst := congrArg Prod.fst hwaiting
  exact
    { proper := fun y hy => by cases hfst.symm.trans hy
      returns := fun _ _ hlimited => absurd hlimit hlimited
      waits := fun v hv => by
        obtain rfl := Outcome.waiting.inj (hfst.symm.trans hv)
        rw [hwaiting]
        exact ⟨hlimit, haccepted, hnone, hrests⟩
      fails := fun g => by simp [hfst, hlimit]
      lost := fun g hg => by cases hfst.symm.trans hg
      raises := fun g hg => by cases hfst.symm.trans hg }

end Answers

/-- A caller waits as long as before, if its handle has only come to stand somewhere else. -/
theorem LeadsAt.patienceOf_eq {h h' : Host} {id : Nat} {handle : Handle}
    (hleads : h'.LeadsAt id handle) (hhandle : h.handles[id]? = some handle)
    (timeout : Option Seconds) : h'.patienceOf id timeout = h.patienceOf id timeout := by
  obtain ⟨state, hafter, -⟩ := hleads
  simp only [patienceOf, hhandle, hafter]
  rfl

theorem patienceOf_of_accepted {h h' : Host} {id w : Nat} (hstart : h' = h ∨ h' = (h.start id).2)
    (hworker : h'.handles[id]?.bind (·.state.worker?) = some w) (kind : RequestKind) (source : Text)
    (timeout : Option Seconds) :
    (h'.accept w kind source).patienceOf id timeout = h.patienceOf id timeout := by
  have hsame : (h'.accept w kind source).patienceOf id timeout = h'.patienceOf id timeout := rfl
  rw [hsame]
  rcases hstart with rfl | rfl
  · rfl
  · cases hhandle : h.handles[id]? with
    | some handle => exact ((starts_start h id).leadsAt hhandle).patienceOf_eq hhandle timeout
    | none => simp [start, hhandle] at hworker

section Waiting

variable {ε : Type} {fault? : Seconds → Option ε} {patience : Option Seconds}

/-- Waiting for a length of time that is a number. -/
theorem awaitWithin_some {t : Seconds} (ht : t ≠ .real .nan) (h : Host) (r : Nat) (gates : List String) :
    h.awaitWithin fault? (some t) (.accepted r) gates = match fault? t with
      | some f => (.unable f, h.settle)
      | none => match h.awaitResult r gates with
        | (some x, h) => (.answered x, h)
        | (none, h) => (.answered (h.giveUp r).1, (h.giveUp r).2) := by
  cases t with
  | whole n => rfl
  | real x =>
      cases x with
      | nan => exact absurd rfl ht
      | infinite | finite => rfl

/-- Waiting for a length of time that can be waited for, or without a limit. -/
theorem awaitWithin_of_number (hable : patience.bind fault? = none) (hnan : patience ≠ some (.real .nan))
    (h : Host) (r : Nat) (gates : List String) :
    h.awaitWithin fault? patience (.accepted r) gates = match h.awaitResult r gates with
      | (some x, h) => (.answered x, h)
      | (none, h) =>
        if patience = none then (.waiting r, h) else (.answered (h.giveUp r).1, (h.giveUp r).2) := by
  cases patience with
  | none => rfl
  | some t =>
      have hnone : fault? t = none := hable
      rw [awaitWithin_some (fun ht => hnan (congrArg some ht)), hnone]
      rfl

/-- Nobody waits who wants to wait for too long. -/
theorem awaitWithin_of_fault {f : ε} (hnan : fault? (.real .nan) = none)
    (hf : patience.bind fault? = some f) (h : Host) (r : Nat) (gates : List String) :
    h.awaitWithin fault? patience (.accepted r) gates = (.unable f, h.settle) := by
  obtain ⟨t, rfl, hlong⟩ := Option.bind_eq_some_iff.mp hf
  have ht : t ≠ .real .nan := by
    rintro rfl
    cases hnan.symm.trans hlong
  rw [awaitWithin_some ht, hlong]

/-- Whoever waits is told the result, or that they have stopped waiting; or they wait on. -/
theorem awaitWithin_of_able (hable : patience.bind fault? = none) (h : Host) (r : Nat)
    (gates : List String) :
    (∃ x, (h.awaitWithin fault? patience (.accepted r) gates).1 = .answered x ∧
      ((h.awaitResult r gates).1 = some x ∨ ∃ h' : Host, x = (h'.giveUp r).1)) ∨
    patience = none ∧ (h.awaitResult r gates).1 = none ∧
      h.awaitWithin fault? patience (.accepted r) gates = (.waiting r, (h.awaitResult r gates).2) := by
  by_cases hnan : patience = some (.real .nan)
  · subst hnan
    exact .inl ⟨_, rfl, .inr ⟨h, rfl⟩⟩
  · rw [awaitWithin_of_number hable hnan]
    rcases h.awaitResult r gates with ⟨_ | x, h'⟩
    · by_cases hlimit : patience = none
      · exact .inr ⟨hlimit, rfl, by simp [hlimit]⟩
      · exact .inl ⟨(h'.giveUp r).1, by simp [hlimit], .inr ⟨h', rfl⟩⟩
    · exact .inl ⟨x, rfl, .inl rfl⟩

end Waiting

/-- **Every call that is waited for** is answered properly, unless its handle has a library that is
unopenable, or its caller wants to wait for too long, or waits for ever. -/
theorem answers_callWithin {ε : Type} {fault? : Seconds → Option ε} (hnan : fault? (.real .nan) = none)
    {owners : List Nat} {h : Host} (hkept : Kept owners h) (hproper : h.ProperResults) (id : Nat)
    (kind : RequestKind) (source : Text) (timeout : Option Seconds) (gates : List String) :
    Answers fault? h id kind source timeout gates := by
  have hbegins := beginsAs_beginCall h id kind source timeout
  have hcall : h.callWithin fault? id kind source timeout gates =
      (h.beginCall id kind source timeout).2.awaitWithin fault?
        ((h.beginCall id kind source timeout).2.patienceOf id timeout)
        (h.beginCall id kind source timeout).1 gates := rfl
  generalize hbegun : h.beginCall id kind source timeout = begun at hbegins hcall
  cases hbegins with
  | @answered x h' hx =>
      have hnone : ∀ r, (h.beginCall id kind source timeout).1 ≠ .accepted r := fun r hr => by
        cases (congrArg Prod.fst hbegun).symm.trans hr
      exact .of_answered hx (congrArg Prod.fst hcall) fun ⟨r, hr⟩ => absurd hr (hnone r)
  | @raised f handle h' hhandle hfresh hunopenable hf =>
      have hnone : ∀ r, (h.beginCall id kind source timeout).1 ≠ .accepted r := fun r hr => by
        cases (congrArg Prod.fst hbegun).symm.trans hr
      exact .of_unstarted hhandle hfresh hunopenable hf hnone (congrArg Prod.fst hcall)
  | @accepted h' w hstart hworker =>
      obtain ⟨hkept, hproper⟩ := kept_of_accepted hkept hproper hstart hworker kind source
      have haccepted := congrArg Prod.fst hbegun
      have hpatience := patienceOf_of_accepted hstart hworker kind source timeout
      dsimp only at hcall haccepted
      rw [hpatience] at hcall
      cases hable : (h.patienceOf id timeout).bind fault? with
      | some f =>
          rw [awaitWithin_of_fault hnan hable] at hcall
          refine .of_unable haccepted hable (hcall.trans ?_)
          rw [hbegun]
      | none =>
          rcases awaitWithin_of_able hable (h'.accept w kind source) h'.requests.length gates with
            ⟨x, hx, htold⟩ | ⟨hlimit, hnone, hwaits⟩
          · rw [← hcall] at hx
            refine .of_answered ?_ hx fun _ => hable
            rcases htold with hresult | ⟨h₁, rfl⟩
            · exact proper_awaitResult hkept hproper _ hresult
            · obtain ⟨stillRunning, heq⟩ := giveUp_fst h₁ h'.requests.length
              rw [heq]
              exact .cancelled stillRunning
          · obtain ⟨hresult, hrests⟩ := rests_of_awaitResult hnone
            exact .of_waiting haccepted hlimit hresult hrests (hcall.trans hwaits)

end Host

namespace World

/-! ### What callers are told -/

/-- What a caller is **told** that has not been told anything before. -/
inductive Told (s : World) : Result → Prop
  /-- That it has stopped waiting, or has had no time to wait. -/
  | expired (stillRunning : Bool) : Told s (.expired stillRunning)
  | closed : Told s Host.closedAnswer
  /-- Why its handle does not start. -/
  | unstarted {id : Nat} {f : Fault} (hf : (s.host.start id).1 = some f) : Told s (.failed f)
  /-- The result of its request. -/
  | served {r : Nat} {x : Result} (hx : s.host.result? r = some x) : Told s x

/-- A caller that has been told something was told so before, or it is the one that goes on. -/
theorem answer_of_put {s t : World} (hcallers : t.callers = s.callers) {c d : Nat} {caller : Caller}
    {standing : Standing} {x : Result} (hx : (t.put d caller standing).answer? c = some x) :
    s.answer? c = some x ∨ standing.answer? = some x := by
  by_cases hc : c = d
  · subst hc
    right
    simpa [answer?] using hx
  · left
    simpa [answer?, put_of_ne hc, hcallers] using hx

theorem told_of_look {s : World} {c d id : Nat} {kind : RequestKind} {source : Text}
    {timeout : Option Seconds} {x : Result}
    (hx : (s.look d id kind source timeout).answer? c = some x) :
    s.answer? c = some x ∨ Told s x := by
  unfold look at hx
  split at hx
  next handle hnew hhandle =>
    rcases answer_of_put (s := s) rfl hx with hbefore | hanswer
    · exact .inl hbefore
    · split at hanswer
      · obtain rfl := Option.some.inj hanswer
        exact .inr (.expired false)
      · cases hstate : handle.state <;> simp [hstate, Standing.answer?] at hanswer
  next => exact .inl hx

theorem told_of_advance {s : World} {c d : Nat} {x : Result}
    (hx : (s.advance d).answer? c = some x) : s.answer? c = some x ∨ Told s x := by
  unfold advance at hx
  split at hx
  next => exact .inl hx
  next caller hcaller =>
    split at hx
    next =>
      split at hx
      next f host hstart =>
        rcases answer_of_put (s := s) rfl hx with hbefore | hanswer
        · exact .inl hbefore
        · rcases Standing.unstarted_cases f with hf | hf <;> rw [hf] at hanswer
          · obtain rfl := Option.some.inj hanswer
            exact .inr (.unstarted (congrArg Prod.fst hstart))
          · cases hanswer
      next host hstart =>
        rcases answer_of_put (s := s) rfl hx with hbefore | hanswer
        · exact .inl hbefore
        · cases hanswer
    next =>
      split at hx
      next y host hsubmit =>
        rcases answer_of_put (s := s) rfl hx with hbefore | hanswer
        · exact .inl hbefore
        · obtain rfl := Option.some.inj hanswer
          unfold Host.submit at hsubmit
          split at hsubmit
          · cases hsubmit
            exact .inr .closed
          · cases hsubmit
      next f host hsubmit =>
        rcases answer_of_put (s := s) rfl hx with hbefore | hanswer
        · exact .inl hbefore
        · cases hanswer
      next r host hsubmit =>
        rcases answer_of_put (s := s) rfl hx with hbefore | hanswer
        · exact .inl hbefore
        · cases hanswer
    next => exact .inl hx

theorem told_of_receive {s : World} {c d : Nat} {x : Result}
    (hx : (s.receive d).answer? c = some x) : s.answer? c = some x ∨ Told s x := by
  unfold receive at hx
  split at hx
  next => exact .inl hx
  next caller hcaller =>
    split at hx
    next r hstanding =>
      split at hx
      next y hresult =>
        rcases answer_of_put (s := s) rfl hx with hbefore | hanswer
        · exact .inl hbefore
        · obtain rfl := Option.some.inj hanswer
          exact .inr (.served hresult)
      next => exact .inl hx
    next => exact .inl hx

theorem told_of_giveUp {s : World} {c d : Nat} {m : Manner} {x : Result}
    (hx : (s.giveUp d m).answer? c = some x) : s.answer? c = some x ∨ Told s x := by
  simp only [giveUp, Host.leave_eq_giveUp] at hx
  split at hx
  next => exact .inl hx
  next caller hcaller =>
    split at hx
    next r hstanding =>
      rcases answer_of_put (s := s) rfl hx with hbefore | hanswer
      · exact .inl hbefore
      · obtain rfl := Option.some.inj hanswer
        obtain ⟨stillRunning, heq⟩ := s.host.giveUp_fst r
        rw [heq]
        exact .inr (.expired stillRunning)
    next => exact .inl hx

/-- **What callers are told** in one step. -/
theorem told_of_step {s : World} {a : Act} {c : Nat} {x : Result}
    (hx : (s.step a).answer? c = some x) : s.answer? c = some x ∨ Told s x := by
  cases a with
  | create | share | start | close | answerClose | openGate => exact .inl hx
  | call d id kind source timeout => exact told_of_look hx
  | advance d => exact told_of_advance hx
  | receive d => exact told_of_receive hx
  | giveUp d m => exact told_of_giveUp hx
  | work w =>
      simp only [step, work] at hx
      split at hx
      · exact .inl hx
      · exact .inl hx

theorem Told.proper {s : World} {x : Result} (htold : Told s x) (hproper : s.host.ProperResults) :
    x.Proper := by
  cases htold with
  | expired stillRunning => exact .cancelled stillRunning
  | closed => exact Host.proper_closedAnswer
  | unstarted hf => exact Host.proper_of_start hf
  | served hx => exact hproper _ x hx

/-! ### What is promised of every run -/

/-- All that there is to be told is proper, and so is all that has been told. -/
structure Proper (s : World) : Prop where
  results : s.host.ProperResults
  answers : ∀ c x, s.answer? c = some x → x.Proper

/-- **Every step keeps to what is proper.** -/
theorem Proper.step {s : World} (hproper : s.Proper) (hkept : s.Kept) (a : Act) : (s.step a).Proper := by
  constructor
  · intro r x hx
    rcases (moves_step s a).settles hx with hbefore | ⟨w, worker, host, hworker, heq, hdoes⟩
    · exact hproper.results r x hbefore
    · rw [heq] at hx
      have hbraced : (s.braced w).ProperResults := hproper.results
      exact hdoes.properResults (kept_braced hkept w) hworker hbraced r x hx
  · intro c x hx
    rcases told_of_step hx with hbefore | htold
    · exact hproper.answers c x hbefore
    · exact htold.proper hproper.results

theorem proper_opening (e : Circumstances) : (opening e).Proper := by
  constructor
  · intro r x hx
    simp [opening, Host.result?] at hx
  · intro c x hx
    simp [opening, answer?] at hx

theorem proper_run {s : World} (hproper : s.Proper) (hkept : s.Kept) (acts : List Act) :
    (s.run acts).Proper := by
  induction acts generalizing s with
  | nil => exact hproper
  | cons a acts ih => exact ih (hproper.step hkept a) ((moves_step s a).kept hkept)

/-- A worker **leaves its loop** only when it has come to the order to stop. -/
theorem exists_stop_of_hasEnded {s : World} {a : Act} {w : Nat} {worker : Worker} {p : Phase}
    (hworker : s.host.workers[w]? = some worker) (hlive : worker.phase.hasEnded = false)
    (hphase : (s.step a).host.phase? w = some p) (hended : p.hasEnded = true) :
    a = .work w ∧ worker.phase = .serving ∧ ∃ rest, worker.queue = .stop :: rest := by
  have hbefore : s.host.phase? w = some worker.phase := by simp [Host.phase?, hworker]
  rcases (moves_step s a).phases w with hsame | ⟨hnone, -⟩ | ⟨other, host, ha, hother, heq, hdoes⟩
  · obtain rfl := Option.some.inj ((hsame.trans hbefore).symm.trans hphase)
    cases hlive.symm.trans hended
  · cases hnone.symm.trans hbefore
  · obtain rfl := Option.some.inj (hworker.symm.trans hother)
    rw [heq] at hphase
    have hbraced : (s.braced w).workers[w]? = some worker := hworker
    cases hdoes with
    | leave log hserving hqueue => exact ⟨ha, hserving, _, hqueue⟩
    | pass log hserving =>
        obtain rfl : p = .serving := by simpa [Host.phase?, hbraced, hserving] using hphase.symm
        cases hended
    | pickUp | refuse | evaluate | finish =>
        simp only [Host.phase?, List.getElem?_modify_eq, hbraced] at hphase
        obtain rfl := Option.some.inj hphase
        cases hended

/-- What is promised of the **answers** in a run. -/
structure Answered (e : Circumstances) (acts : List Act) : Prop where
  /-- What a caller is told is proper, in whatever order all act. -/
  told : ∀ c x, ((opening e).run acts).answer? c = some x → x.Proper
  recorded : ((opening e).run acts).host.ProperResults
  /-- A call from beginning to end that waits as a task. -/
  task : ∀ id kind source timeout gates,
    Host.Answers Seconds.delayFault? ((opening e).run acts).host id kind source timeout gates
  /-- One that blocks its thread. -/
  blocking : ∀ id kind source timeout gates,
    Host.Answers Seconds.blockFault? ((opening e).run acts).host id kind source timeout gates
  /-- No worker leaves its loop before it has come to the order to stop. -/
  loop : ∀ w worker a p, ((opening e).run acts).host.workers[w]? = some worker →
    worker.phase.hasEnded = false → (((opening e).run acts).step a).host.phase? w = some p →
      p.hasEnded = true →
        a = .work w ∧ worker.phase = .serving ∧ ∃ rest, worker.queue = .stop :: rest

/-- **What is promised of the answers** holds in every run. -/
theorem answered_run (e : Circumstances) (acts : List Act) : Answered e acts := by
  have hkept := kept_run (kept_opening e) acts
  have hproper := proper_run (proper_opening e) (kept_opening e) acts
  refine ⟨hproper.answers, hproper.results, ?_, ?_, ?_⟩
  · intro id kind source timeout gates
    exact Host.answers_callWithin rfl hkept hproper.results id kind source timeout gates
  · intro id kind source timeout gates
    exact Host.answers_callWithin rfl hkept hproper.results id kind source timeout gates
  · intro w worker a p hworker hlive hphase hended
    exact exists_stop_of_hasEnded hworker hlive hphase hended

/-- **A call may fail.** A caller that blocks its thread wants to wait for ten thousand million seconds
and is told nothing. Its request has been evaluated, and has a result. So it is for a task that wants to
wait for a number of seconds that is no floating-point number. -/
theorem callBlocking_fails :
    let e : Circumstances := { behaviour :=
      { programs := [("(+ 1 2 3)", [{ value := .number (.ofDecimal false 6 0) .usual }])] } }
    let h := ((opening e).run [.create {} .given, .start 0]).host
    let blocking := h.callBlocking 0 .execute "(+ 1 2 3)" (some (.whole 10000000000)) []
    let task := h.callTask 0 .execute "(+ 1 2 3)" (some (.whole (Nat.pow 10 400))) []
    blocking.1.answer?.isNone = true ∧ (blocking.2.result? 0).map (·.status) = some .success ∧
      task.1.answer?.isNone = true ∧ (task.2.result? 0).map (·.status) = some .success := by
  intro e h blocking task
  refine ⟨?_, ?_, ?_, ?_⟩ <;> decide +kernel

end World

end JanetEmbedding
