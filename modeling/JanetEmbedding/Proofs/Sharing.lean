import JanetEmbedding.Proofs.Starting
import JanetEmbedding.Proofs.Stopping

/-!
# The shared handle

There is at most one handle that all share who ask for it. This module follows it through everything
that can be done with a host: it runs for as long as it is shared, it is shared until it is closed, by
whatever way, and the one that is shared next is a new one.

## Conventions

* Each operation is taken as one step, with everything that the workers do until it is over. What the
  library does may change between any two of them.
* A close that gives up waiting, or that cannot wait, has closed the handle all the same.

## Main definitions

* `Host.Operation`, `Host.perform`, `Host.after`: what can be done with a host.
* `Host.Operation.closes?`: the handle that an operation closes.
* `Host.Makes`: what an operation makes of the handles.
* `Host.Shares`: what is promised of the shared handle.

## Main results

* `Host.makes_perform`: an operation makes one of these things.
* `Host.shares_after`: what is promised of the shared handle holds after all operations.
-/

namespace JanetEmbedding

namespace Host

/-! ### Operations -/

/-- What can be **done** with a host. -/
inductive Operation where
  /-- A handle is made. -/
  | make (config : Except Config.Failure Config) (source : LibrarySource)
  /-- A handle is made and started. -/
  | launch (config : Except Config.Failure Config) (source : LibrarySource)
  /-- The shared handle is asked for. -/
  | share (config : Except Config.Failure Config) (source : LibrarySource)
  | start (id : Nat)
  /-- A call as a task, while gates open. -/
  | task (id : Nat) (kind : RequestKind) (source : Text) (timeout : Option Seconds) (gates : List String)
  /-- A call with the thread blocked. -/
  | block (id : Nat) (kind : RequestKind) (source : Text) (timeout : Option Seconds) (gates : List String)
  /-- A call that begins and is waited for by somebody else. -/
  | begin (id : Nat) (kind : RequestKind) (source : Text) (timeout : Option Seconds)
  | giveUp (request : Nat)
  | close (id : Nat) (timeout : Option Seconds)
  | closeShared (timeout : Option Seconds)
  /-- A worker does its next step, if it can do one. -/
  | work (worker : Nat)
  | openGate (gate : String)
  /-- The library, the interpreter and what the system is going to refuse become others. -/
  | alter (system : Interpreter.System) (behaviour : Interpreter.Behaviour) (refusal : Refusal)

/-- The handle that has come out of making one. -/
def made? : Except HandleFault Nat × Host → Option Nat × Host
  | (.ok id, h) => (some id, h)
  | (.error _, h) => (none, h)

/-- Does something: the handle that is returned, if one is, and the host. -/
def perform (h : Host) : Operation → Option Nat × Host
  | .make config source => made? (h.openFresh config source)
  | .launch config source => made? (h.openRunning config source)
  | .share config source => made? (h.share config source)
  | .start id => (none, (h.start id).2)
  | .task id kind source timeout gates => (none, (h.callTask id kind source timeout gates).2)
  | .block id kind source timeout gates => (none, (h.callBlocking id kind source timeout gates).2)
  | .begin id kind source timeout => (none, (h.beginCall id kind source timeout).2)
  | .giveUp r => (none, (h.giveUp r).2)
  | .close id timeout => (none, (h.close id timeout).2)
  | .closeShared timeout => (none, (h.closeShared timeout).2)
  | .work w => (none, (h.work? w).getD h)
  | .openGate gate => (none, h.openGate gate)
  | .alter system behaviour refusal => (none, { h with system, behaviour, refusal })

/-- The host **after** several operations. -/
def after (h : Host) (ops : List Operation) : Host := ops.foldl (fun h op => (h.perform op).2) h

@[simp] theorem after_nil (h : Host) : h.after [] = h := rfl

@[simp] theorem after_cons (h : Host) (op : Operation) (ops : List Operation) :
    h.after (op :: ops) = (h.perform op).2.after ops := rfl

/-- The handles that several operations **return**, in order. -/
def returned (h : Host) : List Operation → List Nat
  | [] => []
  | op :: ops => (h.perform op).1.toList ++ (h.perform op).2.returned ops

/-- The handle that an operation **closes**. -/
def Operation.closes? (h : Host) : Operation → Option Nat
  | close id _ => some id
  | closeShared _ => h.shared
  | _ => none

/-- Whether an operation asks for the shared handle. -/
def Operation.isShare : Operation → Bool
  | share .. => true
  | _ => false

/-! ### What leaves the handles as they are -/

/-- The handles stay **as they are**, and so does which one is shared. -/
structure KeepsHandles (h h' : Host) : Prop where
  handles : h'.handles = h.handles
  shared : h'.shared = h.shared

theorem KeepsHandles.refl (h : Host) : KeepsHandles h h := ⟨rfl, rfl⟩

theorem KeepsHandles.trans {h h' h'' : Host} (hfirst : KeepsHandles h h')
    (hnext : KeepsHandles h' h'') : KeepsHandles h h'' :=
  ⟨hnext.handles.trans hfirst.handles, hnext.shared.trans hfirst.shared⟩

theorem keepsHandles_of_does {h h' : Host} {w : Nat} {worker : Worker}
    (hdoes : Does h w worker h') : KeepsHandles h h' :=
  ⟨hdoes.handles_eq, hdoes.shared_eq⟩

theorem keepsHandles_settle (h : Host) : KeepsHandles h h.settle :=
  settle_induction (fun hkeeps _ hdoes => hkeeps.trans (keepsHandles_of_does hdoes)) (.refl h)

theorem keepsHandles_giveUp (h : Host) (r : Nat) : KeepsHandles h (h.giveUp r).2 := by
  obtain ⟨requests, heq⟩ := giveUp_snd_eq h r
  rw [heq]
  exact ⟨rfl, rfl⟩

theorem keepsHandles_submit (h : Host) (id : Nat) (kind : RequestKind) (source : Text) :
    KeepsHandles h (h.submit id kind source).2 := by
  unfold submit
  split
  · exact .refl h
  · exact ⟨rfl, rfl⟩

theorem keepsHandles_answerClose (h : Host) (worker : Option Nat) (timeout : Option Seconds) :
    KeepsHandles h (h.answerClose worker timeout).2 := by
  unfold answerClose
  split
  · exact .refl h
  · split
    · exact .refl h
    · exact ⟨rfl, rfl⟩

/-- Waiting leaves the handles as they are, by induction on the gates that open. -/
theorem keepsHandles_awaitResult (h : Host) (r : Nat) (gates : List String) :
    KeepsHandles h (h.awaitResult r gates).2 := by
  induction gates generalizing h with
  | nil => exact keepsHandles_settle h
  | cons gate gates ih =>
      unfold awaitResult
      split
      · exact keepsHandles_settle h
      · have hopened : KeepsHandles h (h.settle.openGate gate) := (keepsHandles_settle h).trans ⟨rfl, rfl⟩
        exact hopened.trans (ih _)

theorem keepsHandles_awaitWithin {ε : Type} (fault? : Seconds → Option ε) (h : Host)
    (patience : Option Seconds) (begun : Begun) (gates : List String) :
    KeepsHandles h (h.awaitWithin fault? patience begun gates).2 := by
  have hawaited : ∀ {r x h'}, h.awaitResult r gates = (x, h') → KeepsHandles h h' := fun {r x h'} heq => by
    simpa only [heq] using keepsHandles_awaitResult h r gates
  unfold awaitWithin
  split
  next => exact .refl h
  next => exact .refl h
  next =>
    split
    next heq => exact hawaited heq
    next heq => exact hawaited heq
  next r => exact (keepsHandles_giveUp h r).trans (keepsHandles_settle _)
  next =>
    split
    · exact keepsHandles_settle h
    · split
      next heq => exact hawaited heq
      next heq => exact (hawaited heq).trans (keepsHandles_giveUp _ _)

/-- A call changes the handles by the start of its own at most. -/
theorem beginCall_cases (h : Host) (id : Nat) (kind : RequestKind) (source : Text)
    (timeout : Option Seconds) :
    KeepsHandles h (h.beginCall id kind source timeout).2 ∨
      KeepsHandles (h.start id).2 (h.beginCall id kind source timeout).2 := by
  unfold beginCall
  split
  next => exact .inl (.refl h)
  next handle hhandle =>
    split
    next => exact .inl (.refl h)
    next =>
      split
      next =>
        right
        rcases h.start id with ⟨_ | f, h'⟩
        · exact keepsHandles_submit h' id kind source
        · exact .refl h'
      next => exact .inl (keepsHandles_submit h id kind source)

/-- What is left to be done of a close, once the handle has been asked to close. -/
theorem keepsHandles_close (h : Host) (id : Nat) (timeout : Option Seconds) :
    KeepsHandles (h.requestClose id).2 (h.close id timeout).2 := by
  unfold close
  rcases h.requestClose id with ⟨worker, h'⟩
  dsimp only
  split
  next => exact keepsHandles_settle h'
  next =>
    have hwaited : KeepsHandles h' (if timeout.any (·.isOver) then h' else h'.settle) := by
      split
      · exact .refl h'
      · exact keepsHandles_settle h'
    exact hwaited.trans ((keepsHandles_answerClose _ _ timeout).trans (keepsHandles_settle _))

/-! ### What an operation makes of the handles -/

/-- What an operation **makes** of the handles. -/
inductive Makes (h : Host) (op : Operation) : Host → Prop
  | stays {h' : Host} (hkeeps : KeepsHandles h h') : Makes h op h'
  /-- A handle is made. -/
  | made {h' : Host} (config : Config) (source : LibrarySource)
      (hkeeps : KeepsHandles (h.addHandle config source).2 h') : Makes h op h'
  /-- A handle is made, and started unless something is wrong. -/
  | launched {h' : Host} (config : Config) (source : LibrarySource)
      (hkeeps : KeepsHandles ((h.addHandle config source).2.start h.handles.length).2 h') :
      Makes h op h'
  /-- A handle is made and started, and it is shared now. -/
  | shared (config : Config) (source : LibrarySource) (hshare : op.isShare = true)
      (hnone : h.shared = none)
      (hstart : ((h.addHandle config source).2.start h.handles.length).1 = none) :
      Makes h op { ((h.addHandle config source).2.start h.handles.length).2 with
        shared := some h.handles.length }
  | started {h' : Host} (id : Nat) (hkeeps : KeepsHandles (h.start id).2 h') : Makes h op h'
  | closed {h' : Host} {id : Nat} (hcloses : op.closes? h = some id)
      (hkeeps : KeepsHandles (h.requestClose id).2 h') : Makes h op h'

/-- The handle that is made is fresh. -/
theorem handle_addHandle_self (h : Host) (config : Config) (source : LibrarySource) :
    (h.addHandle config source).2.handles[h.handles.length]? = some ⟨config, source, .fresh⟩ := by
  simp [addHandle]

/-- What comes of making a handle that is to run. -/
theorem openRunning_ok (h : Host) (c : Config) (source : LibrarySource) :
    h.openRunning (.ok c) source = match (h.addHandle c source).2.start h.handles.length with
      | (some f, h') => (.error (.start f), h')
      | (none, h') => (.ok h.handles.length, h') := rfl

/-- What comes of making a handle that is to run is up to its configuration and the library alone. -/
theorem openRunning_fst (h : Host) (config : Except Config.Failure Config) (source : LibrarySource) :
    (h.openRunning config source).1 = match config with
      | .error f => .error (.configuration f)
      | .ok c => match startFault? h.system ⟨c, source, .fresh⟩ h.nextStart with
        | some f => .error (.start f)
        | none => .ok h.handles.length := by
  cases config with
  | error f => rfl
  | ok c =>
      have hstart : ((h.addHandle c source).2.start h.handles.length).1 =
          startFault? h.system ⟨c, source, .fresh⟩ h.nextStart :=
        start_fst_of_fresh (handle_addHandle_self h c source) rfl
      simp only [openRunning_ok, ← hstart]
      rcases (h.addHandle c source).2.start h.handles.length with ⟨_ | f, h'⟩
      · rfl
      · rfl

theorem openRunning_snd (h : Host) (c : Config) (source : LibrarySource) :
    (h.openRunning (.ok c) source).2 = ((h.addHandle c source).2.start h.handles.length).2 := by
  rw [openRunning_ok]
  rcases (h.addHandle c source).2.start h.handles.length with ⟨_ | f, h'⟩
  · rfl
  · rfl

theorem makes_openRunning (h : Host) (op : Operation) (config : Except Config.Failure Config)
    (source : LibrarySource) : Makes h op (h.openRunning config source).2 := by
  cases config with
  | error f => exact .stays (.refl h)
  | ok c =>
      refine .launched c source ?_
      rw [openRunning_snd]
      exact .refl _

/-- What comes of asking for the shared handle if there is none. -/
theorem share_of_none {h : Host} (hnone : h.shared = none) (c : Config) (source : LibrarySource) :
    h.share (.ok c) source = match (h.addHandle c source).2.start h.handles.length with
      | (some f, h') => (.error (.start f), h')
      | (none, h') => (.ok h.handles.length, { h' with shared := some h.handles.length }) := by
  simp only [share, hnone, openRunning_ok]
  rcases (h.addHandle c source).2.start h.handles.length with ⟨_ | f, h'⟩
  · rfl
  · rfl

theorem makes_share (h : Host) (config : Except Config.Failure Config) (source : LibrarySource) :
    Makes h (.share config source) (h.share config source).2 := by
  cases hshared : h.shared with
  | some id =>
      refine .stays ?_
      simp only [share, hshared]
      exact .refl h
  | none =>
      cases config with
      | error f =>
          refine .stays ?_
          simp only [share, hshared, openRunning, openFresh]
          exact .refl h
      | ok c =>
          rw [share_of_none hshared]
          rcases hstart : (h.addHandle c source).2.start h.handles.length with ⟨_ | f, h'⟩
          · obtain rfl := congrArg Prod.snd hstart
            exact .shared c source rfl hshared (congrArg Prod.fst hstart)
          · obtain rfl := congrArg Prod.snd hstart
            exact .launched c source (.refl _)

/-- A call makes no more of the handles than a start. -/
theorem makes_of_begun {h h' : Host} (op : Operation) {id : Nat} {kind : RequestKind} {source : Text}
    {timeout : Option Seconds} (hkeeps : KeepsHandles (h.beginCall id kind source timeout).2 h') :
    Makes h op h' := by
  rcases beginCall_cases h id kind source timeout with hbegun | hbegun
  · exact .stays (hbegun.trans hkeeps)
  · exact .started id (hbegun.trans hkeeps)

/-- **What an operation makes of the handles.** -/
theorem makes_perform (h : Host) (op : Operation) : Makes h op (h.perform op).2 := by
  have hmade : ∀ x : Except HandleFault Nat × Host, (made? x).2 = x.2 := by
    rintro ⟨_ | id, h'⟩ <;> rfl
  cases op with
  | make config source =>
      rw [perform, hmade]
      cases config with
      | error f => exact .stays (.refl h)
      | ok c => exact .made c source (.refl _)
  | launch config source =>
      rw [perform, hmade]
      exact makes_openRunning h _ config source
  | share config source =>
      rw [perform, hmade]
      exact makes_share h config source
  | start id => exact .started id (.refl _)
  | task id kind source timeout gates | block id kind source timeout gates =>
      exact makes_of_begun _ (keepsHandles_awaitWithin _ _ _ (h.beginCall id kind source timeout).1 gates)
  | begin id kind source timeout => exact makes_of_begun _ (.refl _)
  | giveUp r => exact .stays (keepsHandles_giveUp h r)
  | close id timeout => exact .closed rfl (keepsHandles_close h id timeout)
  | closeShared timeout =>
      simp only [perform, closeShared]
      split
      next id hshared => exact .closed hshared (keepsHandles_close h id timeout)
      next => exact .stays (.refl h)
  | work w =>
      refine .stays ?_
      simp only [perform]
      cases hwork : h.work? w with
      | none => exact .refl h
      | some h' =>
          obtain ⟨worker, -, hdoes⟩ := does_of_work? hwork
          exact keepsHandles_of_does hdoes
  | openGate gate => exact .stays ⟨rfl, rfl⟩
  | alter system behaviour refusal => exact .stays ⟨rfl, rfl⟩

/-! ### The shared handle runs -/

/-- A handle **runs**. -/
def Runs (h : Host) (id : Nat) : Prop :=
  ∃ handle w, h.handles[id]? = some handle ∧ handle.state = .running w

/-- The shared handle runs, if there is one. -/
def SharedRuns (h : Host) : Prop := ∀ id, h.shared = some id → h.Runs id

theorem KeepsHandles.sharedRuns {h h' : Host} (hkeeps : KeepsHandles h h') (hruns : h.SharedRuns) :
    h'.SharedRuns := by
  intro id hid
  obtain ⟨handle, w, hhandle, hstate⟩ := hruns id (hkeeps.shared.symm.trans hid)
  exact ⟨handle, w, (congrArg (·[id]?) hkeeps.handles).trans hhandle, hstate⟩

theorem SharedRuns.addHandle {h : Host} (hruns : h.SharedRuns) (config : Config)
    (source : LibrarySource) : (h.addHandle config source).2.SharedRuns := by
  intro id hid
  obtain ⟨handle, w, hhandle, hstate⟩ := hruns id hid
  exact ⟨handle, w, handle_addHandle config source hhandle, hstate⟩

theorem SharedRuns.start {h : Host} (hruns : h.SharedRuns) (id : Nat) :
    (h.start id).2.SharedRuns :=
  World.SharedRuns.starts (s := { host := h }) hruns (starts_start h id)

theorem SharedRuns.requestClose {h : Host} (hruns : h.SharedRuns) (id : Nat) :
    (h.requestClose id).2.SharedRuns :=
  World.SharedRuns.closes (s := { host := h }) hruns (closes_requestClose h id)

/-- A handle that is made starts without a fault only if it runs then. -/
theorem runs_of_start_addHandle {h : Host} {config : Config} {source : LibrarySource}
    (hstart : ((h.addHandle config source).2.start h.handles.length).1 = none) :
    ((h.addHandle config source).2.start h.handles.length).2.Runs h.handles.length := by
  have hstarts := starts_start (h.addHandle config source).2 h.handles.length
  rw [hstart] at hstarts
  obtain ⟨handle, w, hhandle, hstate⟩ :=
    hstarts.exists_running (handle_addHandle_self h config source) rfl
  exact ⟨handle, w, hhandle, hstate⟩

/-- **The shared handle runs** after every operation. -/
theorem Makes.sharedRuns {h h' : Host} {op : Operation} (hmakes : Makes h op h')
    (hruns : h.SharedRuns) : h'.SharedRuns := by
  cases hmakes with
  | stays hkeeps => exact hkeeps.sharedRuns hruns
  | made config source hkeeps => exact hkeeps.sharedRuns (hruns.addHandle config source)
  | launched config source hkeeps =>
      exact hkeeps.sharedRuns ((hruns.addHandle config source).start h.handles.length)
  | shared config source hshare hnone hstart =>
      intro id hid
      obtain rfl := Option.some.inj hid
      exact runs_of_start_addHandle hstart
  | started id hkeeps => exact hkeeps.sharedRuns (hruns.start id)
  | closed hcloses hkeeps => exact hkeeps.sharedRuns (hruns.requestClose _)

theorem sharedRuns_after {h : Host} (hruns : h.SharedRuns) (ops : List Operation) :
    (h.after ops).SharedRuns := by
  induction ops generalizing h with
  | nil => exact hruns
  | cons op ops ih => exact ih ((makes_perform h op).sharedRuns hruns)

/-! ### How long a handle is shared -/

theorem KeepsHandles.leadsAt {h h' : Host} {id : Nat} {handle : Handle}
    (hkeeps : KeepsHandles h h') (hleads : h.LeadsAt id handle) : h'.LeadsAt id handle := by
  obtain ⟨state, hhandle, hstate⟩ := hleads
  exact ⟨state, (congrArg (·[id]?) hkeeps.handles).trans hhandle, hstate⟩

/-- What an operation makes of one handle. -/
theorem Makes.leadsAt {h h' : Host} {op : Operation} (hmakes : Makes h op h') {id : Nat}
    {handle : Handle} (hhandle : h.handles[id]? = some handle) : h'.LeadsAt id handle := by
  cases hmakes with
  | stays hkeeps => exact hkeeps.leadsAt (.of_eq hhandle)
  | made config source hkeeps => exact hkeeps.leadsAt (.of_eq (handle_addHandle config source hhandle))
  | launched config source hkeeps =>
      exact hkeeps.leadsAt ((starts_start _ _).leadsAt (handle_addHandle config source hhandle))
  | shared config source => exact (starts_start _ _).leadsAt (handle_addHandle config source hhandle)
  | started id hkeeps => exact hkeeps.leadsAt ((starts_start h id).leadsAt hhandle)
  | @closed _ other hcloses hkeeps =>
      exact hkeeps.leadsAt ((closes_requestClose h other).leadsAt hhandle)

theorem LeadsAt.lt_length {h : Host} {id : Nat} {handle : Handle} (hleads : h.LeadsAt id handle) :
    id < h.handles.length := by
  obtain ⟨state, hhandle, -⟩ := hleads
  exact (List.getElem?_eq_some_iff.mp hhandle).1

/-- No handle is lost. -/
theorem Makes.lt_length {h h' : Host} {op : Operation} (hmakes : Makes h op h') {id : Nat}
    (hid : id < h.handles.length) : id < h'.handles.length :=
  (hmakes.leadsAt (List.getElem?_eq_getElem hid)).lt_length

/-- No handle is opened again. -/
theorem Makes.isClosed {h h' : Host} {op : Operation} (hmakes : Makes h op h') {id : Nat}
    (hclosed : h.isClosed id = true) : h'.isClosed id = true := by
  obtain ⟨handle, hhandle, hstate⟩ := isClosed_eq_true_iff.mp hclosed
  obtain ⟨state, hafter, hleads⟩ := hmakes.leadsAt hhandle
  refine isClosed_eq_true_iff.mpr ⟨_, hafter, ?_⟩
  cases hbefore : handle.state with
  | fresh | running => simp [hbefore, HandleState.isClosed] at hstate
  | closed former =>
      rw [hbefore] at hleads
      obtain rfl := hleads
      rfl

theorem shared_markClosed (h : Host) (id : Nat) (former : Option Nat) :
    (h.markClosed id former).shared = if h.shared = some id then none else h.shared := by
  by_cases hshared : h.shared = some id
  · simp [markClosed, setHandleState, hshared]
  · simp [markClosed, setHandleState, hshared]

/-- **A close** takes the shared handle away if it is the one that is closed, and leaves it otherwise. -/
theorem shared_requestClose {h : Host} (hruns : h.SharedRuns) (id : Nat) :
    (h.requestClose id).2.shared = if h.shared = some id then none else h.shared := by
  have hother : (∀ handle w, h.handles[id]? = some handle → handle.state ≠ .running w) →
      h.shared ≠ some id := by
    intro hidle hid
    obtain ⟨handle, w, hhandle, hstate⟩ := hruns id hid
    exact hidle handle w hhandle hstate
  unfold requestClose
  split
  next hnone =>
    rw [if_neg (hother (by simp [hnone]))]
  next handle hhandle =>
    split
    next w hstate => exact shared_markClosed h id (some w)
    next hstate => exact shared_markClosed h id none
    next former hstate =>
      rw [if_neg (hother ?_)]
      intro other w hsame
      obtain rfl := Option.some.inj (hhandle.symm.trans hsame)
      simp [hstate]

theorem isClosed_requestClose {h : Host} {id : Nat} (hid : id < h.handles.length) :
    (h.requestClose id).2.isClosed id = true := by
  have hcloses := closes_requestClose h id
  generalize (h.requestClose id).2 = h' at hcloses ⊢
  cases hcloses with
  | stays hclosed =>
      have hhandle := List.getElem?_eq_getElem hid
      exact isClosed_eq_true_iff.mpr ⟨_, hhandle, hclosed _ hhandle⟩
  | fresh shared hhandle | running shared hhandle =>
      exact isClosed_eq_true_iff.mpr ⟨_, by simp [hhandle]; rfl, rfl⟩

/-- The handle that an operation closes has been asked to close. -/
theorem keepsHandles_of_closes {h : Host} {op : Operation} {id : Nat}
    (hcloses : op.closes? h = some id) : KeepsHandles (h.requestClose id).2 (h.perform op).2 := by
  cases op with
  | close other timeout =>
      obtain rfl := Option.some.inj hcloses
      exact keepsHandles_close h other timeout
  | closeShared timeout =>
      have hshared : h.shared = some id := hcloses
      simp only [perform, closeShared, hshared]
      exact keepsHandles_close h id timeout
  | make | launch | share | start | task | block | begin | giveUp | work | openGate | alter =>
      cases hcloses

/-- Nothing but a close of the shared handle takes it away, and only if there is none one comes to be. -/
theorem Makes.shared_eq {h h' : Host} {op : Operation} (hmakes : Makes h op h') (hruns : h.SharedRuns)
    (hshare : op.isShare = true → h.shared ≠ none)
    (hother : ∀ id, op.closes? h = some id → h.shared ≠ some id) : h'.shared = h.shared := by
  cases hmakes with
  | stays hkeeps | made config source hkeeps => exact hkeeps.shared
  | launched config source hkeeps => exact hkeeps.shared.trans (starts_start _ _).shared_eq
  | shared config source hasks hnone => exact absurd hnone (hshare hasks)
  | started id hkeeps => exact hkeeps.shared.trans (starts_start h id).shared_eq
  | @closed _ id hcloses hkeeps =>
      rw [hkeeps.shared, shared_requestClose hruns, if_neg (hother id hcloses)]

/-- A handle that is shared is **shared or closed** after an operation. -/
theorem shared_or_isClosed {h : Host} (hruns : h.SharedRuns) {id : Nat} (hid : h.shared = some id)
    (op : Operation) : (h.perform op).2.shared = some id ∨ (h.perform op).2.isClosed id = true := by
  by_cases hcloses : op.closes? h = some id
  · obtain ⟨handle, w, hhandle, -⟩ := hruns id hid
    have hclosed := isClosed_requestClose (List.getElem?_eq_some_iff.mp hhandle).1
    have hkeeps := keepsHandles_of_closes hcloses
    right
    rw [isClosed, hkeeps.handles]
    exact hclosed
  · left
    rw [(makes_perform h op).shared_eq hruns (by simp [hid]), hid]
    intro other hother heq
    obtain rfl := Option.some.inj (hid.symm.trans heq)
    exact hcloses hother

/-- So it is after any number of operations. -/
theorem shared_or_isClosed_after {h : Host} (hruns : h.SharedRuns) {id : Nat}
    (hid : h.shared = some id ∨ h.isClosed id = true) (ops : List Operation) :
    (h.after ops).shared = some id ∨ (h.after ops).isClosed id = true := by
  induction ops generalizing h with
  | nil => exact hid
  | cons op ops ih =>
      have hmakes := makes_perform h op
      refine ih (hmakes.sharedRuns hruns) ?_
      rcases hid with hid | hclosed
      · exact shared_or_isClosed hruns hid op
      · exact .inr (hmakes.isClosed hclosed)

/-! ### The handles that are returned -/

/-- The shared handle is what is returned to whoever asks for it. -/
theorem shared_share {h : Host} {config : Except Config.Failure Config} {source : LibrarySource}
    {id : Nat} (hok : (h.share config source).1 = .ok id) :
    (h.share config source).2.shared = some id := by
  revert hok
  unfold share
  split
  next i hshared =>
    intro hok
    obtain rfl := Except.ok.inj hok
    exact hshared
  next =>
    split
    next i h' hrunning =>
      intro hok
      obtain rfl := Except.ok.inj hok
      rfl
    next => exact nofun

/-- A handle that is returned is one of those that there are. -/
theorem lt_length_of_perform {h : Host} (hruns : h.SharedRuns) {op : Operation} {id : Nat}
    (hid : (h.perform op).1 = some id) : id < (h.perform op).2.handles.length := by
  have hok : ∀ x : Except HandleFault Nat × Host, (made? x).1 = some id →
      x.1 = .ok id ∧ (made? x).2 = x.2 := by
    rintro ⟨_ | i, h'⟩ heq
    · cases heq
    · obtain rfl := Option.some.inj heq
      exact ⟨rfl, rfl⟩
  cases op with
  | make config source =>
      obtain ⟨hid, hsame⟩ := hok _ hid
      rw [perform, hsame]
      cases config with
      | error f => cases hid
      | ok c =>
          obtain rfl := Except.ok.inj hid
          simp [openFresh, addHandle]
  | launch config source =>
      obtain ⟨hid, hsame⟩ := hok _ hid
      rw [perform, hsame]
      cases config with
      | error f => cases hid
      | ok c =>
          have hnew := (starts_start (h.addHandle c source).2 h.handles.length).leadsAt
            (handle_addHandle_self h c source)
          rw [openRunning_ok] at hid ⊢
          generalize (h.addHandle c source).2.start h.handles.length = started at hid hnew ⊢
          rcases started with ⟨_ | f, h'⟩
          · obtain rfl := Except.ok.inj hid
            exact hnew.lt_length
          · cases hid
  | share config source =>
      obtain ⟨hid, hsame⟩ := hok _ hid
      obtain ⟨handle, w, hhandle, -⟩ :=
        (makes_share h config source).sharedRuns hruns id (shared_share hid)
      rw [perform, hsame]
      exact (List.getElem?_eq_some_iff.mp hhandle).1
  | start | task | block | begin | giveUp | close | closeShared | work | openGate | alter => cases hid

theorem lt_length_after {h : Host} {id : Nat} (hid : id < h.handles.length) (ops : List Operation) :
    id < (h.after ops).handles.length := by
  induction ops generalizing h with
  | nil => exact hid
  | cons op ops ih => exact ih ((makes_perform h op).lt_length hid)

theorem lt_length_of_returned {h : Host} (hruns : h.SharedRuns) {ops : List Operation} {id : Nat}
    (hid : id ∈ h.returned ops) : id < (h.after ops).handles.length := by
  induction ops generalizing h with
  | nil => cases hid
  | cons op ops ih =>
      rcases List.mem_append.mp hid with hnow | hlater
      · exact lt_length_after (lt_length_of_perform hruns (by simpa using hnow)) ops
      · exact ih ((makes_perform h op).sharedRuns hruns) hlater

/-! ### What is promised of the shared handle -/

/-- What is promised of the **shared** handle of a host that has returned some handles so far. -/
structure Shares (known : List Nat) (h : Host) : Prop where
  /-- If there is one it runs. -/
  runs : ∀ id, h.shared = some id → h.Runs id
  /-- It is what everybody gets who asks for it, whatever they ask for. -/
  same : ∀ id, h.shared = some id → ∀ config source, h.share config source = (.ok id, h)
  /-- It is shared for as long as it is not closed. -/
  lasts : ∀ id, h.shared = some id → ∀ more, (h.after more).isClosed id = false →
    (h.after more).shared = some id
  /-- Whatever closes it leaves none. -/
  closed : ∀ id op, h.shared = some id → op.closes? h = some id →
    (h.perform op).2.shared = none ∧ (h.perform op).2.isClosed id = true
  /-- All else leaves it, closing other handles included; and if there is none, none comes to be. -/
  spared : ∀ op, op.isShare = false → (∀ id, op.closes? h = some id → h.shared ≠ some id) →
    (h.perform op).2.shared = h.shared
  /-- Whoever asks for it when there is none gets one that has never been returned before. -/
  begins : h.shared = none → ∀ config source id, (h.share config source).1 = .ok id →
    (h.share config source).2.shared = some id ∧ id ∉ known
  /-- If nothing comes of it there is still none. -/
  fails : ∀ config source f, (h.share config source).1 = .error f →
    h.shared = none ∧ (h.share config source).2.shared = none
  /-- What comes of it is up to the configuration and the library alone. -/
  outcome : h.shared = none → ∀ config source, (h.share config source).1 = match config with
    | .error f => .error (.configuration f)
    | .ok c => match startFault? h.system ⟨c, source, .fresh⟩ h.nextStart with
      | some f => .error (.start f)
      | none => .ok h.handles.length

/-- What comes of asking for the shared handle if there is none. -/
theorem share_fst_of_none {h : Host} (hnone : h.shared = none)
    (config : Except Config.Failure Config) (source : LibrarySource) :
    (h.share config source).1 = match config with
      | .error f => .error (.configuration f)
      | .ok c => match startFault? h.system ⟨c, source, .fresh⟩ h.nextStart with
        | some f => .error (.start f)
        | none => .ok h.handles.length := by
  rw [← openRunning_fst, share, hnone]
  rcases h.openRunning config source with ⟨_ | id, h'⟩
  · rfl
  · rfl

/-- If it fails there is none afterwards. -/
theorem shared_of_share_error {h : Host} {config : Except Config.Failure Config}
    {source : LibrarySource} {f : HandleFault} (hf : (h.share config source).1 = .error f) :
    h.shared = none ∧ (h.share config source).2.shared = none := by
  cases hshared : h.shared with
  | some id =>
      rw [share, hshared] at hf
      cases hf
  | none =>
      refine ⟨rfl, ?_⟩
      cases config with
      | error f => simp [share, hshared, openRunning, openFresh]
      | ok c =>
          have hsame := (starts_start (h.addHandle c source).2 h.handles.length).shared_eq
          rw [share_of_none hshared] at hf ⊢
          generalize (h.addHandle c source).2.start h.handles.length = started at hf hsame ⊢
          rcases started with ⟨_ | f, h'⟩
          · cases hf
          · exact hsame.trans hshared

/-- **What is promised of the shared handle** holds after all operations. -/
theorem shares_after (e : Circumstances) (ops : List Operation) :
    Shares ((World.opening e).host.returned ops) ((World.opening e).host.after ops) := by
  have hopening : (World.opening e).host.SharedRuns := World.sharedRuns_opening e
  have hruns := sharedRuns_after hopening ops
  have hknown : ∀ id ∈ (World.opening e).host.returned ops,
      id < ((World.opening e).host.after ops).handles.length :=
    fun id hid => lt_length_of_returned hopening hid
  generalize (World.opening e).host.returned ops = known at hknown ⊢
  generalize (World.opening e).host.after ops = h at *
  refine ⟨hruns, ?_, ?_, ?_, ?_, ?_, ?_, share_fst_of_none⟩
  · intro id hid config source
    simp only [share, hid]
  · intro id hid more hopen
    rcases shared_or_isClosed_after hruns (.inl hid) more with hshared | hclosed
    · exact hshared
    · cases hopen.symm.trans hclosed
  · intro id op hid hcloses
    obtain ⟨handle, w, hhandle, -⟩ := hruns id hid
    have hclosed := isClosed_requestClose (List.getElem?_eq_some_iff.mp hhandle).1
    have hkeeps := keepsHandles_of_closes hcloses
    constructor
    · rw [hkeeps.shared, shared_requestClose hruns, if_pos hid]
    · rw [isClosed, hkeeps.handles]
      exact hclosed
  · intro op hshare hother
    exact (makes_perform h op).shared_eq hruns (by simp [hshare]) hother
  · intro hnone config source id hok
    refine ⟨shared_share hok, fun hid => ?_⟩
    rw [share_fst_of_none hnone] at hok
    have hnew : id = h.handles.length := by
      split at hok
      · cases hok
      · split at hok
        · cases hok
        · exact (Except.ok.inj hok).symm
    have hlt := hknown id hid
    omega
  · intro config source f hf
    exact shared_of_share_error hf

/-- The shared handle does not start at first. Then it does, and it is shared until it is closed, though
whoever closes it has no time to wait for its worker. Closing another handle makes no difference. -/
example :
    let h := (World.opening { behaviour := { starts := [.refused, .ok] } }).host
    let ask : Operation := .share (.ok {}) .given
    let ops : List Operation := [ask, ask, .launch (.ok {}) .given, ask, .close 2 none, ask]
    h.returned (ops ++ [.close 1 (some (.whole 0)), ask]) = [1, 2, 1, 1, 3] ∧
      ((h.after ops).close 1 (some (.whole 0))).1.toOption = some false := by
  decide +kernel

end Host

end JanetEmbedding
