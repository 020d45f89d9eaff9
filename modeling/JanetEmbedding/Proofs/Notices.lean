import JanetEmbedding.Proofs.GivingUp
import JanetEmbedding.Proofs.Output

/-!
# Notices of forsaken requests

A caller that stops waiting for a request that is running leaves a mark on it, and the worker that
finishes the request later says in the log that it is free again. This module counts these notices,
request by request, and says when they are made.

## Conventions

* A **notice** is a warning that begins as the notices do. There is one other warning in the log, for
  those who close a handle, and it begins otherwise.
* A notice is about the request that its worker handled before the step in which the notice is made.

## Main definitions

* `Log.Record.notice`: the notice of a request of some kind.
* `World.noticedBy`: the notices that a run makes, each with its request.
* `World.LeftRunning`: the caller of a request stops waiting while the request is running.
* `World.Noted`: what the number of notices of every request says about it.
* `World.Warned`: what is promised of every run.

## Main results

* `Host.speaks_of_work?`: what a step of a worker says of the requests that are marked.
* `World.Noted.run`: in every run the numbers are as they should be.
* `World.warned_run`: every run says what it should.
-/

namespace JanetEmbedding

namespace Log.Record

/-- How every notice begins. -/
def noticeOpening : Text := "finished a "

/-- The **notice** that a request of some kind is finished whose caller has stopped waiting. Nobody
holds the descriptors when it is made. -/
def notice (kind : RequestKind) : Record where
  level := .warning
  origin := .runtime
  message := s!"finished a {kind.name} request whose caller timed out; the VM is free again"
  capturing := false

/-- Whether a record is a notice. -/
def isNotice (x : Record) : Bool :=
  x.level = .warning && noticeOpening.points.isPrefixOf x.message.points

theorem isNotice_notice (kind : RequestKind) : (notice kind).isNotice = true := by
  simp only [isNotice, notice, decide_true, Bool.true_and, List.isPrefixOf_iff_prefix]
  simp only [noticeOpening, Text.ofString, Text.points_ofChars, String.toList_append,
    List.map_append, List.append_assoc]
  exact List.prefix_append ..

theorem isNotice_of_level {x : Record} (h : x.level ≠ .warning) : x.isNotice = false := by
  simp [isNotice, h]

end Log.Record

/-- The notices that are due when a request is finished. -/
def Request.notices (q : Request) : List Log.Record :=
  if q.abandoned then [.notice q.kind] else []

namespace Host

/-! ### What is said in one step -/

/-- A host **says** some notices on the way to another one: they are the notices among the records
that the log gets meanwhile. -/
def Says (h h' : Host) (notices : List Log.Record) : Prop :=
  ∃ more, h'.log = h.log ++ more ∧ more.filter (·.isNotice) = notices

theorem Says.of_eq {h h' : Host} (hlog : h'.log = h.log) : h.Says h' [] :=
  ⟨[], by rw [hlog, List.append_nil], rfl⟩

theorem Says.trans {h h' h'' : Host} {xs ys : List Log.Record} (hxs : h.Says h' xs)
    (hys : h'.Says h'' ys) : h.Says h'' (xs ++ ys) := by
  obtain ⟨more, hlog, rfl⟩ := hxs
  obtain ⟨more', hlog', rfl⟩ := hys
  exact ⟨more ++ more', by rw [hlog', hlog, List.append_assoc], List.filter_append ..⟩

/-- A record that is no warning is no notice. -/
theorem says_note {level : Log.Level} (hlevel : level ≠ .warning) (h : Host) (origin : Log.Origin)
    (message : Text) : h.Says (h.note level origin message) [] :=
  ⟨[_], rfl, by simp [Log.Record.isNotice_of_level, hlevel]⟩

/-! ### Marks -/

/-- Two hosts have the **same marks** if the requests whose callers have turned away are the same. -/
def SameMarks (h h' : Host) : Prop :=
  ∀ (r : Nat) (q : Request), q.abandoned = true →
    (h'.requests[r]? = some q ↔ h.requests[r]? = some q)

/-- A mark is only put on a request that has been picked up. -/
def MarksPicked (h : Host) : Prop :=
  ∀ (r : Nat) (q : Request), h.requests[r]? = some q → q.abandoned = true → q.progress ≠ .queued

theorem SameMarks.of_eq {h h' : Host} (hrequests : h'.requests = h.requests) : h.SameMarks h' :=
  fun r q _ => by rw [hrequests]

theorem SameMarks.trans {h h' h'' : Host} (hsame : h.SameMarks h') (hsame' : h'.SameMarks h'') :
    h.SameMarks h'' :=
  fun r q hq => (hsame' r q hq).trans (hsame r q hq)

theorem MarksPicked.of_same {h h' : Host} (hpicked : h.MarksPicked) (hsame : h.SameMarks h') :
    h'.MarksPicked :=
  fun r q hrequest hq => hpicked r q ((hsame r q hq).mp hrequest) hq

/-- Changing a request that has no mark, and gets none. -/
theorem sameMarks_modify {h h' : Host} {r : Nat} {f : Request → Request}
    (hrequests : h'.requests = h.requests.modify r f)
    (hchange : ∀ q, h.requests[r]? = some q →
      f q = q ∨ q.abandoned = false ∧ (f q).abandoned = false) : h.SameMarks h' := by
  intro v q hq
  rw [hrequests]
  by_cases hv : v = r
  · subst hv
    rw [List.getElem?_modify_eq]
    cases hold : h.requests[v]? with
    | none => rfl
    | some q' =>
        rcases hchange q' hold with hsame | ⟨hbefore, hafter⟩
        · simp [hsame]
        · constructor <;> rintro ⟨⟩
          · cases hq.symm.trans hafter
          · cases hq.symm.trans hbefore
  · rw [List.getElem?_modify_ne _ _ (Ne.symm hv)]

/-- A request that is queued has no mark. -/
theorem MarksPicked.unmarked {h : Host} (hpicked : h.MarksPicked) {r : Nat} {q : Request}
    (hrequest : h.requests[r]? = some q) (hqueued : q.progress = .queued) : q.abandoned = false := by
  by_contra hmarked
  exact hpicked r q hrequest (by simpa using hmarked) hqueued

/-- Refusing what is left in a queue leaves the marks. -/
theorem sameMarks_failPending {h : Host} (hpicked : h.MarksPicked) (items : List Item) :
    h.SameMarks (h.failPending items) := by
  induction items generalizing h with
  | nil => exact .of_eq rfl
  | cons item items ih =>
      cases item with
      | stop => exact ih hpicked
      | request r =>
          have hstep : h.SameMarks (h.updateRequest r refuseQueued) := by
            refine sameMarks_modify rfl fun q hrequest => ?_
            unfold refuseQueued
            split
            next hqueued =>
              have hunmarked := hpicked.unmarked hrequest hqueued
              exact .inr ⟨hunmarked, hunmarked⟩
            next => exact .inl rfl
          exact hstep.trans (ih (hpicked.of_same hstep))

/-! ### The steps of a worker -/

/-- A worker **is done** with a request that it handled: it says what is due, and the descriptors are
free. -/
structure IsDone (h : Host) (r : Nat) (q : Request) (h' : Host) : Prop where
  told : h.Says h' q.notices
  finished : ∃ x, h'.requests = h.requests.modify r (·.finish x)
  free : h'.holder = none

theorem IsDone.of_eq {h₁ h h' : Host} {r : Nat} {q : Request} (hdone : IsDone h₁ r q h')
    (hlog : h₁.log = h.log) (hrequests : h₁.requests = h.requests) : IsDone h r q h' where
  told := (Says.of_eq hlog).trans hdone.told
  finished := hrequests ▸ hdone.finished
  free := hdone.free

/-- Delivering a result says what is due, provided that nobody holds the descriptors if it says
something. -/
theorem says_deliver {h : Host} {q : Request} (hfree : q.abandoned = true → h.holder = none)
    (w r : Nat) (x : Result) : h.Says (h.deliver w r q x) q.notices := by
  unfold deliver Request.notices
  dsimp only
  split
  next hmarked =>
    have hrecord : (⟨.warning, .runtime, (Log.Record.notice q.kind).message, h.holder.isSome⟩ :
        Log.Record) = .notice q.kind := by
      rw [hfree hmarked]
      rfl
    refine ⟨[.notice q.kind], ?_, by simp [Log.Record.isNotice_notice]⟩
    rw [← hrecord]
    rfl
  next => exact .of_eq rfl

theorem isDone_deliver {h : Host} (hfree : h.holder = none) (w r : Nat) (q : Request) (x : Result) :
    IsDone h r q (h.deliver w r q x) := by
  have htells := says_deliver (q := q) (fun _ => hfree) w r x
  obtain ⟨log, heq⟩ := deliver_eq h w r q x
  rw [heq] at htells ⊢
  exact ⟨htells, ⟨x, rfl⟩, hfree⟩

theorem isDone_unexpected {h : Host} (hfree : h.holder = none) (w r : Nat) (q : Request) (f : Fault) :
    IsDone h r q (h.unexpected w r q f) := by
  have hnoted := says_note (show Log.Level.error ≠ .warning by decide) h .runtime
    s!"unexpected failure while handling {q.kind.name} request"
  have hdone := isDone_deliver (h := h.note .error .runtime
    s!"unexpected failure while handling {q.kind.name} request") hfree w r q (.failed f)
  exact ⟨hnoted.trans hdone.told, hdone.finished, hdone.free⟩

/-- What a step of a worker **says** of the requests that are marked. -/
inductive Speaks (h : Host) (w : Nat) (h' : Host) : Prop
  /-- Nothing, and they stay as they are. -/
  | silent (htells : h.Says h' []) (hsame : h.SameMarks h')
  /-- The worker is done with the request that it handled. -/
  | done {r : Nat} {q : Request} (hheld : h.handled? w = some r) (hrequest : h.requests[r]? = some q)
      (hdone : IsDone h r q h')

theorem speaks_stop {h : Host} (hpicked : h.MarksPicked) (w : Nat) (rest : List Item) :
    h.Speaks w (h.stop w rest) := by
  refine .silent ?_ (sameMarks_failPending hpicked rest)
  have hlog : (h.failPending rest).log = h.log := by rw [failPending_eq]
  exact (Says.of_eq hlog).trans (says_note (by decide) ..)

/-- Picking a request up says nothing, even if that is the end of it: there is no mark on it yet. -/
theorem silent_pickUp {h : Host} (hpicked : h.MarksPicked) {r : Nat} {q : Request}
    (hrequest : h.requests[r]? = some q) (w : Nat) :
    h.Says (h.pickUp w r q) [] ∧ h.SameMarks (h.pickUp w r q) := by
  unfold pickUp
  split
  next hqueued =>
    have hunmarked := hpicked.unmarked hrequest hqueued
    have hmodify : ∀ {h' : Host} (p : Progress),
        h'.requests = h.requests.modify r ({ · with progress := p }) → h.SameMarks h' := by
      intro h' p heq
      refine sameMarks_modify heq fun q' hq' => ?_
      obtain rfl := Option.some.inj (hrequest.symm.trans hq')
      exact .inr ⟨hunmarked, hunmarked⟩
    dsimp only
    split
    next f hpipes =>
      have hnone : q.notices = [] := by simp [Request.notices, hunmarked]
      refine ⟨?_, ?_⟩
      · rw [← hnone]
        refine (Says.of_eq ?_).trans (says_deliver (by simp [hunmarked]) ..)
        rfl
      · obtain ⟨log, heq⟩ := deliver_eq _ w r q (uncaptured f)
        rw [heq]
        exact hmodify (.finished (uncaptured f)) (List.modify_modify_eq ..)
    next => exact ⟨.of_eq rfl, hmodify .running rfl⟩
  next => exact ⟨says_note (by decide) .., .of_eq rfl⟩

theorem speaks_evaluate {h : Host} {w r : Nat} {q : Request} (hheld : h.handled? w = some r)
    (hrequest : h.requests[r]? = some q) (hfree : h.holder = none) (path : Option Text)
    (pipes : Capture.Pipes) (refusal : Refusal) :
    h.Speaks w (h.evaluate w r path q pipes refusal) := by
  unfold evaluate
  dsimp only
  split
  next => exact .done hheld hrequest (.of_eq (isDone_deliver (by exact hfree) ..) rfl rfl)
  next =>
    split
    next => exact .done hheld hrequest (.of_eq (isDone_unexpected (by exact hfree) ..) rfl rfl)
    next => exact .silent (.of_eq rfl) (.of_eq rfl)

theorem speaks_conclude {h : Host} {w r : Nat} {q : Request} (hheld : h.handled? w = some r)
    (hrequest : h.requests[r]? = some q) (session : Capture.Session) (p : Interpreter.Program) :
    h.Speaks w (h.conclude w r q session p) := by
  refine .done hheld hrequest ?_
  unfold conclude
  dsimp only
  split
  next => exact (isDone_unexpected rfl ..).of_eq rfl rfl
  next =>
    split
    next => exact (isDone_deliver rfl ..).of_eq rfl rfl
    next => exact (isDone_unexpected rfl ..).of_eq rfl rfl

/-- **What a step of a worker says of the requests that are marked.** -/
theorem speaks_of_work? {h h' : Host} {w : Nat} (hpicked : h.MarksPicked)
    (hstep : h.work? w = some h') : h.Speaks w h' := by
  obtain ⟨worker, hworker, hstep⟩ := Option.bind_eq_some_iff.mp hstep
  have hheld : ∀ {r : Nat}, worker.phase.request? = some r → h.handled? w = some r :=
    fun hr => by simp [handled?, hworker, hr]
  split at hstep
  next hphase =>
    split at hstep
    next => cases hstep
    next item rest hqueue =>
      obtain rfl := Option.some.inj hstep
      cases item with
      | stop => exact speaks_stop hpicked w rest
      | request r =>
          unfold take
          dsimp only
          split
          next q hrequest =>
            -- The popped queue is neither in the log nor among the requests.
            have hpopped : (h.updateWorker w fun x => { x with queue := rest }).MarksPicked := hpicked
            obtain ⟨htells, hsame⟩ := silent_pickUp hpopped hrequest w
            exact .silent htells hsame
          next => exact .silent (.of_eq rfl) (.of_eq rfl)
  next r pipes refusal hphase =>
    obtain ⟨q, hrequest, hstep⟩ := Option.bind_eq_some_iff.mp hstep
    split at hstep
    next hholder =>
      obtain rfl := Option.some.inj hstep
      exact speaks_evaluate (hheld (by rw [hphase]; rfl)) hrequest
        (Option.isNone_iff_eq_none.mp hholder) ..
    next => cases hstep
  next r session p hphase =>
    obtain ⟨q, hrequest, hstep⟩ := Option.bind_eq_some_iff.mp hstep
    split at hstep
    next =>
      obtain rfl := Option.some.inj hstep
      exact speaks_conclude (hheld (by rw [hphase]; rfl)) hrequest ..
    next => cases hstep
  next => cases hstep

/-! ### Starting and closing -/

theorem says_startWorker (h : Host) (w : Nat) : h.Says (h.startWorker w).2 [] := by
  unfold startWorker
  dsimp only
  split
  next => exact says_note (by decide) ..
  next => exact .of_eq rfl
  next => exact .of_eq rfl
  next => exact says_note (by decide) ..

theorem says_acquireLibrary (h : Host) (handle : Handle) :
    h.Says (h.acquireLibrary handle).2 [] := by
  unfold acquireLibrary
  split
  · exact .of_eq rfl
  · split
    · exact .of_eq rfl
    · dsimp only
      split <;> exact says_note (by decide) ..

theorem says_start (h : Host) (id : Nat) : h.Says (h.start id).2 [] := by
  unfold start
  split
  next => exact .of_eq rfl
  next handle _ =>
    split
    next => exact .of_eq rfl
    next => exact .of_eq rfl
    next =>
      have hlibrary := h.says_acquireLibrary handle
      unfold startFresh
      split
      next f h' heq => simpa only [heq] using hlibrary
      next h' heq =>
        simp only [heq] at hlibrary
        dsimp only
        have hworker := says_startWorker (h'.addWorker handle.config.sourcePath).2
          (h'.addWorker handle.config.sourcePath).1
        split
        next f h'' heq =>
          simp only [heq] at hworker
          exact hlibrary.trans ((Says.of_eq rfl).trans hworker)
        next h'' heq =>
          simp only [heq] at hworker
          exact hlibrary.trans ((Says.of_eq rfl).trans hworker)

theorem says_share (h : Host) (config : Except Config.Failure Config) (source : LibrarySource) :
    h.Says (h.share config source).2 [] := by
  unfold share openRunning openFresh
  cases h.shared with
  | some id => exact .of_eq rfl
  | none =>
      cases config with
      | error f => exact .of_eq rfl
      | ok c =>
          have hstart := says_start (h.addHandle c source).2 (h.addHandle c source).1
          dsimp only
          rcases heq : (h.addHandle c source).2.start (h.addHandle c source).1 with ⟨f, h'⟩
          rw [heq] at hstart
          cases f <;> exact (Says.of_eq rfl).trans hstart

theorem says_requestClose (h : Host) (id : Nat) : h.Says (h.requestClose id).2 [] := by
  have hcloses := closes_requestClose h id
  generalize (h.requestClose id).2 = h' at hcloses ⊢
  cases hcloses <;> exact .of_eq rfl

/-- The other warning begins otherwise. -/
theorem says_answerClose (h : Host) (worker : Option Nat) (timeout : Option Seconds) :
    h.Says (h.answerClose worker timeout).2 [] := by
  unfold answerClose
  split
  next => exact .of_eq rfl
  next =>
    split
    next => exact .of_eq rfl
    next =>
      refine ⟨[_], rfl, ?_⟩
      simp [Log.Record.isNotice, Log.Record.noticeOpening, Text.ofString, toString]

end Host

/-- The worker that does something. -/
def Act.worker? : Act → Option Nat
  | work w => some w
  | _ => none

namespace World

open Host (Says SameMarks IsDone)

/-! ### The notices of a run -/

/-- The notices that an action makes, each with the request that its worker handles. -/
def noticed (s : World) (a : Act) : List (Option Nat × Log.Record) :=
  (((s.step a).host.log.drop s.host.log.length).filter (·.isNotice)).map fun x =>
    (a.worker?.bind s.host.handled?, x)

/-- The **notices** that a run makes. -/
def noticedBy (s : World) : List Act → List (Option Nat × Log.Record)
  | [] => []
  | a :: acts => s.noticed a ++ (s.step a).noticedBy acts

/-- How many notices of a run are about a request. -/
def noticesOf (s : World) (r : Nat) (acts : List Act) : Nat :=
  (s.noticedBy acts).countP (·.1 = some r)

theorem noticesOf_cons (s : World) (r : Nat) (a : Act) (acts : List Act) :
    s.noticesOf r (a :: acts) = s.noticesOf r [a] + (s.step a).noticesOf r acts := by
  simp [noticesOf, noticedBy]

theorem noticed_eq {s : World} {a : Act} {xs : List Log.Record}
    (htells : s.host.Says (s.step a).host xs) :
    s.noticed a = xs.map (a.worker?.bind s.host.handled?, ·) := by
  obtain ⟨more, hlog, rfl⟩ := htells
  simp [noticed, hlog]

theorem noticesOf_of_silent {s : World} {a : Act} (htells : s.host.Says (s.step a).host []) (r : Nat) :
    s.noticesOf r [a] = 0 := by
  simp [noticesOf, noticedBy, noticed_eq htells]

/-- Nobody but a worker makes notices. -/
theorem says_step (s : World) {a : Act} (hothers : a.worker? = none) :
    s.host.Says (s.step a).host [] := by
  cases a with
  | work w => cases hothers
  | create | openGate => exact .of_eq rfl
  | share config source => exact s.host.says_share config source
  | start id => exact s.host.says_start id
  | close id => exact s.host.says_requestClose id
  | answerClose w timeout => exact s.host.says_answerClose (some w) timeout
  | call c id kind source timeout =>
      refine .of_eq ?_
      simp only [step, look]
      split <;> rfl
  | receive c =>
      refine .of_eq ?_
      simp only [step, receive]
      split
      · rfl
      · split
        · split <;> rfl
        · rfl
  | giveUp c m =>
      refine .of_eq ?_
      simp only [step, giveUp, Host.leave_eq_giveUp]
      split
      · rfl
      · split
        next r _ =>
          obtain ⟨requests, heq⟩ := s.host.giveUp_snd_eq r
          rw [put_host, heq]
        next => rfl
  | advance c =>
      simp only [step, advance]
      split
      next => exact .of_eq rfl
      next caller hcaller =>
        split
        next =>
          have hstart := s.host.says_start caller.handle
          split
          next f host heq => exact (congrArg (s.host.Says ·.2 []) heq).mp hstart
          next host heq => exact (congrArg (s.host.Says ·.2 []) heq).mp hstart
        next =>
          refine .of_eq ?_
          unfold Host.submit
          cases s.host.handles[caller.handle]?.bind (·.state.worker?) <;> rfl
        next => exact .of_eq rfl

/-! ### Requests whose callers turn away -/

/-- The caller of a request **leaves it running**: it stops waiting after the request has been picked
up and before it is finished. -/
def LeavesRunning (s : World) (a : Act) (r : Nat) : Prop :=
  ∃ c m caller, a = .giveUp c m ∧ s.callers c = some caller ∧ caller.standing = .waiting r ∧
    s.host.progress? r = some .running

/-- In a run the caller of a request has left it running. -/
def LeftRunning (s : World) (acts : List Act) (r : Nat) : Prop :=
  ∃ before a after, acts = before ++ a :: after ∧ (s.run before).LeavesRunning a r

theorem not_leftRunning_nil (s : World) (r : Nat) : ¬ s.LeftRunning [] r := by
  rintro ⟨before, a, after, heq, -⟩
  simp at heq

theorem leftRunning_cons {s : World} {a : Act} {acts : List Act} {r : Nat} :
    s.LeftRunning (a :: acts) r ↔ s.LeavesRunning a r ∨ (s.step a).LeftRunning acts r := by
  constructor
  · rintro ⟨before, b, after, heq, hleaves⟩
    cases before with
    | nil =>
        obtain ⟨rfl, -⟩ := List.cons.inj heq
        exact .inl hleaves
    | cons b' before =>
        obtain ⟨rfl, rfl⟩ := List.cons.inj heq
        exact .inr ⟨before, b, after, rfl, hleaves⟩
  · rintro (hleaves | ⟨before, b, after, rfl, hleaves⟩)
    · exact ⟨[], a, acts, rfl, hleaves⟩
    · exact ⟨a :: before, b, after, rfl, hleaves⟩

/-- What an action **comes to for the marks**. -/
inductive Marking (s : World) (a : Act) : Prop
  /-- They stay, and nothing is said. -/
  | same (htells : s.host.Says (s.step a).host []) (hsame : s.host.SameMarks (s.step a).host)
      (hstays : ∀ r, ¬ s.LeavesRunning a r)
  /-- A caller leaves its request running. -/
  | leaves {r : Nat} {q : Request} (htells : s.host.Says (s.step a).host [])
      (hrequest : s.host.requests[r]? = some q) (hrunning : q.progress = .running)
      (hleaves : ∀ v, s.LeavesRunning a v ↔ v = r)
      (hrequests : (s.step a).host.requests = s.host.requests.modify r ({ · with abandoned := true }))
  /-- A worker is done with the request that it handled. -/
  | finishes {w r : Nat} {q : Request} (ha : a = .work w) (hheld : s.host.handled? w = some r)
      (hrequest : s.host.requests[r]? = some q) (hdone : s.host.IsDone r q (s.step a).host)

/-- An action that changes no request, or makes a new one. -/
theorem sameMarks_of_moves {s s' : World} {a : Act} (hmoves : Moves s a s')
    (hpicked : s.host.MarksPicked) (hothers : a.worker? = none)
    (hstays : ∀ r, ¬ s.LeavesRunning a r) : s.host.SameMarks s'.host := by
  cases hmoves with
  | stays | created | expired | looked | turned | served | noted | opened => exact .of_eq rfl
  | shared config source shared hstarts => exact .of_eq hstarts.requests_eq
  | started hstarts | ready _ _ hstarts | refused _ _ hstarts => exact .of_eq hstarts.requests_eq
  | closed hcloses => exact .of_eq hcloses.requests_eq
  | worked => cases hothers
  | @accepted c w caller hcaller hstanding hhandle =>
      intro r q hq
      simp only [put_host, Host.accept, getElem?_concat_eq_some_iff]
      refine or_iff_left ?_
      rintro ⟨-, rfl⟩
      cases hq
  | @left c r caller m hcaller hstanding =>
      cases hrequest : s.host.requests[r]? with
      | none =>
          refine .of_eq ?_
          rw [put_host, Host.giveUp, hrequest]
      | some q =>
          refine Host.sameMarks_modify (f := fun _ => q.giveUp.2)
            (by rw [put_host, Host.giveUp_eq hrequest]; rfl) fun q' hq' => ?_
          obtain rfl := Option.some.inj (hrequest.symm.trans hq')
          rcases q.giveUp_cases with ⟨hqueued, heq⟩ | ⟨hrunning, heq⟩ | ⟨-, heq⟩
          · rw [heq]
            have hunmarked := hpicked.unmarked hrequest hqueued
            exact .inr ⟨hunmarked, hunmarked⟩
          · refine absurd ⟨c, m, caller, rfl, hcaller, hstanding, ?_⟩ (hstays r)
            simp [Host.progress?, hrequest, hrunning]
          · rw [heq]
            exact .inl rfl

/-- **What an action comes to for the marks.** -/
theorem marking_step {s : World} (hpicked : s.host.MarksPicked) (a : Act) : s.Marking a := by
  cases hworker : a.worker? with
  | some w =>
      obtain rfl : a = .work w := by cases a <;> cases hworker; rfl
      have hstays : ∀ r, ¬ s.LeavesRunning (.work w) r := by rintro r ⟨_, _, _, ⟨⟩, _⟩
      cases hstep : (s.braced w).work? w with
      | none =>
          have hsame : s.step (.work w) = s := by simp [step, work, hstep]
          exact .same (.of_eq (by rw [hsame])) (.of_eq (by rw [hsame])) hstays
      | some host =>
          have hhost : (s.step (.work w)).host = host := by simp [step, work, hstep]
          cases Host.speaks_of_work? (h := s.braced w) hpicked hstep with
          | silent htells hsame =>
              exact .same (by rw [hhost]; exact htells) (by rw [hhost]; exact hsame) hstays
          | done hheld hrequest hdone =>
              exact .finishes rfl hheld hrequest (by rw [hhost]; exact hdone.of_eq rfl rfl)
  | none =>
      have htells := s.says_step hworker
      by_cases hleaves : ∃ r, s.LeavesRunning a r
      · obtain ⟨r, c, m, caller, rfl, hcaller, hstanding, hrunning⟩ := hleaves
        obtain ⟨q, hrequest, hq⟩ := Option.map_eq_some_iff.mp hrunning
        refine .leaves htells hrequest hq (fun v => ⟨?_, ?_⟩) ?_
        · rintro ⟨c', m', caller', heq, hcaller', hstanding', -⟩
          cases heq
          obtain rfl := Option.some.inj (hcaller.symm.trans hcaller')
          exact (Standing.waiting.inj (hstanding.symm.trans hstanding')).symm
        · rintro rfl
          exact ⟨c, m, caller, rfl, hcaller, hstanding, hrunning⟩
        · have hmark : q.giveUp.2 = { q with abandoned := true } := by
            rcases q.giveUp_cases with ⟨hp, -⟩ | ⟨-, heq⟩ | ⟨hp, -⟩
            · cases hq.symm.trans hp
            · rw [heq]
            · simp [hq, Progress.isSettled] at hp
          rw [step_giveUp m hcaller hstanding hrequest, hmark]
          exact modify_const_of_eq hrequest ({ · with abandoned := true })
      · exact .same htells (sameMarks_of_moves (moves_step s a) hpicked hworker
          (not_exists.mp hleaves)) (not_exists.mp hleaves)

/-! ### The number of notices -/

/-- What the number of notices of every request says about it. -/
structure Noted (s : World) (left : Nat → Prop) (count : Nat → Nat) : Prop where
  marked : ∀ r, left r ↔ ∃ q, s.host.requests[r]? = some q ∧ q.abandoned = true
  /-- A request that has been left running is running without a notice, or finished with one. -/
  once : ∀ r, left r → s.host.progress? r = some .running ∧ count r = 0 ∨
    (s.host.result? r).isSome ∧ count r = 1
  silent : ∀ r, ¬ left r → count r = 0

theorem noted_opening (e : Circumstances) : (opening e).Noted (fun _ => False) fun _ => 0 := by
  refine ⟨fun r => ?_, fun r hr => hr.elim, fun _ _ => rfl⟩
  simp [opening]

variable {s : World} {left : Nat → Prop} {count : Nat → Nat}

theorem Noted.marksPicked (h : s.Noted left count) : s.host.MarksPicked := by
  intro r q hrequest hq hqueued
  have hp : s.host.progress? r = some .queued := by simp [Host.progress?, hrequest, hqueued]
  rcases h.once r ((h.marked r).mpr ⟨q, hrequest, hq⟩) with ⟨hrunning, -⟩ | ⟨hfinished, -⟩
  · cases hp.symm.trans hrunning
  · obtain ⟨x, hx⟩ := Option.isSome_iff_exists.mp hfinished
    cases hp.symm.trans (Host.result?_eq_some_iff.mp hx)

/-- A request without a result that has been left running has had no notice, nor has any other. -/
theorem Noted.count_eq_zero (h : s.Noted left count) {r : Nat}
    (hrunning : s.host.progress? r = some .running) : count r = 0 := by
  by_cases hr : left r
  · rcases h.once r hr with ⟨-, hzero⟩ | ⟨hfinished, -⟩
    · exact hzero
    · obtain ⟨x, hx⟩ := Option.isSome_iff_exists.mp hfinished
      cases hrunning.symm.trans (Host.result?_eq_some_iff.mp hx)
  · exact h.silent r hr

/-- What is known of a request that stays as it is, in whatever way it is known. -/
theorem once_congr {h h' : Host} {r n : Nat} (hrequest : h'.requests[r]? = h.requests[r]?)
    (honce : h.progress? r = some .running ∧ n = 0 ∨ (h.result? r).isSome ∧ n = 1) :
    h'.progress? r = some .running ∧ n = 0 ∨ (h'.result? r).isSome ∧ n = 1 := by
  simpa only [Host.progress?, Host.result?, hrequest] using honce

theorem Noted.same (h : s.Noted left count) {s' : World} (hsame : s.host.SameMarks s'.host) :
    s'.Noted left count where
  marked r := by
    rw [h.marked]
    refine exists_congr fun q => and_congr_left fun hq => ?_
    exact (hsame r q hq).symm
  once r hr := by
    obtain ⟨q, hrequest, hq⟩ := (h.marked r).mp hr
    exact once_congr (((hsame r q hq).mpr hrequest).trans hrequest.symm) (h.once r hr)
  silent := h.silent

theorem Noted.leaves (h : s.Noted left count) {s' : World} {v : Nat} {q : Request}
    (hrequest : s.host.requests[v]? = some q) (hrunning : q.progress = .running)
    (hrequests : s'.host.requests = s.host.requests.modify v ({ · with abandoned := true })) :
    s'.Noted (fun r => left r ∨ r = v) count := by
  have hp : s.host.progress? v = some .running := by simp [Host.progress?, hrequest, hrunning]
  have hthis : s'.host.requests[v]? = some { q with abandoned := true } := by
    rw [hrequests, List.getElem?_modify_eq, hrequest]
    rfl
  have hother : ∀ r, r ≠ v → s'.host.requests[r]? = s.host.requests[r]? := fun r hr => by
    rw [hrequests, List.getElem?_modify_ne _ _ (Ne.symm hr)]
  refine ⟨fun r => ?_, fun r hr => ?_, fun r hr => h.silent r fun hleft => hr (.inl hleft)⟩
  · by_cases hr : r = v
    · subst hr
      exact iff_of_true (.inr rfl) ⟨_, hthis, rfl⟩
    · rw [hother r hr, or_iff_left hr, h.marked]
  · by_cases hv : r = v
    · subst hv
      exact .inl ⟨by simp [Host.progress?, hthis, hrunning], h.count_eq_zero hp⟩
    · exact once_congr (hother r hv) (h.once r (hr.resolve_right hv))

theorem Noted.finishes (h : s.Noted left count) {s' : World} {v : Nat} {q : Request} {x : Result}
    (hrequest : s.host.requests[v]? = some q) (hrunning : s.host.progress? v = some .running)
    (hrequests : s'.host.requests = s.host.requests.modify v (·.finish x)) :
    s'.Noted left fun r => count r + if r = v then q.notices.length else 0 := by
  have hthis : s'.host.requests[v]? = some (q.finish x) := by
    rw [hrequests, List.getElem?_modify_eq, hrequest]
    rfl
  have hother : ∀ r, r ≠ v → s'.host.requests[r]? = s.host.requests[r]? := fun r hr => by
    rw [hrequests, List.getElem?_modify_ne _ _ (Ne.symm hr)]
  have hmarked : left v ↔ q.abandoned = true := by simp [h.marked, hrequest]
  refine ⟨fun r => ?_, fun r hr => ?_, fun r hr => ?_⟩
  · by_cases hr : r = v
    · subst hr
      simp [hmarked, hthis, Request.finish]
    · rw [hother r hr, h.marked]
  · by_cases hv : r = v
    · subst hv
      refine .inr ⟨by simp [Host.result?_finish hrequest hrequests], ?_⟩
      simp [h.count_eq_zero hrunning, Request.notices, hmarked.mp hr]
    · simpa [hv] using once_congr (hother r hv) (h.once r hr)
  · rw [h.silent r hr, Nat.zero_add]
    split
    next hv =>
      subst hv
      have hunmarked : ¬ q.abandoned = true := fun hq => hr (hmarked.mpr hq)
      simp [Request.notices, hunmarked]
    next => rfl

/-- **Every action says what it should.** -/
theorem Noted.step (h : s.Noted left count) (hkept : s.Kept) (a : Act) :
    (s.step a).Noted (fun r => left r ∨ s.LeavesRunning a r) fun r => count r + s.noticesOf r [a] := by
  cases marking_step h.marksPicked a with
  | same htells hsame hstays =>
      simpa [hstays, noticesOf_of_silent htells] using h.same hsame
  | @leaves v q htells hrequest hrunning hleaves hrequests =>
      simpa [hleaves, noticesOf_of_silent htells] using h.leaves hrequest hrunning hrequests
  | @finishes w v q ha hheld hrequest hdone =>
      subst ha
      obtain ⟨x, hrequests⟩ := hdone.finished
      have hstays : ∀ r, ¬ s.LeavesRunning (.work w) r := by rintro r ⟨_, _, _, ⟨⟩, _⟩
      have hcount : ∀ r, s.noticesOf r [.work w] = if r = v then q.notices.length else 0 := by
        intro r
        simp only [noticesOf, noticedBy, List.append_nil, noticed_eq hdone.told, Act.worker?,
          Option.bind_some, hheld, List.countP_map]
        split
        next hr => simp [hr, Function.comp_def]
        next hr => simp [Ne.symm hr, Function.comp_def]
      simpa [hstays, hcount] using
        h.finishes hrequest (hkept.progress_of_handled hheld) hrequests

/-- **In every run the numbers are as they should be.** -/
theorem Noted.run (h : s.Noted left count) (hkept : s.Kept) (acts : List Act) :
    (s.run acts).Noted (fun r => left r ∨ s.LeftRunning acts r)
      fun r => count r + s.noticesOf r acts := by
  induction acts generalizing s left count with
  | nil => simpa [not_leftRunning_nil, noticesOf, noticedBy] using h
  | cons a acts ih =>
      have hnext := ih (h.step hkept a) ((moves_step s a).kept hkept)
      simpa only [run_cons, noticesOf_cons s _ a acts, leftRunning_cons, Nat.add_assoc, or_assoc]
        using hnext

/-- What has been said in a run. -/
theorem noted_run (e : Circumstances) (acts : List Act) :
    ((opening e).run acts).Noted ((opening e).LeftRunning acts) ((opening e).noticesOf · acts) := by
  simpa using (noted_opening e).run (kept_opening e) acts

/-- The notices that a run makes are those of the log. -/
theorem noticedBy_eq {s : World} (hkept : s.Kept) (hnoted : s.Noted left count) (acts : List Act) :
    s.host.log.filter (·.isNotice) ++ (s.noticedBy acts).map (·.2) =
      (s.run acts).host.log.filter (·.isNotice) := by
  induction acts generalizing s left count with
  | nil => simp [noticedBy]
  | cons a acts ih =>
      have htells : ∃ xs, s.host.Says (s.step a).host xs := by
        cases marking_step hnoted.marksPicked a with
        | same htells => exact ⟨_, htells⟩
        | leaves htells => exact ⟨_, htells⟩
        | finishes ha hheld hrequest hdone => exact ⟨_, hdone.told⟩
      obtain ⟨xs, htells⟩ := htells
      rw [run_cons, ← ih ((moves_step s a).kept hkept) (hnoted.step hkept a), noticedBy,
        noticed_eq htells]
      obtain ⟨more, hlog, rfl⟩ := htells
      simp [hlog, Function.comp_def]

/-! ### What is promised of every run -/

/-- A notice is **timely** if it is made by the step in which a worker finishes its request, after the
caller has left the request running, and when the descriptors are free again. -/
structure Timely (e : Circumstances) (before : List Act) (a : Act) (r : Nat) (x : Log.Record) :
    Prop where
  left : (opening e).LeftRunning before r
  handled : ∃ w, a = .work w ∧ ((opening e).run before).host.handled? w = some r
  unfinished : ((opening e).run before).host.result? r = none
  finished : (((opening e).run (before ++ [a])).host.result? r).isSome
  record : ∃ kind, ((opening e).run before).kind? r = some kind ∧ x = .notice kind
  free : ((opening e).run (before ++ [a])).host.holder = none
  /-- The descriptors refer to what they referred to when the run began. -/
  restored : e.stdio.Ready → ∀ c : Channel,
    ((opening e).run (before ++ [a])).host.stdio.descriptors.file? c.descriptor =
      e.stdio.descriptors.file? c.descriptor

/-- A run **says what it should** if every request that was left running has one notice when it is
finished, and there is no other notice. -/
structure Warned (e : Circumstances) (acts : List Act) : Prop where
  /-- The notices are those of the log. -/
  logged : ((opening e).noticedBy acts).map (·.2) =
    ((opening e).run acts).host.log.filter (·.isNotice)
  once : ∀ r, (opening e).LeftRunning acts r →
    ((opening e).run acts).host.progress? r = some .running ∧ (opening e).noticesOf r acts = 0 ∨
      (((opening e).run acts).host.result? r).isSome ∧ (opening e).noticesOf r acts = 1
  silent : ∀ r, ¬ (opening e).LeftRunning acts r → (opening e).noticesOf r acts = 0
  timely : ∀ before a after, acts = before ++ a :: after →
    ∀ held x, (held, x) ∈ ((opening e).run before).noticed a → ∃ r, held = some r ∧
      Timely e before a r x
  /-- The text of a result is what the program of its request has written, and nothing else. -/
  unheard : e.stdio.Ready → ∀ r x, ((opening e).run acts).host.result? r = some x →
    x.stdout = "" ∧ x.stderr = "" ∨ ∃ p, (opening e).programsOf r acts = [p] ∧
      x.stdout = Utf8.decodeString (p.sent (e.stdio.usable .out) .out) ∧
      x.stderr = Utf8.decodeString (p.sent (e.stdio.usable .err) .err)

/-- Every notice is timely. -/
theorem timely_of_noticed (e : Circumstances) (before : List Act) {a : Act} {held : Option Nat}
    {x : Log.Record} (hx : (held, x) ∈ ((opening e).run before).noticed a) :
    ∃ r, held = some r ∧ Timely e before a r x := by
  have hnoted := noted_run e before
  have hledger := ledger_run (ledger_opening e) before
  cases marking_step hnoted.marksPicked a with
  | same htells => simp [noticed_eq htells] at hx
  | leaves htells => simp [noticed_eq htells] at hx
  | @finishes w r q ha hheld hrequest hdone =>
      subst ha
      rw [noticed_eq hdone.told] at hx
      obtain ⟨y, hy, heq⟩ := List.mem_map.mp hx
      obtain ⟨rfl, rfl⟩ := Prod.ext_iff.mp heq
      have hmarked : q.abandoned = true := by
        by_contra hunmarked
        simp [Request.notices, hunmarked] at hy
      obtain rfl : y = .notice q.kind := by simpa [Request.notices, hmarked] using hy
      have hrunning := hledger.kept.progress_of_handled hheld
      have hstep : (opening e).run (before ++ [.work w]) = ((opening e).run before).step (.work w) :=
        run_append ..
      refine ⟨r, hheld, (hnoted.marked r).mpr ⟨q, hrequest, hmarked⟩, ⟨w, rfl, hheld⟩, ?_, ?_,
        ⟨q.kind, kind?_eq hledger hrequest, rfl⟩, ?_, fun hready c => ?_⟩
      · refine Option.eq_none_iff_forall_ne_some.mpr fun z hz => ?_
        cases hrunning.symm.trans (Host.result?_eq_some_iff.mp hz)
      · obtain ⟨z, hrequests⟩ := hdone.finished
        rw [hstep, Host.result?_finish hrequest hrequests]
        rfl
      · rw [hstep]
        exact hdone.free
      · obtain ⟨files, hrefer, -, hrecorded⟩ := recorded_run hready (before ++ [.work w])
        obtain ⟨numbers, hplumbed⟩ := hrecorded.plumbed
        rw [hplumbed.refer (by rw [hstep]; exact hdone.free) c, hrefer c]

/-- **Every run says what it should.** -/
theorem warned_run (e : Circumstances) (acts : List Act) : Warned e acts := by
  have hnoted := noted_run e acts
  refine ⟨?_, hnoted.once, hnoted.silent, fun before a after _ held x hx => ?_, fun hready r x hx => ?_⟩
  · exact noticedBy_eq (kept_opening e) (noted_opening e) acts
  · exact timely_of_noticed e before hx
  · obtain ⟨files, -, -, hrecorded⟩ := recorded_run hready acts
    obtain ⟨kind, -, houtcome⟩ := hrecorded.finished r x hx
    generalize (opening e).programsOf r acts = programs at houtcome
    cases houtcome.tells with
    | nothing hx hout herr => exact .inl ⟨hout, herr⟩
    | @whole p hdelivers hout herr => exact .inr ⟨p, rfl, hout, herr⟩
    | lost hlost hout herr => exact .inl ⟨hout, herr⟩

/-- Two interpreters and four requests. The first three are left running: one that succeeds, one that
ends with an error signal when its handle has been closed, and one that an exception ends when its
handle has been closed. The last one is withdrawn. -/
theorem warned_run_of_four :
    let e : Circumstances := { behaviour :=
      { programs := [("a", [{ gate := some "g" }]), ("b", [{ signal := 1 }]),
          ("c", [{ raised := some "broken" }])] } }
    let acts : List Act := [.create {} .given, .create {} .given, .start 0, .start 1,
      .call 0 0 .execute "a" none, .advance 0, .call 1 1 .parse "b" none, .advance 1,
      .call 2 0 .execute "c" none, .advance 2, .call 3 1 .execute "d" none, .advance 3, .work 0, .work 0,
      .work 1, .giveUp 0 .blocked, .giveUp 1 .task, .giveUp 3 .task, .close 1, .openGate "g", .work 0,
      .work 1, .work 0, .giveUp 2 .blocked, .close 0, .work 1, .work 0, .work 0, .work 1, .work 1, .work 0]
    Warned e acts ∧ ([0, 1, 2, 3].map ((opening e).noticesOf · acts)) = [1, 1, 1, 0] ∧
      ([0, 1, 2, 3].map fun r => (((opening e).run acts).host.result? r).map (·.status)) =
        [some .success, some .error, some .error, none] ∧
      (((opening e).run acts).host.log.filter (·.isNotice)) =
        [.notice .execute, .notice .parse, .notice .execute] := by
  intro e acts
  refine ⟨warned_run e acts, ?_, ?_, ?_⟩ <;> decide +kernel

end World

end JanetEmbedding
