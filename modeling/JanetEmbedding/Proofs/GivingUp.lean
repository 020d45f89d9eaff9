import JanetEmbedding.Proofs.Evaluations

/-!
# What a caller that gives up is told

A caller that stops waiting is told whether its evaluation is still running. This module proves that
the answer is true when it is given, and that it stays true however the run goes on.

## Main definitions

* `World.Truthful`: what the answer says of the run up to there and of every way to go on.

## Main results

* `World.truthful_giveUp`: the answer is truthful, in both manners of giving up; and a call without
  time is answered at once, in every state of its handle.
-/

namespace JanetEmbedding

namespace World

/-- A worker goes on with the request that it holds until the request is finished. -/
theorem Moves.handled {s s' : World} {a : Act} (hmoves : Moves s a s') {w r : Nat}
    (hheld : s.host.handled? w = some r) :
    s'.host.handled? w = some r ∨ ∃ x, s'.host.result? r = some x := by
  rw [Host.handled?_eq] at hheld
  obtain ⟨phase, hphase, hr⟩ := Option.bind_eq_some_iff.mp hheld
  rcases hmoves.phases w with hsame | ⟨hnone, -⟩ | ⟨worker, host, -, hworker, rfl, hdoes⟩
  · exact .inl (by rw [Host.handled?_eq, hsame, hphase]; exact hr)
  · cases hnone.symm.trans hphase
  · obtain rfl : worker.phase = phase := by simpa [Host.phase?, hworker] using hphase
    have hbraced : (s.braced w).workers[w]? = some worker := hworker
    cases hdoes with
    | leave log hserving | pass log hserving | pickUp hserving | refuse log hserving =>
        rw [hserving] at hr
        cases hr
    | evaluate hwaits =>
        rw [hwaits] at hr
        obtain rfl := Option.some.inj hr
        exact .inl (by simp [Host.handled?, hbraced, Phase.request?])
    | finish log hheld hrequest hends =>
        obtain rfl := Option.some.inj (hheld.symm.trans hr)
        exact .inr ⟨_, Host.result?_finish hrequest rfl⟩

/-- A worker goes on with the request that it holds, whatever happens, until the request is finished. -/
theorem handled_run {s : World} (hkept : s.Kept) {w r : Nat} (hheld : s.host.handled? w = some r)
    (acts : List Act) :
    (s.run acts).host.handled? w = some r ∨ ∃ x, (s.run acts).host.result? r = some x := by
  induction acts generalizing s with
  | nil => exact .inl hheld
  | cons a acts ih =>
      have hmoves := moves_step s a
      have hkept' := hmoves.kept hkept
      rcases hmoves.handled hheld with hheld | ⟨x, hx⟩
      · exact ih hkept' hheld
      · have hfinished := (onward_run hkept' acts).finished (Host.result?_eq_some_iff.mp hx)
        exact .inr ⟨x, Host.result?_eq_some_iff.mpr hfinished⟩

/-- What a caller that gives up is told of its request is **truthful**: it is true when it is told,
and whatever happens afterwards. -/
structure Truthful (e : Circumstances) (acts : List Act) (c r : Nat) (m : Manner) (x : Result) :
    Prop where
  answer : ((opening e).run (acts ++ [.giveUp c m])).answer? c = some x
  /-- The answer is that the call has been cancelled, with nothing else. -/
  cancelled : x.status = .cancelled ∧ x.value = none ∧ x.stdout = "" ∧ x.stderr = ""
  /-- It says that nothing is running when the request is still queued. -/
  queued : x.stillRunning = false ↔ ((opening e).run acts).host.progress? r = some .queued
  /-- It says that the evaluation is running when a worker has picked the request up. -/
  running : x.stillRunning = true ↔ ∃ w, ((opening e).run acts).host.handled? w = some r
  /-- A request that was queued is never evaluated. -/
  never : x.stillRunning = false → ∀ more,
    (opening e).evaluationsOf r (acts ++ .giveUp c m :: more) = 0
  /-- An evaluation that is running is not interrupted: the host stays but for a mark on the request. -/
  uninterrupted : x.stillRunning = true →
    ((opening e).run (acts ++ [.giveUp c m])).host = { ((opening e).run acts).host with
      requests := ((opening e).run acts).host.requests.modify r ({ · with abandoned := true }) }
  /-- Its worker goes on with it until it is finished. -/
  goesOn : ∀ more w, ((opening e).run acts).host.handled? w = some r →
    ((opening e).run (acts ++ .giveUp c m :: more)).host.handled? w = some r ∨
      ∃ y, ((opening e).run (acts ++ .giveUp c m :: more)).host.result? r = some y
  /-- It is not begun a second time. -/
  once : ∀ more, (opening e).evaluationsOf r (acts ++ .giveUp c m :: more) ≤ 1
  /-- Nobody gets the result. -/
  undelivered : ∀ more (d : Nat) (caller : Caller) (y : Result),
    ((opening e).run (acts ++ .giveUp c m :: more)).callers d = some caller →
      caller.standing ≠ .served r y

/-- A caller that gives up is told so, and its request is given up. -/
theorem step_giveUp {s : World} {c r : Nat} {caller : Caller} {request : Request} (m : Manner)
    (hcaller : s.callers c = some caller) (hstanding : caller.standing = .waiting r)
    (hrequest : s.host.requests[r]? = some request) :
    s.step (.giveUp c m) = { s with host := s.host.updateRequest r fun _ => request.giveUp.2 }.put c
      caller (.gone r request.giveUp.1) := by
  simp only [step, giveUp, hcaller, hstanding, Host.leave_eq_giveUp, Host.giveUp_eq hrequest]

/-- Setting the mark of a request. -/
theorem modify_const_of_eq {requests : List Request} {r : Nat} {request : Request}
    (hrequest : requests[r]? = some request) (f : Request → Request) :
    requests.modify r (fun _ => f request) = requests.modify r f := by
  refine List.ext_getElem? fun v => ?_
  by_cases hne : v = r
  · subst hne
    simp [hrequest]
  · rw [List.getElem?_modify_ne _ _ (Ne.symm hne), List.getElem?_modify_ne _ _ (Ne.symm hne)]

/-- A caller that has given its request up stays without a result, and so do the others. -/
theorem undelivered_of_gone {s : World} (hledger : s.Ledger) {c r : Nat} {caller : Caller}
    {x : Result} (hcaller : s.callers c = some caller) (hgone : caller.standing = .gone r x)
    (more : List Act) {d : Nat} {other : Caller} (hother : (s.run more).callers d = some other)
    (y : Result) : other.standing ≠ .served r y := by
  intro hserved
  have honward := onward_run hledger.kept more
  obtain ⟨caller', hcaller', -, -, -, hleads, -⟩ := honward.callers c caller hcaller
  have hstays : caller'.standing = .gone r x := by
    rw [hleads (by rw [hgone]; rfl), hgone]
  obtain rfl : c = d := (ledger_run hledger more).caller_inj (r := r) hcaller' hother
    (by rw [hstays]; rfl) (by rw [hserved]; rfl)
  obtain rfl := Option.some.inj (hcaller'.symm.trans hother)
  cases hstays.symm.trans hserved

/-- A request that is queued when its caller gives it up has not been evaluated, and never is. -/
theorem evaluationsOf_of_withdrawn (e : Circumstances) {acts : List Act} {a : Act} {r : Nat}
    (hqueued : ((opening e).run acts).host.progress? r = some .queued)
    (hwithdrawn : ((opening e).run (acts ++ [a])).host.progress? r = some .withdrawn)
    (more : List Act) : (opening e).evaluationsOf r (acts ++ a :: more) = 0 := by
  have hkept := kept_run (kept_opening e) acts
  have htallied := (tallied_opening e).run (kept_opening e) acts
  rw [run_append] at hwithdrawn
  have hunspent : ¬ ((opening e).run acts).Spent r := fun ⟨⟨p, hp, hne⟩, _⟩ =>
    hne (Option.some.inj (hp.symm.trans hqueued))
  have hbefore : (opening e).evaluationsOf r acts = 0 := by simpa using htallied.unspent r hunspent
  have hafter : (((opening e).run acts).step a).evaluationsOf r more = 0 :=
    evaluationsOf_eq_zero (kept_run hkept [a]) (spent_of_settled (kept_run hkept [a]) hwithdrawn rfl)
      more
  rw [evaluationsOf_append, evaluationsOf_cons, hbefore, hafter]
  rcases evaluationsOf_step ((opening e).run acts) r a with hzero | ⟨-, hsame, -⟩
  · rw [hzero]
  · have heq : ((opening e).run acts).host.progress? r = some .withdrawn := by
      rw [← hsame]
      exact hwithdrawn
    cases hqueued.symm.trans heq

section Truthful

variable {e : Circumstances} {acts : List Act} {c r : Nat} {caller : Caller} {request : Request}

/-- Nobody gets the result of a request that its caller gives up. -/
theorem undelivered_giveUp (m : Manner) (hcaller : ((opening e).run acts).callers c = some caller)
    (hstanding : caller.standing = .waiting r)
    (hrequest : ((opening e).run acts).host.requests[r]? = some request) (more : List Act) (d : Nat)
    (other : Caller) (y : Result)
    (hother : ((opening e).run (acts ++ .giveUp c m :: more)).callers d = some other) :
    other.standing ≠ .served r y := by
  have hledger := ledger_run (ledger_opening e) (acts ++ [.giveUp c m])
  have hgone : ((opening e).run (acts ++ [.giveUp c m])).callers c =
      some { caller with standing := .gone r request.giveUp.1 } := by
    rw [run_append, run_cons, run_nil, step_giveUp m hcaller hstanding hrequest, put_self]
  rw [← List.singleton_append, ← List.append_assoc, run_append] at hother
  exact undelivered_of_gone hledger hgone rfl more hother y

/-- The worker of a request goes on with it when its caller gives it up. -/
theorem goesOn_giveUp (e : Circumstances) (acts : List Act) (c : Nat) (m : Manner) (more : List Act)
    (w : Nat) (hheld : ((opening e).run acts).host.handled? w = some r) :
    ((opening e).run (acts ++ .giveUp c m :: more)).host.handled? w = some r ∨
      ∃ y, ((opening e).run (acts ++ .giveUp c m :: more)).host.result? r = some y := by
  rw [run_append]
  exact handled_run (kept_run (kept_opening e) acts) hheld (.giveUp c m :: more)

/-- No request is evaluated twice. -/
theorem evaluationsOf_le_one (e : Circumstances) (acts : List Act) (r : Nat) :
    (opening e).evaluationsOf r acts ≤ 1 := by
  simpa using ((tallied_opening e).run (kept_opening e) acts).le_one r

/-- A caller that gives up while its request is queued is told the truth. -/
theorem truthful_of_queued (m : Manner) (hcaller : ((opening e).run acts).callers c = some caller)
    (hstanding : caller.standing = .waiting r)
    (hrequest : ((opening e).run acts).host.requests[r]? = some request)
    (hqueued : request.progress = .queued) : Truthful e acts c r m (.expired false) := by
  have hkept := kept_run (kept_opening e) acts
  have hp : ((opening e).run acts).host.progress? r = some .queued := by
    simp [Host.progress?, hrequest, hqueued]
  have hgiveUp : request.giveUp = (.expired false, { request with progress := .withdrawn }) := by
    rw [Request.giveUp, hqueued]
  have hrun := (run_append _ acts [.giveUp c m]).trans (step_giveUp m hcaller hstanding hrequest)
  rw [hgiveUp] at hrun
  have hidle : ¬ ∃ w, ((opening e).run acts).host.handled? w = some r := by
    rintro ⟨w, hheld⟩
    cases hp.symm.trans (hkept.progress_of_handled hheld)
  have hwithdrawn : ((opening e).run (acts ++ [.giveUp c m])).host.progress? r = some .withdrawn := by
    rw [hrun, put_host, Host.progress?_updateRequest hrequest, Function.update_self]
  have hanswer : ((opening e).run (acts ++ [.giveUp c m])).answer? c = some (.expired false) := by
    simp [hrun, answer?, Standing.answer?]
  exact {
    answer := hanswer
    cancelled := ⟨rfl, rfl, rfl, rfl⟩
    queued := iff_of_true rfl hp
    running := iff_of_false (by simp [Result.expired]) hidle
    never := fun _ => evaluationsOf_of_withdrawn e hp hwithdrawn
    uninterrupted := by simp [Result.expired]
    goesOn := goesOn_giveUp e acts c m
    once := fun _ => evaluationsOf_le_one ..
    undelivered := undelivered_giveUp m hcaller hstanding hrequest }

/-- A caller that gives up while its request is running is told the truth. -/
theorem truthful_of_running (m : Manner) (hcaller : ((opening e).run acts).callers c = some caller)
    (hstanding : caller.standing = .waiting r)
    (hrequest : ((opening e).run acts).host.requests[r]? = some request)
    (hrunning : request.progress = .running) : Truthful e acts c r m (.expired true) := by
  have hkept := kept_run (kept_opening e) acts
  have hp : ((opening e).run acts).host.progress? r = some .running := by
    simp [Host.progress?, hrequest, hrunning]
  have hgiveUp : request.giveUp = (.expired true, { request with abandoned := true }) := by
    rw [Request.giveUp, hrunning]
  have hrun := (run_append _ acts [.giveUp c m]).trans (step_giveUp m hcaller hstanding hrequest)
  rw [hgiveUp] at hrun
  have hhost : ((opening e).run (acts ++ [.giveUp c m])).host = { ((opening e).run acts).host with
      requests := ((opening e).run acts).host.requests.modify r ({ · with abandoned := true }) } := by
    rw [hrun, put_host, Host.updateRequest, modify_const_of_eq hrequest ({ · with abandoned := true })]
  have hanswer : ((opening e).run (acts ++ [.giveUp c m])).answer? c = some (.expired true) := by
    simp [hrun, answer?, Standing.answer?]
  exact {
    answer := hanswer
    cancelled := ⟨rfl, rfl, rfl, rfl⟩
    queued := iff_of_false (by simp [Result.expired]) (by simp [hp])
    running := iff_of_true rfl (hkept.exists_handled hp)
    never := by simp [Result.expired]
    uninterrupted := fun _ => hhost
    goesOn := goesOn_giveUp e acts c m
    once := fun _ => evaluationsOf_le_one ..
    undelivered := undelivered_giveUp m hcaller hstanding hrequest }

/-- A caller that gives up before its request is finished is told the truth. -/
theorem truthful_of_waiting (m : Manner) (hcaller : ((opening e).run acts).callers c = some caller)
    (hstanding : caller.standing = .waiting r)
    (hunfinished : ((opening e).run acts).host.result? r = none) : ∃ x, Truthful e acts c r m x := by
  have hledger := ledger_run (ledger_opening e) acts
  have hr : caller.standing.request? = some r := by rw [hstanding]; rfl
  obtain ⟨-, request, -, -, -, hrequest, -⟩ :=
    hledger.ticket r _ (hledger.holds c caller r hcaller hr)
  have hwaits := hledger.fits c caller hcaller
  rw [hstanding] at hwaits
  obtain ⟨p, hp, hwithdrawn⟩ := hwaits
  obtain rfl : request.progress = p := by simpa [Host.progress?, hrequest] using hp
  cases hprogress : request.progress with
  | queued => exact ⟨_, truthful_of_queued m hcaller hstanding hrequest hprogress⟩
  | running => exact ⟨_, truthful_of_running m hcaller hstanding hrequest hprogress⟩
  | withdrawn => exact absurd hprogress hwithdrawn
  | finished y =>
      rw [hprogress] at hp
      cases hunfinished.symm.trans (Host.result?_eq_some_iff.mpr hp)

end Truthful

/-! ### Calls without time -/

/-- A call that is answered at once does not do anything any more. -/
theorem step_of_dismissed {s : World} {c : Nat} {caller : Caller} {x : Result}
    (hcaller : s.callers c = some caller) (hstanding : caller.standing = .dismissed x) {a : Act}
    (ha : a.caller? = some c) : s.step a = s := by
  have hmoves := moves_step s a
  generalize s.step a = s' at hmoves ⊢
  cases hmoves.proceeds ha hcaller with
  | stays => rfl
  | starts hother | turned hother | accepted hother | served hother | left hother =>
      cases hother.symm.trans hstanding

/-- The action with which a call begins is all that there is to it: it leaves the host as it is,
nothing is queued, and the caller is answered for good. -/
structure AtOnce (s : World) (c : Nat) (a : Act) (x : Result) : Prop where
  host : (s.step a).host = s.host
  tickets : (s.step a).tickets = s.tickets
  answer : ∀ more, (s.run (a :: more)).answer? c = some x
  /-- The caller does nothing any more. -/
  stays : ∀ more b, b.caller? = some c → (s.run (a :: more)).step b = s.run (a :: more)

/-- A call without time is answered at once, whatever the state of its handle. -/
theorem atOnce_of_expired {s : World} (hkept : s.Kept) {c id : Nat} {handle : Handle}
    {timeout : Option Seconds} (kind : RequestKind) (source : Text) (hnew : s.callers c = none)
    (hhandle : s.host.handles[id]? = some handle)
    (hover : (Host.patience handle timeout).any (·.isOver) = true) :
    AtOnce s c (.call c id kind source timeout) (.expired false) := by
  have hstep : s.step (.call c id kind source timeout) =
      s.put c ⟨id, kind, source, .submitting⟩ (.dismissed (.expired false)) := by
    simp [step, look, hnew, hhandle, hover]
  have hafter : ∀ more, ∃ caller, (s.run (.call c id kind source timeout :: more)).callers c =
      some caller ∧ caller.standing = .dismissed (.expired false) := fun more => by
    have honward := onward_run (kept_run hkept [.call c id kind source timeout]) more
    obtain ⟨caller, hcaller, -, -, -, hleads, -⟩ := honward.callers c _ (by
      rw [run_cons, run_nil, hstep, put_self])
    exact ⟨caller, hcaller, hleads rfl⟩
  refine ⟨by rw [hstep, put_host], by rw [hstep, put_tickets], fun more => ?_, fun more b hb => ?_⟩
  · obtain ⟨caller, hcaller, hstanding⟩ := hafter more
    simp only [answer?, hcaller, Option.bind_some, hstanding, Standing.answer?]
  · obtain ⟨caller, hcaller, hstanding⟩ := hafter more
    exact step_of_dismissed hcaller hstanding hb

/-- **A caller that gives up is told the truth.** In every run, a caller whose request is not
finished when it stops waiting is told truthfully whether its evaluation is running; and a call
without time is answered at once. -/
theorem truthful_giveUp (e : Circumstances) (acts : List Act) :
    let s := (opening e).run acts
    (∀ (c r : Nat) (m : Manner) (caller : Caller), s.callers c = some caller →
      caller.standing = .waiting r → s.host.result? r = none → ∃ x, Truthful e acts c r m x) ∧
    ∀ (c id : Nat) (handle : Handle) (kind : RequestKind) (source : Text) (timeout : Option Seconds),
      s.callers c = none → s.host.handles[id]? = some handle →
        (Host.patience handle timeout).any (·.isOver) = true →
          AtOnce s c (.call c id kind source timeout) (.expired false) := by
  intro s
  refine ⟨fun c r m caller hcaller hstanding hunfinished => ?_,
    fun c id handle kind source timeout => ?_⟩
  · exact truthful_of_waiting m hcaller hstanding hunfinished
  · exact atOnce_of_expired (kept_run (kept_opening e) acts) kind source

/-- A caller that has a request, and has not been told anything, waits. -/
theorem exists_waiting {s : World} {c r : Nat}
    (h : (s.callers c).map (fun x => (x.standing.request?, x.standing.answer?.isNone)) =
      some (some r, true)) : ∃ caller, s.callers c = some caller ∧ caller.standing = .waiting r := by
  obtain ⟨caller, hcaller, h⟩ := Option.map_eq_some_iff.mp h
  refine ⟨caller, hcaller, ?_⟩
  cases hstanding : caller.standing <;>
    simp [hstanding, Standing.request?, Standing.answer?] at h ⊢
  exact h

/-- One caller gives up while the interpreter evaluates its request, and another while its request
is queued: both are told the truth. A third one has no time. -/
theorem truthful_giveUp_of_three :
    let e : Circumstances := { behaviour := { programs := [("a", [{ value := .nil .usual }])] } }
    let acts : List Act := [.create {} .given, .start 0, .call 0 0 .execute "a" none, .advance 0,
      .call 1 0 .parse "a" none, .advance 1, .work 0, .work 0]
    ([0, 1].map fun c => (((opening e).run (acts ++ [.giveUp c .task])).answer? c).map
      (·.stillRunning)) = [some true, some false] ∧
    (∃ x, Truthful e acts 0 0 .task x) ∧ (∃ x, Truthful e acts 1 1 .blocked x) ∧
    AtOnce ((opening e).run acts) 2 (.call 2 0 .execute "a" (some (.whole 0))) (.expired false) := by
  intro e acts
  obtain ⟨htruthful, hatOnce⟩ := truthful_giveUp e acts
  have hwaits : ([0, 1, 2].map fun c => (((opening e).run acts).callers c).map fun x =>
      (x.standing.request?, x.standing.answer?.isNone)) =
        [some (some 0, true), some (some 1, true), none] := by decide +kernel
  have hunfinished : ([0, 1].map fun r => (((opening e).run acts).host.result? r).isNone) =
      [true, true] := by decide +kernel
  have hhandle : (((opening e).run acts).host.handles[0]?).isSome := by decide +kernel
  simp only [List.map_cons, List.map_nil, List.cons.injEq, and_true, Option.isNone_iff_eq_none,
    Option.map_eq_none_iff] at hwaits hunfinished
  obtain ⟨caller, hcaller, hstanding⟩ := exists_waiting hwaits.1
  obtain ⟨caller', hcaller', hstanding'⟩ := exists_waiting hwaits.2.1
  obtain ⟨handle, hhandle⟩ := Option.isSome_iff_exists.mp hhandle
  refine ⟨by decide +kernel, ?_, ?_, ?_⟩
  · exact htruthful 0 0 .task caller hcaller hstanding hunfinished.1
  · exact htruthful 1 1 .blocked caller' hcaller' hstanding' hunfinished.2
  · exact hatOnce 2 0 handle .execute "a" (some (.whole 0)) hwaits.2.2 hhandle rfl

end World

end JanetEmbedding
