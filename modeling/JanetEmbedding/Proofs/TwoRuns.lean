import JanetEmbedding.Proofs.Closing
import JanetEmbedding.Proofs.Forgetting
import Mathlib.Data.List.Basic

/-!
# Giving up is invisible to everybody else

Two runs that differ in one caller only are compared. If its request is withdrawn before it is
picked up, or its call is answered without a request, the run in which the caller is not there at
all comes to the same for all others. And if its request has been picked up, it makes no difference
to them whether it goes on waiting or gives up, and when.

## Conventions

* What can be **seen** by the others are the calls of the interpreters, in order, and what each of
  them is told. How long a queue is, and what the log says, is not.
* When a call is left out, so are the steps with which a worker passes its request over.

## Main definitions

* `World.Alike`: two worlds that are alike for all but one caller.
* `World.Indistinct`: what can be seen of two worlds is the same.
* `World.without`: what is left of a run without a call.
* `World.Void`: a call that comes to nothing.

## Main results

* `World.Alike.step`: what the others do keeps two worlds alike.
* `World.Apart.run`: a run in which a caller comes to nothing, and the run without it.
* `World.Alike.run`: a run in which a caller waits or gives up, and the run in which it does nothing.
* `World.indistinct_run`: what can be seen is the same.
-/

namespace JanetEmbedding

/-! ### Callers when a gap is closed -/

/-- Where a caller stands, when the gap is closed. -/
def Standing.renumber (gap : Option Nat) : Standing → Standing
  | waiting r => waiting (JanetEmbedding.renumber gap r)
  | served r x => served (JanetEmbedding.renumber gap r) x
  | gone r x => gone (JanetEmbedding.renumber gap r) x
  | st => st

@[simp] theorem Standing.renumber_unstarted (gap : Option Nat) (f : Fault) :
    (unstarted f).renumber gap = unstarted f := by
  rcases unstarted_cases f with h | h <;> rw [h] <;> rfl

/-- A caller, when the gap is closed. -/
def Caller.renumber (gap : Option Nat) (caller : Caller) : Caller :=
  { caller with standing := caller.standing.renumber gap }

/-- A worker that knows of smaller numbers only. -/
theorem Worker.forget_of_lt {worker : Worker} {k : Nat} (hqueue : ∀ r ∈ worker.requests, r < k)
    (hheld : ∀ r, worker.phase.request? = some r → r < k) : worker.forget (some k) = worker := by
  have hrenumber : ∀ {r}, r < k → renumber (some k) r = r := fun hlt => if_neg (Nat.lt_asymm hlt)
  have hitems : worker.queue.filterMap (Item.forget? (some k)) = worker.queue := by
    refine (List.filterMap_congr fun item hitem => ?_).trans List.filterMap_some
    cases item with
    | stop => rfl
    | request r =>
        have hlt := hqueue r (Worker.mem_requests.mpr hitem)
        rw [Item.forget?_of_ne (by simp [Nat.ne_of_gt hlt]), hrenumber hlt]
  have hphase : worker.phase.renumber (some k) = worker.phase := by
    cases hphase : worker.phase with
    | created | serving | stopped | failed => rfl
    | waiting r | evaluating r =>
        rw [Phase.renumber, hrenumber (hheld r (by rw [hphase]; rfl))]
  rw [Worker.forget, hitems, hphase]

/-- What a caller has been told has no number in it. -/
@[simp] theorem Standing.answer?_renumber (gap : Option Nat) (st : Standing) :
    (st.renumber gap).answer? = st.answer? := by
  cases st <;> rfl

@[simp] theorem Standing.renumber_none (st : Standing) : st.renumber none = st := by
  cases st <;> rfl

@[simp] theorem Caller.renumber_none : Caller.renumber none = id := by
  funext caller
  simp [Caller.renumber]

namespace World

/-- The request of a caller, if its call was accepted. -/
def requestOf? (s : World) (c : Nat) : Option Nat := (s.callers c).bind (·.standing.request?)

/-- Two worlds that are **alike** for all but one caller, up to a gap. -/
structure Alike (gap : Option Nat) (c : Nat) (s s' : World) : Prop where
  host : Host.Like gap s.host s'.host
  tickets : s'.tickets = closeGap gap s.tickets
  callers : ∀ d, d ≠ c → s'.callers d = (s.callers d).map (Caller.renumber gap)
  refusals : s'.refusals = s.refusals

/-- What can be **seen** of two worlds by all but one caller is the same. -/
structure Indistinct (c : Nat) (s s' : World) : Prop where
  trace : s'.host.trace = s.host.trace
  answer : ∀ d, d ≠ c → s'.answer? d = s.answer? d

namespace Alike

variable {gap : Option Nat} {c d w : Nat} {s s' : World} {a : Act}

theorem refl (c : Nat) (s : World) : Alike none c s s := by
  refine ⟨.refl _, rfl, fun d _ => ?_, rfl⟩
  simp

theorem indistinct (h : Alike gap c s s') : Indistinct c s s' := by
  refine ⟨h.host.trace, fun d hd => ?_⟩
  rw [answer?, answer?, h.callers d hd, Option.bind_map]
  simp [Function.comp_def, Caller.renumber]

/-- The hosts change. -/
theorem changeHost (h : Alike gap c s s') {host host' : Host} (hhost : Host.Like gap host host') :
    Alike gap c { s with host } { s' with host := host' } :=
  ⟨hhost, h.tickets, h.callers, h.refusals⟩

/-- Another caller moves. -/
theorem put (h : Alike gap c s s') (d : Nat) (caller : Caller) (standing : Standing) :
    Alike gap c (s.put d caller standing)
      (s'.put d (caller.renumber gap) (standing.renumber gap)) := by
  refine ⟨h.host, h.tickets, fun x hx => ?_, h.refusals⟩
  by_cases hne : x = d
  · subst hne
    rw [put_self, put_self]
    rfl
  · rw [put_of_ne hne, put_of_ne hne, h.callers x hx]

/-- The caller itself moves. -/
theorem put_self (h : Alike gap c s s') {caller : Caller} {standing : Standing} :
    Alike gap c (s.put c caller standing) s' :=
  ⟨h.host, h.tickets, fun x hx => by rw [put_of_ne hx, h.callers x hx], h.refusals⟩

/-- Another caller, in both worlds. -/
theorem caller (h : Alike gap c s s') (hd : d ≠ c) :
    s.callers d = none ∧ s'.callers d = none ∨
      ∃ caller, s.callers d = some caller ∧ s'.callers d = some (caller.renumber gap) := by
  rw [h.callers d hd]
  cases s.callers d with
  | none => exact .inl ⟨rfl, rfl⟩
  | some caller => exact .inr ⟨caller, rfl, rfl⟩

/-! ### What the others do -/

/-- A call of another caller begins. -/
theorem look (h : Alike gap c s s') (hd : d ≠ c) (id : Nat) (kind : RequestKind) (source : Text)
    (timeout : Option Seconds) :
    Alike gap c (s.look d id kind source timeout) (s'.look d id kind source timeout) := by
  rw [World.look, World.look, h.host.handles]
  rcases h.caller hd with ⟨hnew, hnew'⟩ | ⟨caller, hcaller, hcaller'⟩
  · rw [hnew, hnew']
    cases hhandle : s.host.handles[id]? with
    | none => exact h
    | some handle =>
        have hput := h.put d ⟨id, kind, source, .submitting⟩
        dsimp only
        split
        · exact hput (.dismissed _)
        · cases handle.state with
          | fresh => exact hput .starting
          | running w | closed w => exact hput .submitting
  · rw [hcaller, hcaller']
    exact h

/-- Another caller goes on. -/
theorem advance (h : Alike gap c s s') (hd : d ≠ c) (hgap : GapIn gap s.host.requests)
    (hsize : s.tickets.length = s.host.requests.length) :
    Alike gap c (s.advance d) (s'.advance d) := by
  rw [World.advance, World.advance]
  rcases h.caller hd with ⟨hnew, hnew'⟩ | ⟨⟨id, kind, source, standing⟩, hcaller, hcaller'⟩
  · rw [hnew, hnew']
    exact h
  rw [hcaller, hcaller']
  cases standing with
  | dismissed | raised | waiting | served | gone => exact h
  | starting =>
      obtain ⟨hfault, hhost⟩ := h.host.start id
      simp only [Caller.renumber, Standing.renumber]
      rcases hleft : s.host.start id with ⟨f, host⟩
      rcases hright : s'.host.start id with ⟨f', host'⟩
      rw [hleft, hright] at hfault hhost
      obtain rfl : f' = f := hfault
      cases f' with
      | none => exact (h.changeHost hhost).put d _ .submitting
      | some f =>
          have hput := (h.changeHost hhost).put d ⟨id, kind, source, .starting⟩ (.unstarted f)
          rwa [Standing.renumber_unstarted] at hput
  | submitting =>
      simp only [Caller.renumber, Standing.renumber]
      rcases h.host.submit hgap id kind source with
        ⟨x, hleft, hright⟩ | ⟨host, host', hleft, hright, hhost⟩
      · rw [hleft, hright]
        exact h.put d _ (.dismissed x)
      · rw [hleft, hright]
        have htickets : s'.tickets ++ [Ticket.mk d id] =
            closeGap gap (s.tickets ++ [Ticket.mk d id]) := by
          rw [closeGap_append (fun k hk => hsize ▸ hgap k hk), h.tickets]
        have haccepted : Alike gap c
            { s with host, tickets := s.tickets ++ [Ticket.mk d id] }
            { s' with host := host', tickets := s'.tickets ++ [Ticket.mk d id] } :=
          ⟨hhost, htickets, h.callers, h.refusals⟩
        exact haccepted.put d _ (.waiting s.host.requests.length)

/-- A request of another caller is not that of the gap. -/
def Others (gap : Option Nat) (c : Nat) (s : World) : Prop :=
  ∀ d caller r, d ≠ c → s.callers d = some caller → caller.standing.request? = some r → gap ≠ some r

/-- Another caller gets its result. -/
theorem receive (h : Alike gap c s s') (hothers : Others gap c s) (hd : d ≠ c) :
    Alike gap c (s.receive d) (s'.receive d) := by
  rw [World.receive, World.receive]
  rcases h.caller hd with ⟨hnew, hnew'⟩ | ⟨⟨id, kind, source, standing⟩, hcaller, hcaller'⟩
  · rw [hnew, hnew']
    exact h
  have hr := fun r => hothers d _ r hd hcaller
  rw [hcaller, hcaller']
  cases standing with
  | starting | submitting | dismissed | raised | served | gone => exact h
  | waiting r =>
      simp only [Caller.renumber, Standing.renumber, h.host.result? (hr r rfl)]
      cases s.host.result? r with
      | none => exact h
      | some x => exact h.put d _ (.served r x)

/-- Another caller stops waiting. -/
theorem giveUp (h : Alike gap c s s') (hothers : Others gap c s) (hd : d ≠ c) (m : Manner) :
    Alike gap c (s.giveUp d m) (s'.giveUp d m) := by
  rw [World.giveUp, World.giveUp]
  rcases h.caller hd with ⟨hnew, hnew'⟩ | ⟨⟨id, kind, source, standing⟩, hcaller, hcaller'⟩
  · rw [hnew, hnew']
    exact h
  have hr := fun r => hothers d _ r hd hcaller
  rw [hcaller, hcaller']
  cases standing with
  | starting | submitting | dismissed | raised | served | gone => exact h
  | waiting r =>
      obtain ⟨hanswer, hhost⟩ := h.host.giveUp (hr r rfl)
      simp only [Caller.renumber, Standing.renumber, Host.leave_eq_giveUp, hanswer]
      exact (h.changeHost hhost).put d _ (.gone r _)

/-- What the system refuses to the capture that a worker may be about to begin is the same. -/
theorem refusal_braced (h : Alike gap c s s') (hnext : ∀ k ∈ gap, s.host.next? w ≠ some k) :
    (s'.braced w).refusal = (s.braced w).refusal := by
  have hrefusals : (s'.host.next? w).map s'.refusalOf = (s.host.next? w).map s.refusalOf := by
    rw [h.host.next? hnext]
    cases hr : s.host.next? w with
    | none => rfl
    | some r =>
        have hother : gap ≠ some r := fun heq => hnext r heq hr
        simp only [Option.map_some, refusalOf, h.tickets, h.refusals, getElem?_closeGap hother]
  exact congrArg (Option.getD · {}) hrefusals

/-- A worker does something else than to take the request of the gap. -/
theorem work (h : Alike gap c s s') (hnext : ∀ k ∈ gap, s.host.next? w ≠ some k)
    (hheld : ∀ k ∈ gap, s.host.handled? w ≠ some k) : Alike gap c (s.work w) (s'.work w) := by
  have hbraced : Host.Like gap (s.braced w) (s'.braced w) := h.host
  have hstep := hbraced.work? (h.refusal_braced hnext) hnext hheld
  rw [World.work, World.work]
  generalize (s.braced w).work? w = host? at hstep ⊢
  generalize (s'.braced w).work? w = host?' at hstep ⊢
  cases hstep with
  | none => exact h
  | some hhost => exact h.changeHost hhost

/-- **What the others do**, and the workers that do not handle the request of the gap. -/
theorem step (h : Alike gap c s s') (hothers : Others gap c s) (hgap : GapIn gap s.host.requests)
    (hsize : s.tickets.length = s.host.requests.length) (ha : a.caller? ≠ some c)
    (hnext : ∀ k ∈ gap, ∀ w, a = .work w → s.host.next? w ≠ some k)
    (hheld : ∀ k ∈ gap, ∀ w, s.host.handled? w ≠ some k) : Alike gap c (s.step a) (s'.step a) := by
  have hd : ∀ {d}, a.caller? = some d → d ≠ c := by
    rintro d hd rfl
    exact ha hd
  cases a with
  | create config source => exact h.changeHost (h.host.addHandle config source)
  | share config source => exact h.changeHost (h.host.share config source)
  | start id => exact h.changeHost (h.host.start id).2
  | call d id kind source timeout => exact h.look (hd rfl) id kind source timeout
  | advance d => exact h.advance (hd rfl) hgap hsize
  | receive d => exact h.receive hothers (hd rfl)
  | giveUp d m => exact h.giveUp hothers (hd rfl) m
  | close id => exact h.changeHost h.host.requestClose
  | answerClose w timeout =>
      have hhost : Host.Like gap (s.host.answerClose (some w) timeout).2
          (s'.host.answerClose (some w) timeout).2 := by
        simp only [Host.answerClose]
        split <;> split <;> exact h.host
      exact h.changeHost hhost
  | work w => exact h.work (fun k hk => hnext k hk w rfl) fun k hk => hheld k hk w
  | openGate gate =>
      exact h.changeHost (h.host.change (f := (·.openGate gate)) fun _ _ => rfl)

end Alike

/-! ### The request of a caller -/


/-- Whether the request of a caller has been **picked up**. -/
def Picked (s : World) (c : Nat) : Prop :=
  ∃ r p, s.requestOf? c = some r ∧ s.host.progress? r = some p ∧ p.isPicked = true

/-- A caller keeps its request. -/
theorem Onward.requestOf? {s s' : World} (h : Onward s s') {c r : Nat} (hr : s.requestOf? c = some r) :
    s'.requestOf? c = some r := by
  obtain ⟨caller, hcaller, hr⟩ := Option.bind_eq_some_iff.mp hr
  obtain ⟨caller', hcaller', -, -, -, -, hrequest⟩ := h.callers c caller hcaller
  exact Option.bind_eq_some_iff.mpr ⟨caller', hcaller', hrequest r hr⟩

/-- What has been picked up stays so. -/
theorem Onward.picked {s s' : World} (h : Onward s s') {c : Nat} (hpicked : s.Picked c) :
    s'.Picked c := by
  obtain ⟨r, p, hr, hp, hpicked⟩ := hpicked
  obtain ⟨p', hp', hleads⟩ := h.progress r p hp
  exact ⟨r, p', h.requestOf? hr, hp', hleads.isPicked hpicked⟩

/-- A caller that is not there, or moves no request, has none. -/
theorem requestOf?_put (s : World) (c : Nat) (caller : Caller) (standing : Standing) :
    (s.put c caller standing).requestOf? c = standing.request? := by
  simp [World.requestOf?]

theorem requestOf?_eq {s : World} {c : Nat} {caller : Caller} (hcaller : s.callers c = some caller) :
    s.requestOf? c = caller.standing.request? := by
  rw [World.requestOf?, hcaller, Option.bind_some]

namespace Ledger

variable {s : World} {c : Nat}

/-- No two callers have the same request. -/
theorem others (h : s.Ledger) : Alike.Others (s.requestOf? c) c s := by
  intro d other r hd hother hr heq
  obtain ⟨caller, hcaller, hr'⟩ := Option.bind_eq_some_iff.mp heq
  exact hd (h.caller_inj hother hcaller hr hr')

/-- There are as many tickets as requests. -/
theorem length_tickets (h : s.Ledger) : s.tickets.length = s.host.requests.length := by
  have hsize := Host.Kept.size h.kept
  rwa [owners, List.length_map] at hsize

/-- The request of a caller is one of the requests. -/
theorem gapIn (h : s.Ledger) : GapIn (s.requestOf? c) s.host.requests := by
  intro r hr
  obtain ⟨caller, hcaller, hr⟩ := Option.bind_eq_some_iff.mp hr
  rw [← h.length_tickets]
  exact (List.getElem?_eq_some_iff.mp (h.holds c caller r hcaller hr)).1

/-- No worker knows of a request that has not come. -/
theorem forget_new (h : s.Ledger) {worker : Worker} (hworker : worker ∈ s.host.workers) :
    worker.forget (some s.host.requests.length) = worker := by
  obtain ⟨w, hworker⟩ := List.getElem?_of_mem hworker
  by_cases hfree : ∀ id, s.host.workerOf? id ≠ some w
  · obtain ⟨hended, hqueue⟩ := Host.Kept.idle h.kept w worker hworker hfree
    refine Worker.forget_of_lt (by simp [Worker.requests, hqueue]) fun r hr => ?_
    cases hphase : worker.phase <;> simp_all [Phase.request?, Phase.hasEnded]
  · obtain ⟨id, hid⟩ := not_forall_not.mp hfree
    have hcharged := Host.Kept.charged h.kept hid hworker
    refine Worker.forget_of_lt (fun r hr => ?_) fun r hr => ?_
    · exact Host.Kept.lt_of_mem_placesOf h.kept (hcharged.mem_places_of_mem_requests hr)
    · have hheld : s.host.handled? w = some r := by simp [Host.handled?, hworker, hr]
      exact Host.Kept.lt_of_mem_placesOf h.kept (Host.Kept.mem_placesOf_of_handled h.kept hid hheld)

/-- Nor does a caller. -/
theorem renumber_new (h : s.Ledger) {caller : Caller} (hcaller : s.callers c = some caller) :
    caller.renumber (some s.host.requests.length) = caller := by
  have hrequest : ∀ r, caller.standing.request? = some r → r < s.host.requests.length := fun r hr =>
    h.gapIn r ((requestOf?_eq hcaller).trans hr)
  obtain ⟨id, kind, source, standing⟩ := caller
  cases standing with
  | starting | submitting | dismissed | raised => rfl
  | waiting r | served r | gone r =>
      have hsame : JanetEmbedding.renumber (some s.host.requests.length) r = r :=
        if_neg (Nat.lt_asymm (hrequest r rfl))
      simp only [Caller.renumber, Standing.renumber, hsame]

/-- A worker that handles the request of a caller has picked it up. -/
theorem picked_of_handled (h : s.Ledger) {r w : Nat} (hr : s.requestOf? c = some r)
    (hheld : s.host.handled? w = some r) : s.Picked c :=
  ⟨r, .running, hr, Host.Kept.progress_of_handled h.kept hheld, rfl⟩

end Ledger

/-! ### A caller that comes to nothing -/

/-- Whether an action is a step of a call: its caller does it, or a worker that takes its request. -/
def concerns (s : World) (c : Nat) : Act → Bool
  | .work w => (s.requestOf? c).any fun r => s.host.next? w = some r
  | a => a.caller? = some c

/-- What such an action is. -/
theorem cases_of_concerns {s : World} {c : Nat} {a : Act} (h : s.concerns c a = true) :
    a.caller? = some c ∨
      ∃ w r, a = .work w ∧ s.requestOf? c = some r ∧ s.host.next? w = some r := by
  cases a with
  | work w =>
      obtain ⟨r, hr, hnext⟩ := (Option.any_eq_true ..).mp h
      exact .inr ⟨w, r, rfl, hr, by simpa using hnext⟩
  | create | share | start | call | advance | receive | giveUp | close | answerClose | openGate =>
      exact .inl (by simpa [concerns] using h)

/-- What is left of a run **without** a call. -/
def without (s : World) (c : Nat) : List Act → List Act
  | [] => []
  | a :: acts =>
    if s.concerns c a then (s.step a).without c acts else a :: (s.step a).without c acts

/-- Two worlds that are alike, of which the second knows nothing of a caller that has found its
handle started in the first. -/
structure Apart (c : Nat) (s s' : World) : Prop where
  alike : Alike (s.requestOf? c) c s s'
  begun : ∃ caller, s.callers c = some caller ∧ caller.standing ≠ .starting

namespace Apart

variable {c w r : Nat} {s s' : World} {caller : Caller} {a : Act}

/-- The caller moves with the request that it has, if it has any. -/
theorem put (h : Apart c s s') (hcaller : s.callers c = some caller) {standing : Standing}
    (hrequest : standing.request? = caller.standing.request?) (hne : standing ≠ .starting) :
    Apart c (s.put c caller standing) s' := by
  refine ⟨?_, _, put_self .., hne⟩
  rw [requestOf?_put, hrequest, ← requestOf?_eq hcaller]
  exact h.alike.put_self

/-- The request of the caller is queued. -/
theorem accepted (h : Apart c s s') (hledger : s.Ledger) (hcaller : s.callers c = some caller)
    (hstanding : caller.standing = .submitting) (w : Nat) :
    Apart c ({ s with
      host := s.host.accept w caller.kind caller.source
      tickets := s.tickets ++ [Ticket.mk c caller.handle] }.put c caller
        (.waiting s.host.requests.length)) s' := by
  have halike : Alike none c s s' := by
    have halike := h.alike
    rw [requestOf?_eq hcaller, hstanding] at halike
    exact halike
  have haccepted : Alike (some s.host.requests.length) c { s with
      host := s.host.accept w caller.kind caller.source
      tickets := s.tickets ++ [Ticket.mk c caller.handle] } s' := by
    refine ⟨?_, ?_, fun d hd => ?_, halike.refusals⟩
    · exact halike.host.enqueue_new (fun _ => hledger.forget_new) caller.kind caller.source
    · rw [← hledger.length_tickets]
      exact halike.tickets.trans (closeGap_concat ..).symm
    · rw [halike.callers d hd]
      cases hother : s.callers d with
      | none => rfl
      | some other => simp [hledger.renumber_new hother]
  refine ⟨?_, _, put_self .., by simp⟩
  rw [requestOf?_put]
  exact haccepted.put_self

/-- The caller stops waiting. -/
theorem left (h : Apart c s s') (hcaller : s.callers c = some caller)
    (hstanding : caller.standing = .waiting r) :
    Apart c ({ s with host := (s.host.giveUp r).2 }.put c caller (.gone r (s.host.giveUp r).1)) s' := by
  have halike : Alike (some r) c s s' := by
    have halike := h.alike
    rw [requestOf?_eq hcaller, hstanding] at halike
    exact halike
  have hleft : Alike (some r) c { s with host := (s.host.giveUp r).2 } s' :=
    ⟨halike.host.giveUp_self, halike.tickets, halike.callers, halike.refusals⟩
  refine ⟨?_, _, put_self .., by simp⟩
  rw [requestOf?_put]
  exact hleft.put_self

/-- **What the caller does.** -/
theorem mine (h : Apart c s s') (hledger : s.Ledger) (ha : a.caller? = some c) :
    Apart c (s.step a) s' := by
  obtain ⟨caller, hcaller, hbegun⟩ := h.begun
  have hmoves := moves_step s a
  generalize s.step a = t at hmoves ⊢
  cases hmoves.proceeds ha hcaller with
  | stays => exact h
  | starts hstanding => exact absurd hstanding hbegun
  | turned hstanding => exact h.put hcaller (by rw [hstanding]; rfl) (by simp)
  | accepted hstanding => exact h.accepted hledger hcaller hstanding _
  | served hstanding => exact h.put hcaller (by rw [hstanding]; rfl) (by simp)
  | left hstanding => exact h.left hcaller hstanding

/-- **A worker takes the request**, which nobody picks up. -/
theorem passed (h : Apart c s s') (hr : s.requestOf? c = some r) (hnext : s.host.next? w = some r)
    (hunpicked : ¬ (s.step (.work w)).Picked c) : Apart c (s.step (.work w)) s' := by
  obtain ⟨worker, hworker, hnext⟩ := Option.bind_eq_some_iff.mp ((Host.next?_eq ..).symm.trans hnext)
  have hmoves := moves_step s (.work w)
  generalize s.step (.work w) = t at hmoves hunpicked ⊢
  cases hmoves with
  | stays => exact h
  | @worked _ x host hx hdoes =>
      obtain rfl := Option.some.inj (hx.symm.trans hworker)
      obtain ⟨rest, hphase, hqueue⟩ := Worker.eq_of_next? hnext
      have hpicked : ∀ {f : Request → Request}, (∀ q, (f q).progress.isPicked = true) →
          s.host.progress? r = some .queued → host.requests = s.host.requests.modify r f →
            Picked { s with host } c := fun hf hqueued hrequests => by
        obtain ⟨q, hq, -⟩ := Option.map_eq_some_iff.mp hqueued
        exact ⟨r, _, hr, by simp [Host.progress?, hrequests, hq], hf q⟩
      -- The request is at the head of the queue, so it is passed over, as nothing else is open to it.
      have hhead : ∀ {v : Nat} {items : List Item}, x.queue = .request v :: items →
          v = r ∧ items = rest := fun heq => by
        simpa using heq.symm.trans hqueue
      cases hdoes with
      | leave log _ hstop => cases hstop.symm.trans hqueue
      | pass log _ htaken =>
          obtain ⟨rfl, rfl⟩ := hhead htaken
          refine ⟨?_, h.begun⟩
          have halike := h.alike
          rw [hr] at halike
          have hpassed := halike.host.pass hworker hqueue
          exact hr ▸ ⟨hpassed, halike.tickets, halike.callers, halike.refusals⟩
      | pickUp _ htaken hqueued =>
          obtain ⟨rfl, rfl⟩ := hhead htaken
          exact absurd (hpicked (fun _ => rfl) hqueued rfl) hunpicked
      | refuse log _ htaken hqueued =>
          obtain ⟨rfl, rfl⟩ := hhead htaken
          exact absurd (hpicked (fun _ => rfl) hqueued rfl) hunpicked
      | evaluate hwaits => cases hwaits.symm.trans hphase
      | finish log hheld => cases (hphase ▸ hheld : Phase.request? .serving = _)

/-- **What the others do**, and the workers with other requests. -/
theorem others (h : Apart c s s') (hledger : s.Ledger) (hunpicked : ¬ s.Picked c)
    (hother : s.concerns c a = false) : Apart c (s.step a) (s'.step a) := by
  have ha : a.caller? ≠ some c := by
    cases a <;> simp_all [concerns, Act.caller?]
  have hnext : ∀ r ∈ s.requestOf? c, ∀ w, a = .work w → s.host.next? w ≠ some r := by
    rintro r hr w rfl
    rw [Option.mem_def] at hr
    simpa [concerns, hr] using hother
  have hheld : ∀ r ∈ s.requestOf? c, ∀ w, s.host.handled? w ≠ some r := fun r hr w hheld =>
    hunpicked (hledger.picked_of_handled hr hheld)
  have hsame := (moves_step s a).callers_of_ne ha
  have hstep := h.alike.step hledger.others hledger.gapIn hledger.length_tickets ha hnext hheld
  refine ⟨?_, by rw [hsame]; exact h.begun⟩
  rw [World.requestOf?, hsame]
  exact hstep

/-- **A run in which a caller comes to nothing**, and the run without it. -/
theorem run (h : Apart c s s') (hledger : s.Ledger) {acts : List Act}
    (hunpicked : ¬ (s.run acts).Picked c) : Apart c (s.run acts) (s'.run (s.without c acts)) := by
  induction acts generalizing s s' with
  | nil => exact h
  | cons a acts ih =>
      have hmoves := moves_step s a
      have hledger' := hmoves.ledger hledger
      -- What has been picked up stays so, hence the request is not picked up at any point of the run.
      have hafter : ¬ (s.step a).Picked c := fun hpicked =>
        hunpicked ((onward_run hledger'.kept acts).picked hpicked)
      have hbefore : ¬ s.Picked c := fun hpicked => hafter ((hmoves.onward hledger.kept).picked hpicked)
      rw [without]
      cases hconcerns : s.concerns c a with
      | false => exact ih (h.others hledger hbefore hconcerns) hledger' hunpicked
      | true =>
          refine ih ?_ hledger' hunpicked
          rcases cases_of_concerns hconcerns with hmine | ⟨w, r, rfl, hr, hnext⟩
          · exact h.mine hledger hmine
          · exact h.passed hr hnext hafter

end Apart

/-! ### Calls that come to nothing -/

/-- A call **comes to nothing**, with the action with which it begins and with what follows. -/
inductive Void (s : World) (c : Nat) : Act → List Act → Prop
  /-- Its handle runs, and it is given up while its request is still queued. -/
  | withdrawn {id w r : Nat} {kind : RequestKind} {source : Text} {timeout : Option Seconds}
      {handle : Handle} {caller : Caller} {acts : List Act} (m : Manner) (more : List Act)
      (hhandle : s.host.handles[id]? = some handle) (hstate : handle.state = .running w)
      (hcaller : (s.run (.call c id kind source timeout :: acts)).callers c = some caller)
      (hstanding : caller.standing = .waiting r)
      (hqueued : (s.run (.call c id kind source timeout :: acts)).host.progress? r = some .queued) :
      Void s c (.call c id kind source timeout) (acts ++ .giveUp c m :: more)
  /-- It has no time. -/
  | expired {id : Nat} {timeout : Option Seconds} {handle : Handle} (kind : RequestKind)
      (source : Text) (acts : List Act) (hhandle : s.host.handles[id]? = some handle)
      (hover : (Host.patience handle timeout).any (·.isOver) = true) :
      Void s c (.call c id kind source timeout) acts
  /-- Its handle is closed. -/
  | closed {id : Nat} {handle : Handle} (kind : RequestKind) (source : Text)
      (timeout : Option Seconds) (acts : List Act) (hhandle : s.host.handles[id]? = some handle)
      (hclosed : handle.state.isClosed = true) : Void s c (.call c id kind source timeout) acts

section Void

variable {s : World} {c id r : Nat} {handle : Handle} {kind : RequestKind} {source : Text}
  {timeout : Option Seconds} {acts : List Act}

/-- A call begins, and its handle need not be started. -/
theorem apart_call (hnew : s.callers c = none) (hhandle : s.host.handles[id]? = some handle)
    (hready : (Host.patience handle timeout).any (·.isOver) = true ∨ handle.state ≠ .fresh) :
    Apart c (s.step (.call c id kind source timeout)) s := by
  have hput : ∀ {standing : Standing}, standing.request? = none → standing ≠ .starting →
      Apart c (s.put c ⟨id, kind, source, .submitting⟩ standing) s := fun hrequest hne => by
    refine ⟨?_, _, put_self .., hne⟩
    rw [requestOf?_put, hrequest]
    exact (Alike.refl c s).put_self
  simp only [World.step, look, hnew, hhandle]
  split
  · exact hput rfl (by simp)
  next hover =>
    cases hstate : handle.state with
    | fresh => exact absurd hstate (hready.resolve_left hover)
    | running w | closed former => exact hput rfl (by simp)

/-- A caller without a request has none that is picked up. -/
theorem not_picked_of_none (h : s.requestOf? c = none) : ¬ s.Picked c := by
  rintro ⟨r, p, hr, -⟩
  cases h.symm.trans hr

/-- A request that is withdrawn is not picked up. -/
theorem not_picked_of_withdrawn (hr : s.requestOf? c = some r)
    (hp : s.host.progress? r = some .withdrawn) : ¬ s.Picked c := by
  rintro ⟨v, p, hv, hp', hpicked⟩
  obtain rfl := Option.some.inj (hr.symm.trans hv)
  obtain rfl := Option.some.inj (hp.symm.trans hp')
  cases hpicked

/-- A caller that gives up a request that is queued. -/
theorem not_picked_of_giveUp (hkept : s.Kept) {caller : Caller} (hcaller : s.callers c = some caller)
    (hstanding : caller.standing = .waiting r) (hqueued : s.host.progress? r = some .queued)
    (m : Manner) (more : List Act) : ¬ (s.run (.giveUp c m :: more)).Picked c := by
  obtain ⟨request, hrequest, hp⟩ := Option.map_eq_some_iff.mp hqueued
  have hleft : request.giveUp.2.progress = .withdrawn := by rw [Request.giveUp, hp]
  have hstep := step_giveUp m hcaller hstanding hrequest
  have hr : (s.step (.giveUp c m)).requestOf? c = some r := by rw [hstep, requestOf?_put]; rfl
  have hwithdrawn : (s.step (.giveUp c m)).host.progress? r = some .withdrawn := by
    rw [hstep, put_host, Host.progress?_updateRequest hrequest, Function.update_self, hleft]
  have honward := onward_run (kept_run hkept [.giveUp c m]) more
  exact not_picked_of_withdrawn (honward.requestOf? hr) (honward.withdrawn hwithdrawn)

/-- A caller without time. -/
theorem not_picked_of_expired (hkept : s.Kept) (hnew : s.callers c = none)
    (hhandle : s.host.handles[id]? = some handle)
    (hover : (Host.patience handle timeout).any (·.isOver) = true) (acts : List Act) :
    ¬ (s.run (.call c id kind source timeout :: acts)).Picked c := by
  have hstep : (s.step (.call c id kind source timeout)).callers c =
      some ⟨id, kind, source, .dismissed (.expired false)⟩ := by
    simp [World.step, look, hnew, hhandle, hover]
  have honward := onward_run (kept_run hkept [.call c id kind source timeout]) acts
  obtain ⟨caller, hcaller, -, -, -, hleads, -⟩ := honward.callers c _ hstep
  refine not_picked_of_none ((requestOf?_eq hcaller).trans ?_)
  rw [hleads rfl]
  rfl

/-- A caller that is turned away. -/
theorem TurnedAway.not_picked (h : s.TurnedAway c) : ¬ s.Picked c := by
  obtain ⟨caller, hcaller, -, hstanding⟩ := h
  refine not_picked_of_none ((requestOf?_eq hcaller).trans ?_)
  rcases hstanding with hstanding | hstanding <;> rw [hstanding] <;> rfl

/-- Its request is never picked up. -/
theorem Void.not_picked {a : Act} (h : Void s c a acts) (hkept : s.Kept) (hnew : s.callers c = none) :
    ¬ (s.run (a :: acts)).Picked c := by
  cases h with
  | @withdrawn id w r kind source timeout handle caller acts m more hhandle hstate hcaller hstanding
      hqueued =>
      rw [← List.cons_append, run_append]
      exact not_picked_of_giveUp (kept_run hkept _) hcaller hstanding hqueued m more
  | expired kind source acts hhandle hover =>
      exact not_picked_of_expired hkept hnew hhandle hover acts
  | @closed id handle kind source timeout acts hhandle hclosed =>
      cases hover : (Host.patience handle timeout).any (·.isOver) with
      | true => exact not_picked_of_expired hkept hnew hhandle hover acts
      | false =>
          obtain ⟨hturned, -⟩ := turnedAway_call kind source hnew hhandle hclosed hover
          exact (hturned.run acts).not_picked

/-- Its handle need not be started. -/
theorem Void.apart_step {a : Act} (h : Void s c a acts) (hnew : s.callers c = none) :
    Apart c (s.step a) s := by
  cases h with
  | withdrawn m more hhandle hstate => exact apart_call hnew hhandle (.inr (by simp [hstate]))
  | expired kind source acts hhandle hover => exact apart_call hnew hhandle (.inl hover)
  | closed kind source timeout acts hhandle hclosed =>
      refine apart_call hnew hhandle (.inr fun hfresh => ?_)
      rw [hfresh] at hclosed
      cases hclosed

/-- It is left out from the beginning. -/
theorem Void.without_eq {a : Act} (h : Void s c a acts) :
    s.without c (a :: acts) = (s.step a).without c acts := by
  have hconcerns : s.concerns c a = true := by cases h <;> simp [concerns, Act.caller?]
  rw [without, if_pos hconcerns]

end Void

/-! ### A caller whose request has been picked up -/

/-- What the others do. -/
def ofOthers (c : Nat) (acts : List Act) : List Act := acts.filter fun a => a.caller? ≠ some c

namespace Alike

variable {c : Nat} {s s' : World} {a : Act}

/-- **What the caller does**: it waits, gets the result or gives up. -/
theorem mine (h : Alike none c s s') (hpicked : s.Picked c) (ha : a.caller? = some c) :
    Alike none c (s.step a) s' := by
  obtain ⟨r, p, hr, hp, hpicked⟩ := hpicked
  obtain ⟨caller, hcaller, hr⟩ := Option.bind_eq_some_iff.mp hr
  have hmoves := moves_step s a
  generalize s.step a = t at hmoves ⊢
  cases hmoves.proceeds ha hcaller with
  | stays => exact h
  | starts hstanding | turned hstanding | accepted hstanding =>
      rw [hstanding] at hr
      cases hr
  | served => exact h.put_self
  | @left v hstanding =>
      obtain rfl : v = r := by simpa [hstanding, Standing.request?] using hr
      have hunqueued : s.host.progress? v ≠ some .queued := fun hqueued => by
        obtain rfl := Option.some.inj (hp.symm.trans hqueued)
        cases hpicked
      have hleft : Alike none c { s with host := (s.host.giveUp v).2 } s' :=
        ⟨h.host.giveUp_of_ne hunqueued, h.tickets, h.callers, h.refusals⟩
      exact hleft.put_self

/-- **A run in which a caller waits or gives up**, and the run in which it does nothing. -/
theorem run (h : Alike none c s s') (hledger : s.Ledger) (hpicked : s.Picked c) (acts : List Act) :
    Alike none c (s.run acts) (s'.run (ofOthers c acts)) := by
  induction acts generalizing s s' with
  | nil => exact h
  | cons a acts ih =>
      have hmoves := moves_step s a
      have hledger' := hmoves.ledger hledger
      have hpicked' := (hmoves.onward hledger.kept).picked hpicked
      by_cases ha : a.caller? = some c
      · rw [ofOthers, List.filter_cons_of_neg (by simp [ha])]
        exact ih (h.mine hpicked ha) hledger' hpicked'
      · rw [ofOthers, List.filter_cons_of_pos (by simp [ha])]
        refine ih (h.step ?_ ?_ hledger.length_tickets ha ?_ ?_) hledger' hpicked' <;>
          simp [Others, GapIn]

end Alike

namespace Indistinct

variable {c : Nat} {s s' s'' : World}

theorem symm (h : Indistinct c s s') : Indistinct c s' s :=
  ⟨h.trace.symm, fun d hd => (h.answer d hd).symm⟩

theorem trans (h : Indistinct c s s') (h' : Indistinct c s' s'') : Indistinct c s s'' :=
  ⟨h'.trace.trans h.trace, fun d hd => (h'.answer d hd).trans (h.answer d hd)⟩

end Indistinct

/-- **Giving up is invisible to everybody else.** In every run, a call that is given up while its
request is still queued, or has no time, or finds its handle closed, can be left out; and it makes
no difference whether a caller whose request is running waits for it, or gives up. -/
theorem indistinct_run (e : Circumstances) (before : List Act) (c : Nat) :
    let s := (opening e).run before
    (∀ (a : Act) (acts : List Act), s.callers c = none → Void s c a acts →
      Indistinct c (s.run (a :: acts)) (s.run (s.without c (a :: acts)))) ∧
    ∀ (caller : Caller) (r : Nat) (acts acts' : List Act), s.callers c = some caller →
      caller.standing = .waiting r → s.host.progress? r = some .running →
        ofOthers c acts = ofOthers c acts' → Indistinct c (s.run acts) (s.run acts') := by
  intro s
  have hledger : s.Ledger := ledger_run (ledger_opening e) before
  refine ⟨fun a acts hnew hvoid => ?_, fun caller r acts acts' hcaller hstanding hrunning hsame => ?_⟩
  · rw [hvoid.without_eq]
    have hapart := (hvoid.apart_step hnew).run ((moves_step s a).ledger hledger)
      (hvoid.not_picked hledger.kept hnew)
    exact hapart.alike.indistinct
  · -- Both runs are compared with the one in which the caller does nothing any more.
    have hr : s.requestOf? c = some r := by rw [requestOf?_eq hcaller, hstanding]; rfl
    have hpicked : s.Picked c := ⟨r, .running, hr, hrunning, rfl⟩
    have hwaits := fun acts => ((Alike.refl c s).run hledger hpicked acts).indistinct
    refine (hwaits acts).trans ?_
    rw [hsame]
    exact (hwaits acts').symm

/-- A caller that waits can give its request up unless it has been picked up. -/
theorem void_of_tests {s : World} {c id : Nat} {kind : RequestKind} {source : Text}
    {timeout : Option Seconds} {acts : List Act} (w r : Nat) (m : Manner) (more : List Act)
    (hrunning : (s.host.handles[id]?).map (·.state) = some (.running w))
    (hwaits : ((s.run (.call c id kind source timeout :: acts)).callers c).map
      (fun x => (x.standing.request?, x.standing.answer?.isNone)) = some (some r, true))
    (hqueued : ((s.run (.call c id kind source timeout :: acts)).host.progress? r).map
      (fun p => (p.isPicked, p.isSettled)) = some (false, false)) :
    Void s c (.call c id kind source timeout) (acts ++ .giveUp c m :: more) := by
  obtain ⟨handle, hhandle, hstate⟩ := Option.map_eq_some_iff.mp hrunning
  obtain ⟨caller, hcaller, hstanding⟩ := exists_waiting hwaits
  obtain ⟨p, hp, hqueued⟩ := Option.map_eq_some_iff.mp hqueued
  refine .withdrawn m more hhandle hstate hcaller hstanding ?_
  cases p with
  | queued => exact hp
  | withdrawn | running | finished => simp [Progress.isPicked, Progress.isSettled] at hqueued

/-- A request is given up while it is queued behind another, which makes no difference to a third
one; and the caller of the first need not wait for it. -/
theorem indistinct_run_of_three :
    let e : Circumstances := { behaviour :=
      { programs := [("a", [{ value := .nil .usual }, { raised := some "broken" }])] } }
    let before : List Act := [.create {} .given, .start 0, .call 0 0 .execute "a" none, .advance 0,
      .work 0, .work 0]
    let s := (opening e).run before
    let call : Act := .call 1 0 .execute "a" none
    let acts : List Act := [.advance 1] ++ .giveUp 1 .task :: [.call 2 0 .parse "a" none, .advance 2,
      .work 0, .work 0, .work 0, .work 0, .work 0, .receive 2]
    let waits : List Act := [.work 0, .receive 0]
    let leaves : List Act := [.giveUp 0 .blocked, .work 0]
    ((s.run (call :: acts)).answer? 2).map (·.status) = some .error ∧
      (s.without 1 (call :: acts)).length + 4 = (call :: acts).length ∧
      Indistinct 1 (s.run (call :: acts)) (s.run (s.without 1 (call :: acts))) ∧
      Indistinct 0 (s.run waits) (s.run leaves) := by
  intro e before s call acts waits leaves
  refine ⟨by decide +kernel, by decide +kernel, ?_, ?_⟩
  · refine (indistinct_run e before 1).1 call acts ?_ ?_
    · exact Option.isNone_iff_eq_none.mp (by decide +kernel)
    · refine void_of_tests 0 1 .task _ ?_ ?_ ?_ <;> decide +kernel
  · have hwaits : (((opening e).run before).callers 0).map (fun x =>
        (x.standing.request?, x.standing.answer?.isNone)) = some (some 0, true) := by decide +kernel
    have hheld : ((opening e).run before).host.handled? 0 = some 0 := by decide +kernel
    obtain ⟨caller, hcaller, hstanding⟩ := exists_waiting hwaits
    have hkept := kept_run (kept_opening e) before
    exact (indistinct_run e before 0).2 caller 0 waits leaves hcaller hstanding
      (Host.Kept.progress_of_handled hkept hheld) rfl

end World

end JanetEmbedding
