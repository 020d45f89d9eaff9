import JanetEmbedding.Proofs.Custody

/-!
# The ledger

The callers of a world and its host agree: each ticket is that of one caller, who asked for just
what the request of its number asks for, and what a caller has been told fits where its request
stands. No result that a request is ever finished with says that the interpreter is closed.

## Conventions

* A result is **genuine** if its fault is not that the interpreter is closed.
* A request goes **onward** in the order queued, running, finished, of which it may leave the second
  out. Only its caller can withdraw it.

## Main results

* `World.ledger_run`: callers and host agree in every run.
* `World.onward_run`: nothing that has been settled or told is ever changed.
-/

namespace JanetEmbedding

/-- Whether a result says something else than that the interpreter is closed. -/
def Result.Genuine (x : Result) : Prop := ∀ f ∈ x.fault, f.kind ≠ .closed

theorem Result.Genuine.ne_closedBefore {x : Result} (h : x.Genuine) : x ≠ Host.closedBefore := by
  rintro rfl
  exact h _ rfl rfl

theorem Result.expired_ne_closedBefore {stillRunning : Bool} :
    Result.expired stillRunning ≠ Host.closedBefore := by
  intro h
  exact absurd (congrArg Result.status h) (by simp [expired, Host.closedBefore, failed])

theorem Host.closedAnswer_ne_closedBefore : closedAnswer ≠ closedBefore := by
  intro h
  have hfault := congrArg Result.fault h
  exact absurd hfault (by decide)

theorem Result.genuine_failed {f : Fault} (h : f.kind ≠ .closed) : (Result.failed f).Genuine := by
  rintro g hg
  obtain rfl : f = g := by simpa [Result.failed] using hg
  exact h

namespace Evaluation

variable (f : Janet.ViewFault)

@[simp] theorem faultKind_ne_closed : faultKind f ≠ .closed := by cases f <;> nofun

@[simp] theorem faultKind_ne_deadline : faultKind f ≠ .deadline := by cases f <;> nofun

end Evaluation

/-- What a program ends with is genuine. -/
theorem Interpreter.Program.genuine_result (p : Program) (kind : RequestKind)
    (c : Capture.Captured) : (p.result kind c).Genuine := by
  unfold result
  split
  · exact Result.genuine_failed (by simp)
  · split
    next x houtcome =>
      unfold Evaluation.outcome at houtcome
      split at houtcome
      · cases houtcome
        simp [Result.Genuine]
      · cases hrender : Evaluation.render kind p.value with
        | error f => simp [hrender, Except.map] at houtcome
        | ok v =>
            rw [hrender] at houtcome
            cases houtcome
            simp [Result.Genuine]
    · exact Result.genuine_failed (by simp)

/-! ### Where requests go -/

namespace Progress

/-- Where a request **goes** from where it stands, while its caller waits. -/
inductive Goes : Progress → Progress → Prop
  | stays (p : Progress) : Goes p p
  | starts : Goes queued running
  | fails {x : Result} (hx : x.Genuine) : Goes queued (finished x)
  | ends {x : Result} (hx : x.Genuine) : Goes running (finished x)

end Progress

namespace Host

/-- The result that a request comes to is genuine. -/
theorem Ends.genuine {h : Host} {path : Option Text} {request : Request} {phase : Phase}
    {x : Result} {stdio : Stdio} {calls : List Interpreter.Call}
    (hends : Ends h path request phase x stdio calls) : x.Genuine := by
  cases hends with
  | unredirected => exact Result.genuine_failed (by simp)
  | unencoded => exact Result.genuine_failed (by simp)
  | @concluded r session p captured => exact p.genuine_result request.kind captured

/-- A request comes to its result without an evaluation of another one. -/
theorem Ends.evaluation?_eq {h : Host} {path : Option Text} {request : Request} {phase : Phase}
    {x : Result} {stdio : Stdio} {calls : List Interpreter.Call}
    (hends : Ends h path request phase x stdio calls) : ∀ call ∈ calls, call.evaluation? = none := by
  cases hends with
  | unredirected | unencoded => simp
  | @concluded r session p captured =>
      unfold Interpreter.Program.looks
      split <;> simp [Interpreter.Call.rooted, Interpreter.Call.evaluation?]

/-- Every request of a host goes onward to where it stands in another, where there may be more. -/
def Goes (h h' : Host) : Prop :=
  ∀ (r : Nat) (request : Request), h.requests[r]? = some request →
    ∃ request' : Request, h'.requests[r]? = some request' ∧ request'.kind = request.kind ∧
      request'.source = request.source ∧ request.progress.Goes request'.progress

theorem Goes.of_eq {h h' : Host} (hsame : h'.requests = h.requests) : Goes h h' :=
  fun _ request hrequest => ⟨request, hsame ▸ hrequest, rfl, rfl, .stays _⟩

/-- Changing one request. -/
theorem goes_modify {h h' : Host} {r : Nat} {request : Request} {f : Request → Request}
    (hrequest : h.requests[r]? = some request) (hrequests : h'.requests = h.requests.modify r f)
    (hkind : (f request).kind = request.kind) (hsource : (f request).source = request.source)
    (hgoes : request.progress.Goes (f request).progress) : Goes h h' := by
  intro v request' hv
  by_cases hne : v = r
  · subst hne
    obtain rfl : request = request' := Option.some.inj (hrequest.symm.trans hv)
    exact ⟨f request, by simp [hrequests, hrequest], hkind, hsource, hgoes⟩
  · refine ⟨request', ?_, rfl, rfl, .stays _⟩
    rw [hrequests, List.getElem?_modify_ne _ _ (Ne.symm hne)]
    exact hv

/-- A request goes onward from where it stands. -/
theorem Goes.progress {h h' : Host} (hgoes : Goes h h') {r : Nat} {p : Progress}
    (hp : h.progress? r = some p) : ∃ p', h'.progress? r = some p' ∧ p.Goes p' := by
  obtain ⟨request, hrequest, rfl⟩ := Option.map_eq_some_iff.mp hp
  obtain ⟨request', hrequest', -, -, hgoes⟩ := hgoes r request hrequest
  exact ⟨request'.progress, by simp [progress?, hrequest'], hgoes⟩

/-- A request has a result if it is finished with it. -/
theorem result?_eq_some_iff {h : Host} {r : Nat} {x : Result} :
    h.result? r = some x ↔ h.progress? r = some (.finished x) := by
  simp only [result?, progress?]
  cases h.requests[r]? with
  | none => simp
  | some request =>
      simp only [Option.bind_some, Option.map_some, Option.some.injEq]
      cases request.progress <;> simp [Progress.result?]

theorem exists_progress {h : Host} {r : Nat} (hr : r < h.requests.length) :
    ∃ p, h.progress? r = some p :=
  ⟨h.requests[r].progress, by simp [progress?, hr]⟩

/-- Results are told by the requests alone. -/
theorem result?_of_requests {h h' : Host} (hrequests : h'.requests = h.requests) :
    h'.result? = h.result? := by
  funext r
  simp only [result?, hrequests]

/-- A request that is finished with a result has that result. -/
theorem result?_finish {h h' : Host} {r : Nat} {request : Request} {x : Result}
    (hrequest : h.requests[r]? = some request)
    (hrequests : h'.requests = h.requests.modify r (·.finish x)) : h'.result? r = some x := by
  simp [result?, hrequests, hrequest, Request.finish, Progress.result?]

/-- A request that has been withdrawn has no result. -/
theorem result?_eq_none_of_withdrawn {h : Host} {r : Nat} (hr : h.progress? r = some .withdrawn) :
    h.result? r = none := by
  refine Option.eq_none_iff_forall_ne_some.mpr fun x hx => ?_
  cases hr.symm.trans (result?_eq_some_iff.mp hx)

/-- Workers let requests go onward. -/
theorem Does.goes {owners : List Nat} {h h' : Host} {w : Nat} {worker : Worker}
    (hdoes : Does h w worker h') (hkept : Kept owners h) (hworker : h.workers[w]? = some worker) :
    Goes h h' := by
  obtain ⟨id, hid⟩ := hkept.exists_workerOf? hworker hdoes.hasEnded_eq_false
  cases hdoes with
  | leave log hphase hqueue =>
      have hsame := hkept.failPending_eq_self hid hworker hqueue
      exact .of_eq (by simp only [hsame])
  | pass => exact .of_eq rfl
  | pickUp hphase hqueue hprogress =>
      obtain ⟨request, hrequest, hqueued⟩ := Option.map_eq_some_iff.mp hprogress
      exact goes_modify hrequest rfl rfl rfl (hqueued ▸ .starts)
  | refuse log hphase hqueue hprogress =>
      obtain ⟨request, hrequest, hqueued⟩ := Option.map_eq_some_iff.mp hprogress
      exact goes_modify hrequest rfl rfl rfl
        (hqueued ▸ .fails (Result.genuine_failed (by simp)))
  | evaluate => exact .of_eq rfl
  | @finish r request x stdio calls log hheld hrequest hends =>
      have hrunning := (hkept.charged hid hworker).held r hheld
      obtain ⟨request', hrequest', hprogress⟩ := Option.map_eq_some_iff.mp hrunning
      obtain rfl : request = request' := Option.some.inj (hrequest.symm.trans hrequest')
      exact goes_modify hrequest rfl rfl rfl (hprogress ▸ .ends hends.genuine)

end Host

namespace Request

/-- What a request becomes when its caller stops waiting. -/
theorem giveUp_cases (q : Request) :
    q.progress = .queued ∧ q.giveUp = (.expired false, { q with progress := .withdrawn }) ∨
      q.progress = .running ∧ q.giveUp = (.expired true, { q with abandoned := true }) ∨
      q.progress.isSettled = true ∧ q.giveUp = (.expired false, q) := by
  obtain ⟨kind, source, progress, abandoned⟩ := q
  cases progress with
  | queued => exact .inl ⟨rfl, rfl⟩
  | running => exact .inr (.inl ⟨rfl, rfl⟩)
  | withdrawn | finished => exact .inr (.inr ⟨rfl, rfl⟩)

@[simp] theorem giveUp_kind (q : Request) : q.giveUp.2.kind = q.kind := by
  rcases q.giveUp_cases with ⟨-, heq⟩ | ⟨-, heq⟩ | ⟨-, heq⟩ <;> rw [heq]

@[simp] theorem giveUp_source (q : Request) : q.giveUp.2.source = q.source := by
  rcases q.giveUp_cases with ⟨-, heq⟩ | ⟨-, heq⟩ | ⟨-, heq⟩ <;> rw [heq]

/-- A caller that stops waiting does not finish its request. -/
theorem progress_of_giveUp {q : Request} {x : Result} (h : q.giveUp.2.progress = .finished x) :
    q.progress = .finished x := by
  rcases q.giveUp_cases with ⟨-, heq⟩ | ⟨-, heq⟩ | ⟨-, heq⟩ <;> rw [heq] at h
  · cases h
  · exact h
  · exact h

end Request

namespace Host

/-- What a caller that stops waiting is told, and what becomes of its request. -/
theorem giveUp_eq {h : Host} {r : Nat} {request : Request} (hrequest : h.requests[r]? = some request) :
    h.giveUp r = (request.giveUp.1, h.updateRequest r fun _ => request.giveUp.2) := by
  rw [giveUp, hrequest]

end Host

/-! ### Callers and host -/

/-- Whether where a caller stands **fits** where the requests stand. -/
def Standing.Fits (progress : Nat → Option Progress) : Standing → Prop
  | starting => True
  | submitting => True
  | raised _ => True
  | dismissed x => x ≠ Host.closedBefore
  | waiting r => ∃ p, progress r = some p ∧ p ≠ .withdrawn
  | served r x => progress r = some (.finished x)
  | gone r x => progress r = some .withdrawn ∧ x = .expired false ∨
      progress r = some .running ∧ x = .expired true ∨
      ∃ y flag, progress r = some (.finished y) ∧ x = .expired flag

/-- A caller still stands fit when the requests have gone onward. -/
theorem Standing.Fits.goes {standing : Standing} {progress progress' : Nat → Option Progress}
    (h : standing.Fits progress)
    (hgoes : ∀ {r : Nat} {p : Progress}, progress r = some p →
      ∃ p', progress' r = some p' ∧ p.Goes p') : standing.Fits progress' := by
  cases standing with
  | starting | submitting | raised f => trivial
  | dismissed x => exact h
  | waiting r =>
      obtain ⟨p, hp, hwaits⟩ := h
      obtain ⟨p', hp', hgoes⟩ := hgoes hp
      refine ⟨p', hp', ?_⟩
      cases hgoes with
      | stays => exact hwaits
      | starts | fails | ends => simp
  | served r x =>
      obtain ⟨p', hp', hgoes⟩ := hgoes h
      cases hgoes
      exact hp'
  | gone r x =>
      rcases h with ⟨hp, hx⟩ | ⟨hp, hx⟩ | ⟨y, flag, hp, hx⟩
      · obtain ⟨p', hp', hgoes⟩ := hgoes hp
        cases hgoes
        exact .inl ⟨hp', hx⟩
      · obtain ⟨p', hp', hgoes⟩ := hgoes hp
        cases hgoes with
        | stays => exact .inr (.inl ⟨hp', hx⟩)
        | ends => exact .inr (.inr ⟨_, true, hp', hx⟩)
      · obtain ⟨p', hp', hgoes⟩ := hgoes hp
        cases hgoes
        exact .inr (.inr ⟨y, flag, hp', hx⟩)

/-- Whether a caller stands fit depends on its own request only. -/
theorem Standing.Fits.congr {standing : Standing} {progress progress' : Nat → Option Progress}
    (h : standing.Fits progress)
    (hsame : ∀ r, standing.request? = some r → progress' r = progress r) :
    standing.Fits progress' := by
  cases standing with
  | starting | submitting | raised f => trivial
  | dismissed x => exact h
  | waiting r | served r x | gone r x =>
      simp only [Fits, hsame r rfl] at h ⊢
      exact h

/-- What a caller is told whose handle does not start fits, if it is not what requests are told. -/
theorem Standing.fits_unstarted {progress : Nat → Option Progress} {f : Fault}
    (hf : Result.failed f ≠ Host.closedBefore) : (unstarted f).Fits progress := by
  rcases unstarted_cases f with h | h <;> rw [h]
  · exact hf
  · trivial

/-- What a caller that stops waiting is told fits, if the request has not been withdrawn before. -/
theorem Standing.fits_gone {progress : Nat → Option Progress} {r : Nat} {request : Request}
    (hafter : progress r = some request.giveUp.2.progress) (h : request.progress ≠ .withdrawn) :
    (gone r request.giveUp.1).Fits progress := by
  rcases request.giveUp_cases with ⟨-, heq⟩ | ⟨hrunning, heq⟩ | ⟨hsettled, heq⟩ <;>
    rw [heq] at hafter ⊢
  · exact .inl ⟨hafter, rfl⟩
  · exact .inr (.inl ⟨hafter.trans (congrArg some hrunning), rfl⟩)
  · cases hfinished : request.progress with
    | finished y => exact .inr (.inr ⟨y, false, hafter.trans (congrArg some hfinished), rfl⟩)
    | withdrawn => exact absurd hfinished h
    | queued | running => simp [hfinished, Progress.isSettled] at hsettled

namespace World

/-- The **ledger** of a world agrees with its host. -/
structure Ledger (s : World) : Prop where
  kept : s.Kept
  /-- Every ticket is that of a caller, who asked for what the request asks for. -/
  ticket : ∀ (r : Nat) (t : Ticket), s.tickets[r]? = some t →
    ∃ (caller : Caller) (request : Request), s.callers t.caller = some caller ∧
      caller.handle = t.handle ∧ caller.standing.request? = some r ∧
      s.host.requests[r]? = some request ∧ request.kind = caller.kind ∧
      request.source = caller.source
  /-- Every caller that has a request has the ticket of its number. -/
  holds : ∀ (c : Nat) (caller : Caller) (r : Nat), s.callers c = some caller →
    caller.standing.request? = some r → s.tickets[r]? = some ⟨c, caller.handle⟩
  fits : ∀ (c : Nat) (caller : Caller), s.callers c = some caller →
    caller.standing.Fits s.host.progress?
  genuine : ∀ (r : Nat) (x : Result), s.host.result? r = some x → x.Genuine

namespace Ledger

variable {s : World} {c r : Nat} {caller : Caller} {standing : Standing} {host : Host}

/-- The caller of a ticket stands where the request of its number stands. -/
theorem fits_of_ticket (hledger : s.Ledger) {t : Ticket} (ht : s.tickets[r]? = some t) :
    ∃ caller, s.callers t.caller = some caller ∧ caller.standing.request? = some r ∧
      caller.standing.Fits s.host.progress? := by
  obtain ⟨caller, -, hcaller, -, hrequest, -⟩ := hledger.ticket r t ht
  exact ⟨caller, hcaller, hrequest, hledger.fits t.caller caller hcaller⟩

/-- Two callers that have the same request are one. -/
theorem caller_inj (hledger : s.Ledger) {c' : Nat} {caller' : Caller}
    (hcaller : s.callers c = some caller) (hcaller' : s.callers c' = some caller')
    (hr : caller.standing.request? = some r) (hr' : caller'.standing.request? = some r) : c = c' := by
  have ht := hledger.holds c caller r hcaller hr
  rw [hledger.holds c' caller' r hcaller' hr'] at ht
  exact (congrArg Ticket.caller (Option.some.inj ht)).symm

/-- The requests go onward, and the callers stay. -/
theorem goes (hledger : s.Ledger) (hkept : host.Kept s.owners) (hgoes : s.host.Goes host)
    (hlength : host.requests.length = s.host.requests.length) : Ledger { s with host } := by
  refine ⟨hkept, fun r t ht => ?_, hledger.holds, fun c caller hcaller => ?_, fun r x hx => ?_⟩
  · obtain ⟨caller, request, hcaller, hhandle, hr, hrequest, hkind, hsource⟩ := hledger.ticket r t ht
    obtain ⟨request', hrequest', hkind', hsource', -⟩ := hgoes r request hrequest
    exact ⟨caller, request', hcaller, hhandle, hr, hrequest', hkind'.trans hkind,
      hsource'.trans hsource⟩
  · exact (hledger.fits c caller hcaller).goes hgoes.progress
  · have hx := Host.result?_eq_some_iff.mp hx
    obtain ⟨request', hrequest', -⟩ := Option.map_eq_some_iff.mp hx
    have hlt := (List.getElem?_eq_some_iff.mp hrequest').1
    rw [hlength] at hlt
    obtain ⟨p, hp⟩ := Host.exists_progress hlt
    obtain ⟨p', hp', hgoes⟩ := hgoes.progress hp
    obtain rfl : p' = .finished x := Option.some.inj (hp'.symm.trans hx)
    cases hgoes with
    | stays => exact hledger.genuine r x (Host.result?_eq_some_iff.mpr hp)
    | fails hx | ends hx => exact hx

/-- The requests stay, and so do the callers. -/
theorem same (hledger : s.Ledger) (hkept : host.Kept s.owners)
    (hrequests : host.requests = s.host.requests) : Ledger { s with host } :=
  hledger.goes hkept (.of_eq hrequests) (congrArg List.length hrequests)

/-- A caller is put elsewhere with the request that it has, if it has any. -/
theorem put (hledger : s.Ledger)
    (hrequest : standing.request? = (s.callers c).bind (·.standing.request?))
    (hsame : ∀ old ∈ s.callers c,
      old.handle = caller.handle ∧ old.kind = caller.kind ∧ old.source = caller.source)
    (hfits : standing.Fits s.host.progress?) : Ledger (s.put c caller standing) := by
  refine ⟨hledger.kept, fun r t ht => ?_, fun x caller' r hx hr => ?_, fun x caller' hx => ?_,
    hledger.genuine⟩
  · obtain ⟨old, request, hx, hhandle, hr, hat, hkind, hsource⟩ := hledger.ticket r t ht
    by_cases hne : t.caller = c
    · rw [hne] at hx ⊢
      obtain ⟨hhandle', hkind', hsource'⟩ := hsame old hx
      rw [hx] at hrequest
      exact ⟨_, request, s.put_self c caller standing, hhandle'.symm.trans hhandle,
        hrequest.trans hr, hat, hkind.trans hkind', hsource.trans hsource'⟩
    · exact ⟨old, request, (put_of_ne hne ..).trans hx, hhandle, hr, hat, hkind, hsource⟩
  · rcases put_cases hx with ⟨rfl, rfl⟩ | ⟨-, hx⟩
    · obtain ⟨old, hx, hr⟩ := Option.bind_eq_some_iff.mp (hrequest.symm.trans hr)
      rw [put_tickets, hledger.holds x old r hx hr, (hsame old hx).1]
    · exact hledger.holds x caller' r hx hr
  · rcases put_cases hx with ⟨rfl, rfl⟩ | ⟨-, hx⟩
    · exact hfits
    · exact hledger.fits x caller' hx

/-- A request is accepted. -/
theorem accepted {w : Nat} (hledger : s.Ledger) (hcaller : s.callers c = some caller)
    (hstanding : caller.standing = .submitting)
    (hkept : (s.host.accept w caller.kind caller.source).Kept
      ((s.tickets ++ [Ticket.mk c caller.handle]).map (·.handle))) :
    Ledger ({ s with
      host := s.host.accept w caller.kind caller.source
      tickets := s.tickets ++ [Ticket.mk c caller.handle] }.put c caller
        (.waiting s.host.requests.length)) := by
  have hsize : s.tickets.length = s.host.requests.length := by
    simpa [owners] using hledger.kept.size
  have hprogress := s.host.progress?_accept w caller.kind caller.source
  have hother : ∀ {x old r}, s.callers x = some old → old.standing.request? = some r → x ≠ c := by
    rintro x old r hx hr rfl
    obtain rfl := Option.some.inj (hcaller.symm.trans hx)
    rw [hstanding] at hr
    cases hr
  refine ⟨hkept, fun r t ht => ?_, fun x caller' r hx hr => ?_, fun x caller' hx => ?_,
    fun r x hx => ?_⟩
  · rcases getElem?_concat_eq_some_iff.mp ht with hold | ⟨hr, rfl⟩
    · obtain ⟨old, request, hx, hhandle, hr, hat, hkind, hsource⟩ := hledger.ticket r t hold
      exact ⟨old, request, (put_of_ne (hother hx hr) ..).trans hx, hhandle, hr,
        getElem?_concat_eq_some_iff.mpr (.inl hat), hkind, hsource⟩
    · exact ⟨_, _, put_self .., rfl, congrArg some (hsize.symm.trans hr.symm),
        getElem?_concat_eq_some_iff.mpr (.inr ⟨hr.trans hsize, rfl⟩), rfl, rfl⟩
  · rcases put_cases hx with ⟨rfl, rfl⟩ | ⟨-, hx⟩
    · have hr : s.host.requests.length = r := Option.some.inj hr
      exact getElem?_concat_eq_some_iff.mpr (.inr ⟨hr.symm.trans hsize.symm, rfl⟩)
    · exact getElem?_concat_eq_some_iff.mpr (.inl (hledger.holds x caller' r hx hr))
  · rcases put_cases hx with ⟨rfl, rfl⟩ | ⟨-, hx⟩
    · exact ⟨.queued, (congrFun hprogress _).trans (Function.update_self ..), by simp⟩
    · refine (hledger.fits x caller' hx).goes fun {r p} hp => ⟨p, ?_, .stays p⟩
      have hr : r ≠ s.host.requests.length := by
        rintro rfl
        simp [Host.progress?] at hp
      exact (congrFun hprogress r).trans ((Function.update_of_ne hr ..).trans hp)
  · have hx : (s.host.accept w caller.kind caller.source).progress? r = some (.finished x) :=
      Host.result?_eq_some_iff.mp hx
    rw [hprogress] at hx
    by_cases hr : r = s.host.requests.length
    · subst hr
      simp at hx
    · rw [Function.update_of_ne hr] at hx
      exact hledger.genuine r x (Host.result?_eq_some_iff.mpr hx)

/-- A caller stops waiting. -/
theorem left (hledger : s.Ledger) (hcaller : s.callers c = some caller)
    (hstanding : caller.standing = .waiting r) :
    Ledger ({ s with host := (s.host.giveUp r).2 }.put c caller (.gone r (s.host.giveUp r).1)) := by
  have hr : caller.standing.request? = some r := by rw [hstanding]; rfl
  obtain ⟨-, request, -, -, -, hrequest, -⟩ := hledger.ticket r _ (hledger.holds c caller r hcaller hr)
  have hwaits := hledger.fits c caller hcaller
  rw [hstanding] at hwaits
  obtain ⟨p, hp, hp'⟩ := hwaits
  have hbefore : request.progress = p := by simpa [Host.progress?, hrequest] using hp
  have hprogress := Host.progress?_updateRequest hrequest fun _ => request.giveUp.2
  have hother : ∀ {x old v}, s.callers x = some old → old.standing.request? = some v → x ≠ c →
      v ≠ r := by
    rintro x old v hx hv hne rfl
    exact hne (hledger.caller_inj hx hcaller hv hr)
  have hkept := hledger.kept.giveUp r
  rw [Host.giveUp_eq hrequest] at hkept ⊢
  refine ⟨hkept, fun v t ht => ?_, fun x caller' v hx hv => ?_, fun x caller' hx => ?_,
    fun v x hx => ?_⟩
  · obtain ⟨old, request', hx, hhandle, hv, hat, hkind, hsource⟩ := hledger.ticket v t ht
    by_cases hne : t.caller = c
    · obtain rfl : caller = old := Option.some.inj (hcaller.symm.trans (hne ▸ hx))
      obtain rfl : v = r := Option.some.inj (hv.symm.trans hr)
      obtain rfl : request = request' := Option.some.inj (hrequest.symm.trans hat)
      refine ⟨{ caller with standing := .gone v request.giveUp.1 }, request.giveUp.2,
        hne ▸ put_self .., hhandle, rfl, ?_, ?_, ?_⟩
      · simp [Host.updateRequest, hrequest]
      · rw [request.giveUp_kind, hkind]
      · rw [request.giveUp_source, hsource]
    · refine ⟨old, request', (put_of_ne hne ..).trans hx, hhandle, hv, ?_, hkind, hsource⟩
      exact (List.getElem?_modify_ne _ _ (hother hx hv hne).symm).trans hat
  · rcases put_cases hx with ⟨rfl, rfl⟩ | ⟨-, hx⟩
    · obtain rfl : r = v := Option.some.inj hv
      exact hledger.holds x caller r hcaller hr
    · exact hledger.holds x caller' v hx hv
  · rcases put_cases hx with ⟨rfl, rfl⟩ | ⟨hne, hx⟩
    · refine Standing.fits_gone ((congrFun hprogress r).trans (Function.update_self ..)) ?_
      rwa [hbefore]
    · refine (hledger.fits x caller' hx).congr fun v hv => ?_
      exact (congrFun hprogress v).trans (Function.update_of_ne (hother hx hv hne) ..)
  · have hx : (s.host.updateRequest r fun _ => request.giveUp.2).progress? v = some (.finished x) :=
      Host.result?_eq_some_iff.mp hx
    rw [hprogress] at hx
    by_cases hne : v = r
    · subst hne
      rw [Function.update_self] at hx
      refine hledger.genuine v x (Host.result?_eq_some_iff.mpr ?_)
      simp [Host.progress?, hrequest, Request.progress_of_giveUp (Option.some.inj hx)]
    · rw [Function.update_of_ne hne] at hx
      exact hledger.genuine v x (Host.result?_eq_some_iff.mpr hx)

end Ledger

/-- What an action comes to keeps the ledger. -/
theorem Moves.ledger {s s' : World} {a : Act} (hmoves : Moves s a s') (hledger : s.Ledger) :
    s'.Ledger := by
  have hkept := hmoves.kept hledger.kept
  cases hmoves with
  | stays => exact hledger
  | created config source => exact hledger.same hkept rfl
  | shared config source shared hstarts => exact hledger.same hkept hstarts.requests_eq
  | started hstarts => exact hledger.same hkept hstarts.requests_eq
  | expired kind source hnew =>
      exact hledger.put (by simp [hnew, Standing.request?]) (by simp [hnew])
        Result.expired_ne_closedBefore
  | @looked c id handle timeout kind source hnew =>
      refine hledger.put ?_ (by simp [hnew]) ?_
      · split <;> simp [hnew, Standing.request?]
      · split <;> trivial
  | @ready c caller host hcaller hstanding hstarts =>
      exact (hledger.same hkept hstarts.requests_eq).put
        (by simp [hcaller, hstanding, Standing.request?]) (by simp [hcaller]) trivial
  | @refused c caller f host hcaller hstanding hstarts =>
      refine (hledger.same hkept hstarts.requests_eq).put ?_ (by simp [hcaller])
        (Standing.fits_unstarted hstarts.failed_ne_closedBefore)
      rw [Standing.request?_unstarted]
      simp [hcaller, hstanding, Standing.request?]
  | turned hcaller hstanding =>
      exact hledger.put (by simp [hcaller, hstanding, Standing.request?]) (by simp [hcaller])
        Host.closedAnswer_ne_closedBefore
  | accepted hcaller hstanding hhandle => exact hledger.accepted hcaller hstanding hkept
  | served hcaller hstanding hresult =>
      exact hledger.put (by simp [hcaller, hstanding, Standing.request?]) (by simp [hcaller])
        (Host.result?_eq_some_iff.mp hresult)
  | left m hcaller hstanding => exact hledger.left hcaller hstanding
  | closed hcloses => exact hledger.same hkept hcloses.requests_eq
  | noted => exact hledger.same hkept rfl
  | @worked w worker host hworker hdoes =>
      have hgoes : (s.braced w).Goes host := (hdoes.goes (kept_braced hledger.kept w) hworker)
      exact hledger.goes hkept hgoes hdoes.length_requests
  | opened => exact hledger.same hkept rfl

theorem ledger_opening (e : Circumstances) : (opening e).Ledger := by
  refine ⟨kept_opening e, ?_, ?_, ?_, ?_⟩ <;> simp [opening, Host.result?]

/-- **Callers and host agree in every run.** -/
theorem ledger_run {s : World} (hledger : s.Ledger) (acts : List Act) : (s.run acts).Ledger := by
  induction acts generalizing s with
  | nil => exact hledger
  | cons a acts ih => exact ih ((moves_step s a).ledger hledger)

end World

/-! ### What stays -/

/-- Where a request may **come** from where it stands, whatever its caller does. -/
def Progress.Leads : Progress → Progress → Prop
  | queued, _ => True
  | running, p => p = running ∨ ∃ x, p = finished x
  | p, q => q = p

theorem Progress.Leads.refl (p : Progress) : p.Leads p := by
  cases p <;> simp [Leads]

theorem Progress.Leads.trans {p q r : Progress} (hpq : p.Leads q) (hqr : q.Leads r) : p.Leads r := by
  cases p with
  | queued => trivial
  | running =>
      rcases hpq with rfl | ⟨x, rfl⟩
      · exact hqr
      · exact .inr ⟨x, hqr⟩
  | withdrawn | finished =>
      obtain rfl := hpq
      exact hqr

theorem Progress.Goes.leads {p q : Progress} (h : p.Goes q) : p.Leads q := by
  cases h with
  | stays => exact .refl _
  | starts | fails => trivial
  | @ends x => exact .inr ⟨x, rfl⟩

/-- Where a caller may come from where it stands: it keeps its request, and once it has been told
something it stays. -/
def Standing.Leads (st st' : Standing) : Prop :=
  (st.answer?.isSome → st' = st) ∧ ∀ r, st.request? = some r → st'.request? = some r

theorem Standing.Leads.refl (st : Standing) : st.Leads st := ⟨fun _ => rfl, fun _ h => h⟩

theorem Standing.Leads.trans {st st' st'' : Standing} (h : st.Leads st') (h' : st'.Leads st'') :
    st.Leads st'' := by
  refine ⟨fun htold => ?_, fun r hr => h'.2 r (h.2 r hr)⟩
  have hsame := h.1 htold
  rw [← hsame] at htold
  exact (h'.1 htold).trans hsame

namespace World

/-- A world goes **onward** to another: what has been settled or told stays, and so does what the
callers ask for. -/
structure Onward (s s' : World) : Prop where
  refusals : s'.refusals = s.refusals
  tickets : s.tickets <+: s'.tickets
  callers : ∀ (c : Nat) (caller : Caller), s.callers c = some caller →
    ∃ caller', s'.callers c = some caller' ∧ caller'.handle = caller.handle ∧
      caller'.kind = caller.kind ∧ caller'.source = caller.source ∧
      caller.standing.Leads caller'.standing
  progress : ∀ (r : Nat) (p : Progress), s.host.progress? r = some p →
    ∃ p', s'.host.progress? r = some p' ∧ p.Leads p'

namespace Onward

variable {s s' s'' : World} {host : Host} {c r : Nat} {caller : Caller} {standing : Standing}

theorem refl (s : World) : Onward s s :=
  ⟨rfl, List.prefix_rfl, fun _ caller h => ⟨caller, h, rfl, rfl, rfl, .refl _⟩,
    fun _ p h => ⟨p, h, .refl p⟩⟩

theorem trans (h : Onward s s') (h' : Onward s' s'') : Onward s s'' := by
  refine ⟨h'.refusals.trans h.refusals, h.tickets.trans h'.tickets, fun c caller hcaller => ?_,
    fun r p hp => ?_⟩
  · obtain ⟨caller', hcaller', hhandle, hkind, hsource, hleads⟩ := h.callers c caller hcaller
    obtain ⟨caller'', hcaller'', hhandle', hkind', hsource', hleads'⟩ := h'.callers c caller' hcaller'
    exact ⟨caller'', hcaller'', hhandle'.trans hhandle, hkind'.trans hkind, hsource'.trans hsource,
      hleads.trans hleads'⟩
  · obtain ⟨p', hp', hleads⟩ := h.progress r p hp
    obtain ⟨p'', hp'', hleads'⟩ := h'.progress r p' hp'
    exact ⟨p'', hp'', hleads.trans hleads'⟩

/-- A request that has been withdrawn stays so. -/
theorem withdrawn (h : Onward s s') (hr : s.host.progress? r = some .withdrawn) :
    s'.host.progress? r = some .withdrawn := by
  obtain ⟨p, hp, rfl⟩ := h.progress r .withdrawn hr
  exact hp

/-- The result of a request stays. -/
theorem finished (h : Onward s s') {x : Result} (hr : s.host.progress? r = some (.finished x)) :
    s'.host.progress? r = some (.finished x) := by
  obtain ⟨p, hp, rfl⟩ := h.progress r (.finished x) hr
  exact hp

/-- Whether a settled request has a result stays. -/
theorem result? (h : Onward s s') {p : Progress} (hr : s.host.progress? r = some p)
    (hsettled : p.isSettled = true) : s'.host.result? r = s.host.result? r := by
  cases p with
  | queued | running => cases hsettled
  | withdrawn =>
      rw [Host.result?_eq_none_of_withdrawn hr, Host.result?_eq_none_of_withdrawn (h.withdrawn hr)]
  | finished x =>
      rw [Host.result?_eq_some_iff.mpr hr, Host.result?_eq_some_iff.mpr (h.finished hr)]

/-- What a caller has been told stays. -/
theorem answer? (h : Onward s s') {x : Result} (hx : s.answer? c = some x) :
    s'.answer? c = some x := by
  obtain ⟨caller, hcaller, hx⟩ := Option.bind_eq_some_iff.mp hx
  obtain ⟨caller', hcaller', -, -, -, hleads, -⟩ := h.callers c caller hcaller
  rw [World.answer?, hcaller', Option.bind_some, hleads (by rw [hx]; rfl), hx]

/-- The host goes onward, and the callers stay. -/
theorem of_host (hprogress : ∀ (r : Nat) (p : Progress), s.host.progress? r = some p →
    ∃ p', host.progress? r = some p' ∧ p.Leads p') : Onward s { s with host } :=
  ⟨rfl, List.prefix_rfl, fun _ caller h => ⟨caller, h, rfl, rfl, rfl, .refl _⟩, hprogress⟩

/-- The host changes without its requests. -/
theorem of_requests (hrequests : host.requests = s.host.requests) : Onward s { s with host } :=
  of_host fun r p hp => ⟨p, by rw [Host.progress?, hrequests]; exact hp, .refl p⟩

/-- A caller moves. -/
theorem put (hleads : ∀ old, s.callers c = some old → old.handle = caller.handle ∧
    old.kind = caller.kind ∧ old.source = caller.source ∧ old.standing.Leads standing) :
    Onward s (s.put c caller standing) := by
  refine ⟨rfl, List.prefix_rfl, fun x old hx => ?_, fun r p hp => ⟨p, hp, .refl p⟩⟩
  by_cases hne : x = c
  · subst hne
    obtain ⟨hhandle, hkind, hsource, hleads⟩ := hleads old hx
    exact ⟨_, s.put_self x caller standing, hhandle.symm, hkind.symm, hsource.symm, hleads⟩
  · exact ⟨old, (put_of_ne hne ..).trans hx, rfl, rfl, rfl, .refl _⟩

/-- A caller that has not been told anything moves. -/
theorem moves (hcaller : s.callers c = some caller) (hanswer : caller.standing.answer? = none)
    (hrequest : ∀ r, caller.standing.request? = some r → standing.request? = some r) :
    Onward s (s.put c caller standing) := by
  refine put fun old hold => ?_
  obtain rfl := Option.some.inj (hcaller.symm.trans hold)
  exact ⟨rfl, rfl, rfl, by simp [hanswer], hrequest⟩

end Onward

/-- Giving a request up leads it onward. -/
theorem leads_giveUp {h : Host} (r v : Nat) (p : Progress) (hp : h.progress? v = some p) :
    ∃ p', (h.giveUp r).2.progress? v = some p' ∧ p.Leads p' := by
  cases hrequest : h.requests[r]? with
  | none =>
      refine ⟨p, ?_, .refl p⟩
      rw [Host.giveUp, hrequest]
      exact hp
  | some request =>
      rw [Host.giveUp_eq hrequest, Host.progress?_updateRequest hrequest]
      by_cases hne : v = r
      · subst hne
        rw [Function.update_self]
        refine ⟨_, rfl, ?_⟩
        obtain rfl : request.progress = p := by simpa [Host.progress?, hrequest] using hp
        rcases request.giveUp_cases with ⟨hq, heq⟩ | ⟨hq, heq⟩ | ⟨hq, heq⟩ <;> rw [heq]
        · rw [hq]
          trivial
        · exact .refl _
        · exact .refl _
      · rw [Function.update_of_ne hne]
        exact ⟨p, hp, .refl p⟩

/-- What an action comes to leads onward. -/
theorem Moves.onward {s s' : World} {a : Act} (hmoves : Moves s a s') (hkept : s.Kept) :
    Onward s s' := by
  cases hmoves with
  | stays => exact .refl s
  | created config source => exact .of_requests rfl
  | shared config source shared hstarts => exact .of_requests hstarts.requests_eq
  | started hstarts => exact .of_requests hstarts.requests_eq
  | expired kind source hnew | looked kind source hnew => exact .put (by simp [hnew])
  | @ready c caller host hcaller hstanding hstarts =>
      refine (Onward.of_requests hstarts.requests_eq).trans (.moves hcaller ?_ ?_) <;>
        simp [hstanding, Standing.answer?, Standing.request?]
  | @refused c caller f host hcaller hstanding hstarts =>
      refine (Onward.of_requests hstarts.requests_eq).trans (.moves hcaller ?_ ?_) <;>
        simp [hstanding, Standing.answer?, Standing.request?]
  | turned hcaller hstanding =>
      refine .moves hcaller ?_ ?_ <;> simp [hstanding, Standing.answer?, Standing.request?]
  | @accepted c w caller hcaller hstanding hhandle =>
      have haccept : Onward s { s with
          host := s.host.accept w caller.kind caller.source
          tickets := s.tickets ++ [Ticket.mk c caller.handle] } := by
        refine ⟨rfl, List.prefix_append .., fun _ old h => ⟨old, h, rfl, rfl, rfl, .refl _⟩,
          fun r p hp => ?_⟩
        obtain ⟨request, hrequest, hp⟩ := Option.map_eq_some_iff.mp hp
        refine ⟨p, Option.map_eq_some_iff.mpr ⟨request, ?_, hp⟩, .refl p⟩
        exact getElem?_concat_eq_some_iff.mpr (.inl hrequest)
      refine haccept.trans (.moves hcaller ?_ ?_) <;>
        simp [hstanding, Standing.answer?, Standing.request?]
  | served hcaller hstanding hresult =>
      refine .moves hcaller ?_ ?_ <;> simp [hstanding, Standing.answer?, Standing.request?]
  | @left c r caller m hcaller hstanding =>
      refine (Onward.of_host (leads_giveUp r)).trans (.moves hcaller ?_ ?_) <;>
        simp [hstanding, Standing.answer?, Standing.request?]
  | closed hcloses => exact .of_requests hcloses.requests_eq
  | noted => exact .of_requests rfl
  | @worked w worker host hworker hdoes =>
      have hgoes : (s.braced w).Goes host := hdoes.goes (kept_braced hkept w) hworker
      refine .of_host fun r p hp => ?_
      obtain ⟨p', hp', hgoes⟩ := hgoes.progress (r := r) (p := p) hp
      exact ⟨p', hp', hgoes.leads⟩
  | opened => exact .of_requests rfl

/-- **Nothing that has been settled or told is ever changed.** -/
theorem onward_run {s : World} (hkept : s.Kept) (acts : List Act) : Onward s (s.run acts) := by
  induction acts generalizing s with
  | nil => exact .refl s
  | cons a acts ih =>
      have hmoves := moves_step s a
      exact (hmoves.onward hkept).trans (ih (hmoves.kept hkept))

end World

end JanetEmbedding
