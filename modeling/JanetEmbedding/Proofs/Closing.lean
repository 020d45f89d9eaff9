import JanetEmbedding.Proofs.GivingUp
import Mathlib.Data.List.Induction

/-!
# Nothing is lost when a handle is closed

The order to stop is behind every request that was accepted. So a worker ends its interpreter only
when all requests of its handle are settled: each has been withdrawn by its own caller, or it has
been picked up once and answered once. What a worker has to say to requests that it finds behind the
order is never said.

## Conventions

* A call is **turned away** if it begins when its handle is closed. One that has no time is answered
  as any call without time.

## Main definitions

* `World.turns`: how often a request comes to be picked up, or finished, in a run.
* `World.Disposed`: what has become of a request.
* `World.Orderly`: what is promised of every run.

## Main results

* `World.orderly_run`: every run is orderly.
* `World.not_closedAnswer_without_time`: a call without time is not told that its handle is closed.
-/

namespace JanetEmbedding

open Interpreter (Call)

/-! ### The ends of the interpreters -/

namespace Host

/-- A request comes to its result without an end of the interpreter. -/
theorem Ends.deinit_not_mem {h : Host} {path : Option Text} {request : Request} {phase : Phase}
    {x : Result} {stdio : Stdio} {calls : List Call}
    (hends : Ends h path request phase x stdio calls) : Call.deinit ∉ calls := by
  cases hends with
  | unredirected | unencoded => simp
  | @concluded r session p captured =>
      unfold Interpreter.Program.looks
      split <;> simp [Call.rooted]

/-- A start ends the interpreter of the worker that it makes only, which fails then. -/
theorem Starts.deinits {h h' : Host} {id w : Nat} {f : Option Fault} (hstarts : Starts h id f h')
    (hdeinit : (w, Call.deinit) ∈ h'.trace) :
    (w, Call.deinit) ∈ h.trace ∨ h.phase? w = none ∧ ∃ f, h'.phase? w = some (.failed f) := by
  cases hstarts with
  | stays => exact .inl hdeinit
  | @fails handle f calls log =>
      rcases List.mem_append.mp hdeinit with hold | hnew
      · exact .inl hold
      · obtain ⟨call, -, heq⟩ := List.mem_map.mp hnew
        obtain rfl : h.workers.length = w := congrArg Prod.fst heq
        exact .inr ⟨by simp [Host.phase?], f, by simp [Host.phase?]⟩
  | serves => exact .inl (by simpa using hdeinit)

end Host

namespace World

/-- An interpreter is **ended** when the worker that has it leaves its loop, or when a worker fails
that is made. -/
theorem Moves.deinits {s s' : World} {a : Act} (hmoves : Moves s a s') {w : Nat}
    (hdeinit : (w, Call.deinit) ∈ s'.host.trace) :
    (w, Call.deinit) ∈ s.host.trace ∨
      (s.host.phase? w = none ∧ ∃ f, s'.host.phase? w = some (.failed f)) ∨
      (∃ worker rest, s.host.workers[w]? = some worker ∧ worker.phase = .serving ∧
        worker.queue = .stop :: rest ∧ s'.host.phase? w = some .stopped) := by
  cases hmoves with
  | stays | created | expired | looked | turned | accepted | served | noted | opened =>
      exact .inl hdeinit
  | shared config source shared hstarts =>
      rcases hstarts.deinits hdeinit with hold | hnew
      · exact .inl hold
      · exact .inr (.inl hnew)
  | started hstarts | ready _ _ hstarts | refused _ _ hstarts =>
      rcases hstarts.deinits hdeinit with hold | hnew
      · exact .inl hold
      · exact .inr (.inl hnew)
  | @left c r caller m hcaller hstanding =>
      obtain ⟨requests, heq⟩ := Host.giveUp_snd_eq s.host r
      rw [heq] at hdeinit
      exact .inl hdeinit
  | closed hcloses => cases hcloses <;> exact .inl hdeinit
  | @worked v worker host hworker hdoes =>
      have hbraced : (s.braced v).workers[v]? = some worker := hworker
      cases hdoes with
      | leave log hphase hqueue =>
          rcases List.mem_append.mp hdeinit with hold | hnew
          · exact .inl hold
          · obtain rfl : w = v := by simpa using hnew
            exact .inr (.inr ⟨worker, _, hworker, hphase, hqueue, by simp [Host.phase?, hbraced]⟩)
      | pass | pickUp | refuse => exact .inl hdeinit
      | evaluate =>
          rcases List.mem_append.mp hdeinit with hold | hnew
          · exact .inl hold
          · simp at hnew
      | finish log hheld hrequest hends =>
          rcases List.mem_append.mp hdeinit with hold | hnew
          · exact .inl hold
          · obtain ⟨call, hcall, heq⟩ := List.mem_map.mp hnew
            obtain rfl : call = .deinit := congrArg Prod.snd heq
            exact absurd hcall hends.deinit_not_mem

/-- No call of the interpreter is taken back. -/
theorem Moves.trace_prefix {s s' : World} {a : Act} (hmoves : Moves s a s') :
    s.host.trace <+: s'.host.trace := by
  rcases hmoves.calls with ⟨more, htrace, -⟩ | ⟨w, -, -, -, -, -, source, path, -, -, -, htrace⟩
  · exact ⟨more, htrace.symm⟩
  · exact ⟨_, htrace.symm⟩

/-- The interpreters that have been **ended** are those of the workers that have ended. -/
structure Ended (s : World) : Prop where
  hasEnded : ∀ w, (w, Call.deinit) ∈ s.host.trace →
    ∃ p, s.host.phase? w = some p ∧ p.hasEnded = true
  deinit : ∀ w, s.host.phase? w = some .stopped → (w, Call.deinit) ∈ s.host.trace

/-- A worker that has ended stays so. -/
theorem Moves.hasEnded {s s' : World} {a : Act} (hmoves : Moves s a s') {w : Nat} {p : Phase}
    (hp : s.host.phase? w = some p) (hended : p.hasEnded = true) : s'.host.phase? w = some p := by
  rcases hmoves.phases w with hsame | ⟨hnone, -⟩ | ⟨worker, host, -, hworker, rfl, hdoes⟩
  · exact hsame.trans hp
  · cases hnone.symm.trans hp
  · obtain rfl : worker.phase = p := by simpa [Host.phase?, hworker] using hp
    rw [hdoes.hasEnded_eq_false] at hended
    cases hended

theorem Moves.ended {s s' : World} {a : Act} (hmoves : Moves s a s') (hended : s.Ended) : s'.Ended := by
  refine ⟨fun w hw => ?_, fun w hw => ?_⟩
  · rcases hmoves.deinits hw with hold | ⟨-, f, hnew⟩ | ⟨-, -, -, -, -, hstopped⟩
    · obtain ⟨p, hp, hp'⟩ := hended.hasEnded w hold
      exact ⟨p, hmoves.hasEnded hp hp', hp'⟩
    · exact ⟨.failed f, hnew, rfl⟩
    · exact ⟨.stopped, hstopped, rfl⟩
  · rcases hmoves.phases w with hsame | ⟨-, p, hp, hnew⟩ | ⟨worker, host, rfl, hworker, rfl, hdoes⟩
    · exact hmoves.trace_prefix.subset (hended.deinit w (hsame.symm.trans hw))
    · obtain rfl := Option.some.inj (hp.symm.trans hw)
      cases hnew
    · have hbraced : (s.braced w).workers[w]? = some worker := hworker
      cases hdoes with
      | leave => exact List.mem_append_right _ (List.mem_singleton_self _)
      | pass log hphase => simp [Host.phase?, hbraced, hphase] at hw
      | pickUp | refuse | evaluate | finish => simp [Host.phase?, hbraced] at hw

theorem ended_opening (e : Circumstances) : (opening e).Ended := by
  constructor <;> simp [opening, Host.phase?]

theorem ended_run {s : World} (hended : s.Ended) (acts : List Act) : (s.run acts).Ended := by
  induction acts generalizing s with
  | nil => exact hended
  | cons a acts ih => exact ih ((moves_step s a).ended hended)

end World

/-! ### What has become of a request -/

namespace Progress

/-- Whether a request has been picked up. -/
def isPicked : Progress → Bool
  | running => true
  | finished _ => true
  | _ => false

/-- Whether a request is finished. -/
def isFinished : Progress → Bool
  | finished _ => true
  | _ => false

/-- Whether a request has been withdrawn. -/
def isWithdrawn : Progress → Bool
  | withdrawn => true
  | _ => false

theorem Leads.isPicked {p p' : Progress} (h : p.Leads p') (hp : p.isPicked = true) :
    p'.isPicked = true := by
  cases p with
  | queued | withdrawn => cases hp
  | running => rcases h with rfl | ⟨x, rfl⟩ <;> rfl
  | finished x =>
      obtain rfl := h
      rfl

theorem Leads.isFinished {p p' : Progress} (h : p.Leads p') (hp : p.isFinished = true) :
    p'.isFinished = true := by
  cases p with
  | queued | withdrawn | running => cases hp
  | finished x =>
      obtain rfl := h
      rfl

end Progress

namespace World

/-- How often a request comes to stand in some way, in a run. -/
def turns (s : World) (q : Progress → Bool) (r : Nat) : List Act → Nat
  | [] => 0
  | a :: acts =>
    (!(s.host.progress? r).any q && ((s.step a).host.progress? r).any q).toNat +
      (s.step a).turns q r acts

/-- A request that cannot come back from how it stands comes to stand so at most once. -/
theorem turns_add {s : World} (hkept : s.Kept) {q : Progress → Bool}
    (hq : ∀ {p p' : Progress}, p.Leads p' → q p = true → q p' = true) (r : Nat) (acts : List Act) :
    s.turns q r acts + ((s.host.progress? r).any q).toNat =
      (((s.run acts).host.progress? r).any q).toNat := by
  induction acts generalizing s with
  | nil => exact Nat.zero_add _
  | cons a acts ih =>
      have hmoves := moves_step s a
      have hstays : (s.host.progress? r).any q = true → ((s.step a).host.progress? r).any q = true := by
        intro hbefore
        obtain ⟨p, hp, hbefore⟩ := (Option.any_eq_true _ _).mp hbefore
        obtain ⟨p', hp', hleads⟩ := (hmoves.onward hkept).progress r p hp
        exact (Option.any_eq_true _ _).mpr ⟨p', hp', hq hleads hbefore⟩
      rw [run_cons, ← ih (hmoves.kept hkept), turns]
      cases hbefore : (s.host.progress? r).any q with
      | true =>
          rw [hstays hbefore]
          simp
      | false => simp [Nat.add_comm]

/-- A request comes to stand in some way once if it stands so in the end. -/
theorem turns_opening (e : Circumstances) {q : Progress → Bool}
    (hq : ∀ {p p' : Progress}, p.Leads p' → q p = true → q p' = true) (r : Nat) (acts : List Act) :
    (opening e).turns q r acts = ((((opening e).run acts).host.progress? r).any q).toNat := by
  rw [← turns_add (kept_opening e) hq r acts]
  rfl

/-- What has **become** of a request in a run. -/
inductive Disposed (e : Circumstances) (acts : List Act) (r : Nat) (t : Ticket) : Prop
  /-- Its own caller has withdrawn it, and it has never been picked up. -/
  | withdrawn {caller : Caller} (hcaller : ((opening e).run acts).callers t.caller = some caller)
      (hgone : caller.standing = .gone r (.expired false))
      (hprogress : ((opening e).run acts).host.progress? r = some .withdrawn)
      (hpicked : (opening e).turns Progress.isPicked r acts = 0)
  /-- It has been picked up once and finished once, and evaluated once unless the result says why not. -/
  | answered {x : Result} (hresult : ((opening e).run acts).host.result? r = some x)
      (hgenuine : x.Genuine) (hpicked : (opening e).turns Progress.isPicked r acts = 1)
      (hfinished : (opening e).turns Progress.isFinished r acts = 1)
      (hevaluated : (opening e).evaluationsOf r acts = 1 ∨ x.Unevaluated)

/-- What has become of a request that is settled. -/
theorem disposed_of_settled (e : Circumstances) {acts : List Act} {r : Nat} {t : Ticket}
    {p : Progress} (ht : ((opening e).run acts).tickets[r]? = some t)
    (hp : ((opening e).run acts).host.progress? r = some p) (hsettled : p.isSettled = true) :
    Disposed e acts r t := by
  have hledger := ledger_run (ledger_opening e) acts
  have hpicked := turns_opening e (fun h => h.isPicked) r acts
  have hfinished := turns_opening e (fun h => h.isFinished) r acts
  rw [hp] at hpicked hfinished
  cases p with
  | queued | running => cases hsettled
  | withdrawn =>
      obtain ⟨caller, hcaller, hr, hfits⟩ := hledger.fits_of_ticket ht
      have hgone : caller.standing = .gone r (.expired false) := by
        cases hstanding : caller.standing with
        | starting | submitting | dismissed | raised => simp [hstanding, Standing.request?] at hr
        | waiting v =>
            simp only [hstanding, Standing.request?, Option.some.injEq] at hr hfits
            subst hr
            obtain ⟨p, hp', hne⟩ := hfits
            exact absurd (Option.some.inj (hp'.symm.trans hp)) hne
        | served v x =>
            simp only [hstanding, Standing.request?, Option.some.injEq] at hr hfits
            subst hr
            cases hp.symm.trans hfits
        | gone v x =>
            simp only [hstanding, Standing.request?, Option.some.injEq] at hr hfits
            subst hr
            rcases hfits with ⟨-, rfl⟩ | ⟨hv, -⟩ | ⟨y, flag, hv, -⟩
            · rfl
            · cases hp.symm.trans hv
            · cases hp.symm.trans hv
      exact .withdrawn hcaller hgone hp hpicked
  | finished x =>
      have hresult := Host.result?_eq_some_iff.mpr hp
      have htallied := (tallied_opening e).run (kept_opening e) acts
      refine .answered hresult (hledger.genuine r x hresult) hpicked hfinished ?_
      simpa using htallied.finished r x hresult

/-! ### Before an interpreter is ended -/

/-- The requests of a worker that holds nothing and has nothing in its queue are settled. -/
theorem settled_of_idle {s : World} (hkept : s.Kept) {r w : Nat} {t : Ticket} {worker : Worker}
    (ht : s.tickets[r]? = some t) (hw : s.host.workerOf? t.handle = some w)
    (hworker : s.host.workers[w]? = some worker) (hheld : worker.phase.request? = none)
    (hrequests : worker.requests = []) :
    ∃ p, s.host.progress? r = some p ∧ p.isSettled = true := by
  have hr : r ∈ placesOf s.owners t.handle := mem_placesOf.mpr (by simp [owners, ht])
  rcases (hkept.charged hw hworker).cases_of_mem hr with hsettled | hholds | hqueued
  · exact hsettled
  · cases hheld.symm.trans hholds
  · rw [hrequests] at hqueued
    cases hqueued

/-- A worker that has ended its interpreter, and belongs to a handle, has left its loop. -/
theorem stopped_of_hasEnded {s : World} (hkept : s.Kept) {id w : Nat} {worker : Worker}
    (hw : s.host.workerOf? id = some w) (hworker : s.host.workers[w]? = some worker)
    (hended : worker.phase.hasEnded = true) :
    worker.phase = .stopped ∧ worker.requests = [] ∧ s.host.isClosed id = true := by
  rcases (hkept.charged hw hworker).shape with ⟨hlive, -⟩ | ⟨hclosed, hqueue, hstopped⟩
  · cases hphase : worker.phase <;> simp_all [Phase.isLive, Phase.hasEnded]
  · exact ⟨hstopped, by rw [Worker.requests, hqueue]; rfl, hclosed⟩

/-- **An interpreter is ended when the requests of its handle are settled**: they are so before the
action that ends it. -/
theorem settled_of_deinit {s : World} (hkept : s.Kept) (hended : s.Ended) {a : Act} {r w : Nat}
    {t : Ticket} (hdeinit : (w, Call.deinit) ∈ (s.step a).host.trace)
    (ht : s.tickets[r]? = some t) (hw : s.host.workerOf? t.handle = some w) :
    ∃ p, s.host.progress? r = some p ∧ p.isSettled = true := by
  obtain ⟨worker, hworker, hcharged⟩ := Host.Kept.attached hkept t.handle w hw
  rcases (moves_step s a).deinits hdeinit with hold | ⟨hnone, -⟩ | ⟨x, rest, hx, hphase, hqueue, -⟩
  · obtain ⟨p, hp, hp'⟩ := hended.hasEnded w hold
    obtain rfl : worker.phase = p := by simpa [Host.phase?, hworker] using hp
    obtain ⟨hstopped, hrequests, -⟩ := stopped_of_hasEnded hkept hw hworker hp'
    exact settled_of_idle hkept ht hw hworker (by rw [hstopped]; rfl) hrequests
  · simp [Host.phase?, hworker] at hnone
  · obtain rfl : worker = x := Option.some.inj (hworker.symm.trans hx)
    obtain ⟨rfl, -⟩ := hcharged.eq_nil_of_stop hqueue
    exact settled_of_idle hkept ht hw hworker (by rw [hphase]; rfl)
      (by rw [Worker.requests, hqueue]; rfl)

/-- A worker without a step rests. -/
theorem rests_of_quiet {s : World} (hkept : s.Kept) {w : Nat} {worker : Worker}
    (hworker : s.host.workers[w]? = some worker) (hquiet : s.host.work? w = none) :
    Host.Rests s.host worker := by
  refine Host.rests_of_work? hworker (fun r hr => ?_) hquiet
  have hheld : s.host.handled? w = some r := by simp [Host.handled?, hworker, hr]
  obtain ⟨request, hrequest, -⟩ := Option.map_eq_some_iff.mp (hkept.progress_of_handled hheld)
  rw [hrequest]
  rfl

/-- Whether no evaluation stands at a gate that is closed. -/
def Ungated (s : World) : Prop :=
  ∀ w r session p, s.host.phase? w = some (.evaluating r session p) → s.host.isOpen p.gate = true

/-- When no worker has a step left, and no evaluation stands at a gate, the worker of a handle has
left its loop or has nothing to do. -/
theorem idle_of_quiet {s : World} (hkept : s.Kept) (hquiet : ∀ w, s.host.work? w = none)
    (hungated : s.Ungated) {id w : Nat} {worker : Worker} (hw : s.host.workerOf? id = some w)
    (hworker : s.host.workers[w]? = some worker) :
    worker.phase = .stopped ∧ worker.requests = [] ∨ worker.phase = .serving ∧ worker.queue = [] := by
  have hopen : ∀ {v : Nat} {x : Worker} {r : Nat} {session : Capture.Session}
      {p : Interpreter.Program}, s.host.workers[v]? = some x →
        x.phase = .evaluating r session p → s.host.isOpen p.gate ≠ false := by
    intro v x r session p hx hphase
    rw [hungated v r session p (by simp [Host.phase?, hx, hphase])]
    simp
  cases rests_of_quiet hkept hworker (hquiet w) with
  | created hphase =>
      rcases (hkept.charged hw hworker).shape with ⟨hlive, -⟩ | ⟨-, -, hstopped⟩
      · simp [hphase, Phase.isLive] at hlive
      · cases hphase.symm.trans hstopped
  | ended hphase =>
      obtain ⟨hstopped, hrequests, -⟩ := stopped_of_hasEnded hkept hw hworker hphase
      exact .inl ⟨hstopped, hrequests⟩
  | empty hphase hqueue => exact .inr ⟨hphase, hqueue⟩
  | crowded hphase hholder =>
      -- the descriptors are held by a worker that is evaluating, and has no step either
      obtain ⟨v, hv⟩ := Option.ne_none_iff_exists'.mp hholder
      obtain ⟨holder, hholder, hevaluating⟩ := (Host.Kept.holder hkept v).mp hv
      cases rests_of_quiet hkept hholder (hquiet v) with
      | gated hphase' hclosed => exact absurd hclosed (hopen hholder hphase')
      | created hphase' | empty hphase' | crowded hphase' =>
          simp [hphase', Phase.isEvaluating] at hevaluating
      | ended hphase' => cases hx : holder.phase <;> simp_all [Phase.hasEnded, Phase.isEvaluating]
  | gated hphase hclosed => exact absurd hclosed (hopen hworker hphase)

/-- When no worker has a step left, and no evaluation stands at a gate, every request is settled,
and the interpreters of the handles that are closed are ended. -/
theorem done_of_quiet {s : World} (hkept : s.Kept) (hended : s.Ended)
    (hquiet : ∀ w, s.host.work? w = none) (hungated : s.Ungated) :
    (∀ r t, s.tickets[r]? = some t → ∃ p, s.host.progress? r = some p ∧ p.isSettled = true) ∧
      ∀ id w, s.host.workerOf? id = some w → s.host.isClosed id = true →
        (w, Call.deinit) ∈ s.host.trace := by
  refine ⟨fun r t ht => ?_, fun id w hw hclosed => ?_⟩
  · obtain ⟨w, hw⟩ := Option.isSome_iff_exists.mp (Host.Kept.owned hkept t.handle
      (List.mem_map_of_mem (List.mem_of_getElem? ht)))
    obtain ⟨worker, hworker, -⟩ := Host.Kept.attached hkept t.handle w hw
    rcases idle_of_quiet hkept hquiet hungated hw hworker with ⟨hphase, hrequests⟩ | ⟨hphase, hqueue⟩
    · exact settled_of_idle hkept ht hw hworker (by rw [hphase]; rfl) hrequests
    · exact settled_of_idle hkept ht hw hworker (by rw [hphase]; rfl)
        (by rw [Worker.requests, hqueue]; rfl)
  · obtain ⟨worker, hworker, hcharged⟩ := Host.Kept.attached hkept id w hw
    rcases idle_of_quiet hkept hquiet hungated hw hworker with ⟨hphase, -⟩ | ⟨hphase, hqueue⟩
    · exact hended.deinit w (by simp [Host.phase?, hworker, hphase])
    · rcases hcharged.shape with ⟨-, hshape⟩ | ⟨-, -, hstopped⟩
      · simp [hqueue, hclosed] at hshape
      · cases hphase.symm.trans hstopped

end World

/-! ### The account of a handle -/

/-- The requests of a handle, counted. -/
theorem length_placesOf (owners : List Nat) (id : Nat) :
    (placesOf owners id).length = owners.countP (· = id) := by
  induction owners using List.reverseRecOn with
  | nil => rfl
  | append_singleton owners owner ih =>
      rw [placesOf_concat, List.length_append, ih, List.countP_append]
      by_cases howner : owner = id <;> simp [howner]

/-- The queue of the worker that a handle has or had. -/
def Host.queueOf (h : Host) (id : Nat) : List Item :=
  ((h.workerOf? id).bind (h.workers[·]?)).elim [] (·.queue)

/-- A request is in the queue of a worker if the queue holds it. -/
theorem Worker.mem_requests {worker : Worker} {r : Nat} :
    r ∈ worker.requests ↔ Item.request r ∈ worker.queue := by
  rw [requests, List.mem_filterMap]
  constructor
  · rintro ⟨item, hitem, hr⟩
    cases item with
    | request v =>
        obtain rfl : v = r := Option.some.inj hr
        exact hitem
    | stop => cases hr
  · exact fun hr => ⟨.request r, hr, rfl⟩

/-- What is settled has been finished, or it has been withdrawn. -/
theorem Progress.isFinished_eq_not {p : Progress} (h : p.isSettled = true) :
    p.isWithdrawn = !p.isFinished := by
  cases p <;> first | rfl | cases h

namespace World

/-- How many calls on a handle have been **accepted**. -/
def accepted (s : World) (id : Nat) : Nat := s.tickets.countP (·.handle = id)

/-- How many of its requests are finished. -/
def resolved (s : World) (id : Nat) : Nat :=
  (placesOf s.owners id).countP fun r => (s.host.progress? r).any Progress.isFinished

/-- How many of its requests have been withdrawn and passed over by the worker. -/
def skipped (s : World) (id : Nat) : Nat :=
  (placesOf s.owners id).countP fun r =>
    (s.host.progress? r).any Progress.isWithdrawn && !(s.host.queueOf id).contains (.request r)

theorem length_requests (s : World) (id : Nat) : (placesOf s.owners id).length = s.accepted id := by
  rw [length_placesOf, owners, List.countP_map]
  rfl

/-- Of the requests of a handle that are neither held nor queued, every one is finished or has been
passed over; and of the others none. -/
theorem resolved_add_skipped {s : World} (hkept : s.Kept) {id w : Nat} {worker : Worker}
    {done : List Nat} (hw : s.host.workerOf? id = some w)
    (hworker : s.host.workers[w]? = some worker)
    (horder : placesOf s.owners id = done ++ worker.phase.request?.toList ++ worker.requests)
    (hdone : ∀ r ∈ done, ∃ p, s.host.progress? r = some p ∧ p.isSettled = true) :
    s.resolved id + s.skipped id = done.length := by
  have hcharged := hkept.charged hw hworker
  have hqueue : s.host.queueOf id = worker.queue := by simp [Host.queueOf, hw, hworker]
  have hnodup := nodup_placesOf s.owners id
  rw [horder, List.nodup_append] at hnodup
  -- what is neither held nor queued
  have hpassed : done.countP (fun r => (s.host.progress? r).any Progress.isWithdrawn &&
      !(s.host.queueOf id).contains (.request r)) =
        done.countP fun r => !(s.host.progress? r).any Progress.isFinished := by
    refine List.countP_congr fun r hr => ?_
    obtain ⟨p, hp, hsettled⟩ := hdone r hr
    have hnot : Item.request r ∉ worker.queue := fun hmem =>
      hnodup.2.2 r (List.mem_append_left _ hr) r (Worker.mem_requests.mpr hmem) rfl
    simp [hp, hqueue, hnot, p.isFinished_eq_not hsettled]
  have hheld : ∀ r ∈ worker.phase.request?.toList, s.host.progress? r = some .running := fun r hr =>
    hcharged.held r (by simpa using hr)
  have hunfinished : ∀ r ∈ worker.phase.request?.toList ++ worker.requests,
      ¬ (s.host.progress? r).any Progress.isFinished = true := fun r hr => by
    rcases List.mem_append.mp hr with hr | hr
    · simp [hheld r hr, Progress.isFinished]
    · rcases hcharged.queued r hr with hp | hp <;> simp [hp, Progress.isFinished]
  have hunpassed : ∀ r ∈ worker.phase.request?.toList ++ worker.requests,
      ¬ ((s.host.progress? r).any Progress.isWithdrawn &&
        !(s.host.queueOf id).contains (.request r)) = true := fun r hr => by
    rcases List.mem_append.mp hr with hr | hr
    · simp [hheld r hr, Progress.isWithdrawn]
    · simp [hqueue, Worker.mem_requests.mp hr]
  rw [resolved, skipped, horder, List.append_assoc]
  generalize worker.phase.request?.toList ++ worker.requests = rest at hunfinished hunpassed ⊢
  rw [List.countP_append, List.countP_append, List.countP_eq_zero.mpr hunfinished,
    List.countP_eq_zero.mpr hunpassed, hpassed, Nat.add_zero, Nat.add_zero,
    List.length_eq_countP_add_countP fun r => (s.host.progress? r).any Progress.isFinished]
  simp

/-- **The account of a handle that runs**: what has been accepted is finished, or passed over, or
held by the worker, or in its queue. -/
theorem accepted_eq {s : World} (hkept : s.Kept) {id w : Nat} {st : Host.Status}
    (hstatus : s.host.status? id = some st) (hstate : st.state = .running w) :
    s.accepted id = s.resolved id + s.skipped id + st.busy.toNat + st.queued := by
  obtain ⟨handle, hhandle, hstatus⟩ := Option.bind_eq_some_iff.mp hstatus
  have hstate' : handle.state = .running w := by
    rw [← hstate]
    split at hstatus <;> cases hstatus <;> rfl
  have hw : s.host.workerOf? id = some w := by
    simp [Host.workerOf?, hhandle, hstate', HandleState.hired?]
  have hopen : s.host.isClosed id = false := by
    simp [Host.isClosed, hhandle, hstate', HandleState.isClosed]
  obtain ⟨worker, hworker, hcharged⟩ := Host.Kept.attached hkept id w hw
  obtain ⟨done, horder, hdone⟩ := hcharged.order
  rw [hstate', HandleState.worker?, Option.bind_some, hworker] at hstatus
  obtain rfl := Option.some.inj hstatus
  have hqueue : worker.queue.length = worker.requests.length := by
    rcases hcharged.shape with ⟨-, hshape⟩ | ⟨hclosed, -, -⟩
    · rw [hshape, hopen]
      simp
    · rw [hopen] at hclosed
      cases hclosed
  have hbusy : worker.phase.request?.toList.length = worker.isBusy.toNat := by
    rw [Worker.isBusy]
    cases worker.phase.request? <;> rfl
  calc s.accepted id
      = done.length + worker.phase.request?.toList.length + worker.requests.length := by
        rw [← s.length_requests, horder, List.length_append, List.length_append]
    _ = s.resolved id + s.skipped id + worker.isBusy.toNat + worker.queue.length := by
        rw [resolved_add_skipped hkept hw hworker horder hdone, hbusy, hqueue]

end World

/-! ### Calls that are turned away -/

namespace Host

/-- Whether a handle is closed, told from the handle. -/
theorem isClosed_eq_true_iff {h : Host} {id : Nat} :
    h.isClosed id = true ↔ ∃ handle, h.handles[id]? = some handle ∧ handle.state.isClosed = true := by
  rw [isClosed, Option.any_eq_true]

/-- A handle that is closed has no worker to take requests. -/
theorem worker?_of_isClosed {h : Host} {id : Nat} (hclosed : h.isClosed id = true) :
    h.handles[id]?.bind (·.state.worker?) = none := by
  obtain ⟨handle, hhandle, hstate⟩ := isClosed_eq_true_iff.mp hclosed
  rw [hhandle, Option.bind_some]
  cases hx : handle.state <;> simp_all [HandleState.isClosed, HandleState.worker?]

/-- A start leaves a handle that is not fresh as it is. -/
theorem Starts.handle_of_ne_fresh {h h' : Host} {id i : Nat} {f : Option Fault} {handle : Handle}
    (hstarts : Starts h id f h') (hhandle : h.handles[i]? = some handle)
    (hstate : handle.state ≠ .fresh) : h'.handles[i]? = some handle := by
  cases hstarts with
  | stays | fails => exact hhandle
  | @serves other log hother hfresh =>
      have hi : id ≠ i := by
        rintro rfl
        obtain rfl := Option.some.inj (hother.symm.trans hhandle)
        exact hstate hfresh
      exact (List.getElem?_modify_ne _ _ hi).trans hhandle

/-- Closing leaves a handle that is closed already as it is. -/
theorem Closes.handle_of_closed {h h' : Host} {id i : Nat} {handle : Handle}
    (hcloses : Closes h id h') (hhandle : h.handles[i]? = some handle)
    (hclosed : handle.state.isClosed = true) : h'.handles[i]? = some handle := by
  have hne : ∀ {other : Handle}, h.handles[id]? = some other → other.state.isClosed = false →
      id ≠ i := by
    rintro other hother hopen rfl
    obtain rfl := Option.some.inj (hother.symm.trans hhandle)
    cases hopen.symm.trans hclosed
  cases hcloses with
  | stays => exact hhandle
  | fresh shared hother hstate =>
      exact (List.getElem?_modify_ne _ _ (hne hother (by rw [hstate]; rfl))).trans hhandle
  | running shared hother hstate =>
      exact (List.getElem?_modify_ne _ _ (hne hother (by rw [hstate]; rfl))).trans hhandle

/-- A handle that is made changes no other. -/
theorem handle_addHandle {h : Host} {i : Nat} {handle : Handle} (config : Config)
    (source : LibrarySource) (hhandle : h.handles[i]? = some handle) :
    (h.addHandle config source).2.handles[i]? = some handle :=
  getElem?_concat_eq_some_iff.mpr (.inl hhandle)

/-- Workers do not change handles. -/
theorem Does.handles_eq {h h' : Host} {w : Nat} {worker : Worker} (hdoes : Does h w worker h') :
    h'.handles = h.handles := by
  cases hdoes <;> rfl

end Host

namespace World

/-- A handle that is closed stays **as it is**. -/
theorem Moves.handle_of_closed {s s' : World} {a : Act} (hmoves : Moves s a s') {id : Nat}
    {handle : Handle} (hhandle : s.host.handles[id]? = some handle)
    (hclosed : handle.state.isClosed = true) : s'.host.handles[id]? = some handle := by
  have hstate : handle.state ≠ .fresh := fun heq => by
    rw [heq] at hclosed
    cases hclosed
  cases hmoves with
  | stays | expired | looked | turned | accepted | served | noted | opened => exact hhandle
  | created config source => exact Host.handle_addHandle config source hhandle
  | shared config source shared hstarts =>
      exact hstarts.handle_of_ne_fresh (Host.handle_addHandle _ source hhandle) hstate
  | started hstarts | ready _ _ hstarts | refused _ _ hstarts =>
      exact hstarts.handle_of_ne_fresh hhandle hstate
  | @left c r caller m hcaller hstanding =>
      obtain ⟨requests, heq⟩ := Host.giveUp_snd_eq s.host r
      rw [heq]
      exact hhandle
  | closed hcloses => exact hcloses.handle_of_closed hhandle hclosed
  | worked hworker hdoes => exact (congrArg (·[id]?) hdoes.handles_eq).trans hhandle

theorem Moves.isClosed {s s' : World} {a : Act} (hmoves : Moves s a s') {id : Nat}
    (hclosed : s.host.isClosed id = true) : s'.host.isClosed id = true := by
  obtain ⟨handle, hhandle, hstate⟩ := Host.isClosed_eq_true_iff.mp hclosed
  exact Host.isClosed_eq_true_iff.mpr ⟨handle, hmoves.handle_of_closed hhandle hstate, hstate⟩

/-- A call that has begun on a closed handle is going to be turned away, or it has been. -/
def TurnedAway (s : World) (c : Nat) : Prop :=
  ∃ caller, s.callers c = some caller ∧ s.host.isClosed caller.handle = true ∧
    (caller.standing = .submitting ∨ caller.standing = .dismissed Host.closedAnswer)

/-- What the caller of such a call does: nothing, or it is told so. -/
theorem TurnedAway.step_eq {s : World} {c : Nat} (h : s.TurnedAway c) {a : Act}
    (ha : a.caller? = some c) :
    s.step a = s ∨ ∃ caller, s.callers c = some caller ∧
      s.step a = s.put c caller (.dismissed Host.closedAnswer) := by
  obtain ⟨caller, hcaller, hclosed, hstanding⟩ := h
  have hmoves := moves_step s a
  generalize s.step a = s' at hmoves ⊢
  have hother : ∀ {st : Standing}, caller.standing = st → st = .submitting ∨ ∃ x, st = .dismissed x := by
    rintro st rfl
    exact hstanding.imp_right fun hdismissed => ⟨_, hdismissed⟩
  cases hmoves.proceeds ha hcaller with
  | stays => exact .inl rfl
  | turned => exact .inr ⟨caller, hcaller, rfl⟩
  | accepted _ hhandle => cases hhandle.symm.trans (Host.worker?_of_isClosed hclosed)
  | starts hstanding | served hstanding | left hstanding =>
      rcases hother hstanding with heq | ⟨x, heq⟩ <;> cases heq

/-- It is told so as soon as it goes on. -/
theorem TurnedAway.told {s : World} {c : Nat} (h : s.TurnedAway c) :
    (s.step (.advance c)).answer? c = some Host.closedAnswer := by
  obtain ⟨caller, hcaller, hclosed, hstanding | hstanding⟩ := h
  · simp [World.step, advance, hcaller, hstanding, Host.submit, Host.worker?_of_isClosed hclosed,
      answer?, Standing.answer?]
  · have hsame : s.step (.advance c) = s := step_of_dismissed hcaller hstanding rfl
    simp [hsame, answer?, hcaller, hstanding, Standing.answer?]

theorem TurnedAway.step {s : World} {c : Nat} (h : s.TurnedAway c) (a : Act) :
    (s.step a).TurnedAway c := by
  have hmoves := moves_step s a
  by_cases ha : a.caller? = some c
  · rcases h.step_eq ha with hsame | ⟨caller, hcaller, heq⟩
    · rwa [hsame]
    · obtain ⟨caller', hcaller', hclosed, -⟩ := h
      obtain rfl : caller = caller' := Option.some.inj (hcaller.symm.trans hcaller')
      rw [heq]
      exact ⟨_, put_self .., hclosed, .inr rfl⟩
  · obtain ⟨caller, hcaller, hclosed, hstanding⟩ := h
    exact ⟨caller, (hmoves.callers_of_ne ha).trans hcaller, hmoves.isClosed hclosed, hstanding⟩

theorem TurnedAway.run {s : World} {c : Nat} (h : s.TurnedAway c) (acts : List Act) :
    (s.run acts).TurnedAway c := by
  induction acts generalizing s with
  | nil => exact h
  | cons a acts ih => exact ih (h.step a)

/-- A call that begins on a closed handle is going to be turned away, if it has time. -/
theorem turnedAway_call {s : World} {c id : Nat} {handle : Handle} {timeout : Option Seconds}
    (kind : RequestKind) (source : Text) (hnew : s.callers c = none)
    (hhandle : s.host.handles[id]? = some handle) (hclosed : handle.state.isClosed = true)
    (hover : (Host.patience handle timeout).any (·.isOver) = false) :
    (s.step (.call c id kind source timeout)).TurnedAway c ∧
      (s.step (.call c id kind source timeout)).host = s.host := by
  have hstep : s.step (.call c id kind source timeout) =
      s.put c ⟨id, kind, source, .submitting⟩ .submitting := by
    simp only [World.step, look, hnew, hhandle, hover, Bool.false_eq_true, if_false]
    cases hstate : handle.state <;> simp_all [HandleState.isClosed]
  rw [hstep]
  refine ⟨⟨_, put_self .., ?_, .inl rfl⟩, rfl⟩
  exact Host.isClosed_eq_true_iff.mpr ⟨handle, hhandle, hclosed⟩

/-- The action with which a call begins is that of a call that is **turned away**: the host stays
whatever its caller does, nothing is queued, and the caller is told that the handle is closed as
soon as it goes on. -/
structure ClosedTo (s : World) (c : Nat) (a : Act) : Prop where
  first : (s.step a).host = s.host
  host : ∀ more b, b.caller? = some c →
    ((s.run (a :: more)).step b).host = (s.run (a :: more)).host
  unqueued : ∀ more t, t ∈ (s.run (a :: more)).tickets → t.caller ≠ c
  answer : ∀ more x, (s.run (a :: more)).answer? c = some x → x = Host.closedAnswer
  told : ∀ more, ((s.run (a :: more)).step (.advance c)).answer? c = some Host.closedAnswer

theorem closedTo_call {s : World} (hledger : s.Ledger) {c id : Nat} {handle : Handle}
    {timeout : Option Seconds} (kind : RequestKind) (source : Text) (hnew : s.callers c = none)
    (hhandle : s.host.handles[id]? = some handle) (hclosed : handle.state.isClosed = true)
    (hover : (Host.patience handle timeout).any (·.isOver) = false) :
    ClosedTo s c (.call c id kind source timeout) := by
  obtain ⟨hturned, hfirst⟩ := turnedAway_call kind source hnew hhandle hclosed hover
  have hrun : ∀ more, (s.run (.call c id kind source timeout :: more)).TurnedAway c := hturned.run
  refine ⟨hfirst, fun more b hb => ?_, fun more t ht heq => ?_, fun more x hx => ?_,
    fun more => (hrun more).told⟩
  · rcases (hrun more).step_eq hb with hsame | ⟨caller, -, hsame⟩ <;> rw [hsame]
    exact put_host ..
  · obtain ⟨r, hr⟩ := List.getElem?_of_mem ht
    obtain ⟨caller, hcaller, hrequest, -⟩ := (ledger_run hledger _).fits_of_ticket hr
    obtain ⟨caller', hcaller', -, hstanding⟩ := hrun more
    obtain rfl : caller = caller' := Option.some.inj (hcaller.symm.trans (heq ▸ hcaller'))
    rcases hstanding with hstanding | hstanding <;> simp [hstanding, Standing.request?] at hrequest
  · obtain ⟨caller, hcaller, -, hstanding⟩ := hrun more
    rw [answer?, hcaller, Option.bind_some] at hx
    rcases hstanding with hstanding | hstanding <;> rw [hstanding] at hx
    · cases hx
    · exact (Option.some.inj hx).symm

/-- Nobody is told what a worker says to requests behind the order to stop. -/
theorem ne_closedBefore_of_answer {s : World} (hledger : s.Ledger) {c : Nat} {x : Result}
    (hx : s.answer? c = some x) : x ≠ Host.closedBefore := by
  obtain ⟨caller, hcaller, hx⟩ := Option.bind_eq_some_iff.mp hx
  have hfits := hledger.fits c caller hcaller
  cases hstanding : caller.standing with
  | starting | submitting | raised | waiting => simp [hstanding, Standing.answer?] at hx
  | dismissed y =>
      rw [hstanding] at hfits hx
      obtain rfl := Option.some.inj hx
      exact hfits
  | served r y =>
      rw [hstanding] at hfits hx
      obtain rfl := Option.some.inj hx
      exact (hledger.genuine r y (Host.result?_eq_some_iff.mpr hfits)).ne_closedBefore
  | gone r y =>
      rw [hstanding] at hfits hx
      obtain rfl := Option.some.inj hx
      rcases hfits with ⟨-, rfl⟩ | ⟨-, rfl⟩ | ⟨-, flag, -, rfl⟩ <;>
        exact Result.expired_ne_closedBefore

/-! ### What is promised of every run -/

/-- A run is **orderly** if nothing is lost in it, whenever its handles are closed. -/
structure Orderly (e : Circumstances) (acts : List Act) : Prop where
  /-- Before the action that ends an interpreter, no request of its handle is left. -/
  disposed : ∀ a w r t, (w, Call.deinit) ∈ ((opening e).run (acts ++ [a])).host.trace →
    ((opening e).run acts).tickets[r]? = some t →
      ((opening e).run acts).host.workerOf? t.handle = some w → Disposed e acts r t
  /-- What a worker has to say to requests behind the order to stop is never said. -/
  unsaid : ∀ r, ((opening e).run acts).host.result? r ≠ some Host.closedBefore
  untold : ∀ c, ((opening e).run acts).answer? c ≠ some Host.closedBefore
  /-- A call on a closed handle is turned away, if it has time. -/
  turnedAway : ∀ c id handle kind source timeout, ((opening e).run acts).callers c = none →
    ((opening e).run acts).host.handles[id]? = some handle → handle.state.isClosed = true →
      (Host.patience handle timeout).any (·.isOver) = false →
        ClosedTo ((opening e).run acts) c (.call c id kind source timeout)
  /-- If it has no time, it is answered at once like any other. -/
  expired : ∀ c id handle kind source timeout, ((opening e).run acts).callers c = none →
    ((opening e).run acts).host.handles[id]? = some handle → handle.state.isClosed = true →
      (Host.patience handle timeout).any (·.isOver) = true →
        AtOnce ((opening e).run acts) c (.call c id kind source timeout) (.expired false)
  /-- The account of a handle that runs. -/
  account : ∀ id w st, ((opening e).run acts).host.status? id = some st → st.state = .running w →
    ((opening e).run acts).accepted id = ((opening e).run acts).resolved id +
      ((opening e).run acts).skipped id + st.busy.toNat + st.queued
  /-- When the workers have come to rest, no request is left, and the interpreters of the closed
  handles are ended. -/
  done : (∀ w, ((opening e).run acts).host.work? w = none) → ((opening e).run acts).Ungated →
    (∀ r t, ((opening e).run acts).tickets[r]? = some t → Disposed e acts r t) ∧
      ∀ id w, ((opening e).run acts).host.workerOf? id = some w →
        ((opening e).run acts).host.isClosed id = true →
          (w, Call.deinit) ∈ ((opening e).run acts).host.trace

/-- **Nothing is lost when a handle is closed.** -/
theorem orderly_run (e : Circumstances) (acts : List Act) : Orderly e acts := by
  have hledger := ledger_run (ledger_opening e) acts
  have hended := ended_run (ended_opening e) acts
  have hkept := hledger.kept
  refine ⟨fun a w r t hdeinit ht hw => ?_, fun r hr => ?_, fun c hc => ?_,
    fun c id handle kind source timeout hnew hhandle hclosed hover => ?_,
    fun c id handle kind source timeout hnew hhandle _ hover => ?_,
    fun id w st hstatus hstate => accepted_eq hkept hstatus hstate, fun hquiet hungated => ?_⟩
  · rw [run_append] at hdeinit
    obtain ⟨p, hp, hsettled⟩ := settled_of_deinit hkept hended hdeinit ht hw
    exact disposed_of_settled e ht hp hsettled
  · exact (hledger.genuine r _ hr).ne_closedBefore rfl
  · exact ne_closedBefore_of_answer hledger hc rfl
  · exact closedTo_call hledger kind source hnew hhandle hclosed hover
  · exact atOnce_of_expired hkept kind source hnew hhandle hover
  · obtain ⟨hsettled, hdeinit⟩ := done_of_quiet hkept hended hquiet hungated
    refine ⟨fun r t ht => ?_, hdeinit⟩
    obtain ⟨p, hp, hsettled⟩ := hsettled r t ht
    exact disposed_of_settled e ht hp hsettled

/-- A handle is closed while the first of three requests is evaluated and the second has been withdrawn:
the third is evaluated before the interpreter is ended, and a call that comes later is turned away. -/
theorem orderly_run_of_three :
    let e : Circumstances := { behaviour :=
      { programs := [("a", [{ value := .nil .usual }]), ("b", [{ raised := some "broken" }])] } }
    let acts : List Act := [.create {} .given, .start 0, .call 0 0 .execute "b" none, .advance 0,
      .call 1 0 .execute "a" none, .advance 1, .call 2 0 .parse "a" none, .advance 2, .work 0, .work 0,
      .giveUp 1 .blocked, .close 0, .call 3 0 .execute "a" none, .advance 3, .work 0, .work 0, .work 0,
      .work 0, .work 0, .work 0, .receive 0, .receive 2]
    ([0, 1, 2, 3].map fun c => (((opening e).run acts).answer? c).map (·.status)) =
        [some .error, some .cancelled, some .success, some .error] ∧
      (0, Call.deinit) ∈ ((opening e).run (acts ++ [.work 0])).host.trace ∧
      ((opening e).run acts).tickets = [⟨0, 0⟩, ⟨1, 0⟩, ⟨2, 0⟩] ∧
      ((opening e).run acts).host.workerOf? 0 = some 0 ∧
      ∀ r t, ((opening e).run acts).tickets[r]? = some t → t.handle = 0 → Disposed e acts r t := by
  intro e acts
  have hdeinit : (0, Call.deinit) ∈ ((opening e).run (acts ++ [.work 0])).host.trace := by
    decide +kernel
  have hw : ((opening e).run acts).host.workerOf? 0 = some 0 := by decide +kernel
  refine ⟨by decide +kernel, hdeinit, by decide +kernel, hw, fun r t ht hhandle => ?_⟩
  refine (orderly_run e acts).disposed (.work 0) 0 r t hdeinit ht ?_
  rw [hhandle]
  exact hw

/-- A call on a closed handle that has no time is **not** told that the handle is closed. -/
theorem not_closedAnswer_without_time :
    let s := (opening {}).run [.create {} .given, .start 0, .close 0]
    s.host.isClosed 0 = true ∧ s.callers 0 = none ∧
      (s.run [.call 0 0 .execute "1" (some (.whole 0)), .advance 0]).answer? 0 =
        some (.expired false) ∧ Result.expired false ≠ Host.closedAnswer := by
  intro s
  have hkept : s.Kept := kept_run (kept_opening {}) _
  have hclosed : s.host.isClosed 0 = true := by decide +kernel
  have hnew : s.callers 0 = none := rfl
  obtain ⟨handle, hhandle, -⟩ := Host.isClosed_eq_true_iff.mp hclosed
  have hover : (Host.patience handle (some (.whole 0))).any (·.isOver) = true := rfl
  have hatOnce := atOnce_of_expired hkept .execute "1" hnew hhandle hover
  exact ⟨hclosed, hnew, hatOnce.answer [.advance 0], fun heq => nomatch congrArg Result.status heq⟩

end World

end JanetEmbedding
