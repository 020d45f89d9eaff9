import JanetEmbedding.Proofs.Answers
import JanetEmbedding.Proofs.Duplicates
import JanetEmbedding.Proofs.Output

/-!
# A host at a terminal

A process sits at a terminal and has duplicates of the descriptors that refer to it. This module gives
the invariant of its host: whatever the workers do, what reaches the terminal is what is written through
the duplicates, and what a request comes to is what a program of its own source comes to. Nothing that
an evaluation writes gets there, neither while it is waited for nor when it has been left to itself.

## Conventions

* What has been **shown** at the terminal is a ghost: it is recorded beside the host, and the invariant
  says that the files have just that.
* A call with a time limit is given up when the host has settled, the gates have opened that open in time,
  and the request has no result. Without a time limit it is never given up: its caller waits then.

## Main definitions

* `Host.Reaches`: requests that come from where they stand in one host to where they stand in another.
* `Host.Yields`: what the evaluation of a source comes to.
* `Host.Attended`: the invariant.
* `Config.Patient`: a time limit that one can wait for.
* `Host.Replies`: what the caller of a request is told.
* `Host.Delayed`: why a request has no result although the host has settled.

## Main results

* `Host.Attended.does`, `Host.Attended.settle`: the workers keep the invariant.
* `Host.Attended.awaitResult`: so does waiting while gates open, by induction on the gates.
* `Host.Attended.write`: what is written through a duplicate is shown.
* `Host.Attended.delayed`: if nobody else waits, a request is settled or delayed where a host has settled.
* `Host.Attended.call_cases`, `Host.Attended.call`: a call is one more request, and its caller is told what
  comes of it, or waits.
-/

namespace JanetEmbedding

open Interpreter (Behaviour Call Program)

/-! ### Where requests come -/

/-- A request **reaches** where it stands later. Nobody takes back that its caller has left. -/
structure Request.Reaches (q q' : Request) : Prop where
  kind : q'.kind = q.kind
  source : q'.source = q.source
  abandoned : q.abandoned = true → q'.abandoned = true
  progress : q.progress.Leads q'.progress

theorem Request.Reaches.refl (q : Request) : q.Reaches q := ⟨rfl, rfl, id, .refl _⟩

theorem Request.Reaches.trans {q q' q'' : Request} (h : q.Reaches q') (h' : q'.Reaches q'') :
    q.Reaches q'' :=
  ⟨h'.kind.trans h.kind, h'.source.trans h.source, h'.abandoned ∘ h.abandoned,
    h.progress.trans h'.progress⟩

/-- A caller that leaves changes nothing that is settled. -/
theorem Request.reaches_giveUp (q : Request) : q.Reaches q.giveUp.2 := by
  obtain ⟨kind, source, progress, abandoned⟩ := q
  cases progress with
  | queued => exact ⟨rfl, rfl, id, trivial⟩
  | running => exact ⟨rfl, rfl, fun _ => rfl, .inl rfl⟩
  | withdrawn | finished => exact .refl _

namespace Host

/-- Every request of a host **reaches** where it stands in another, where there may be more. -/
def Reaches (h h' : Host) : Prop :=
  ∀ (r : Nat) (q : Request), h.requests[r]? = some q → ∃ q', h'.requests[r]? = some q' ∧ q.Reaches q'

namespace Reaches

variable {h h' h'' : Host} {r : Nat} {x : Result}

theorem of_eq (hsame : h'.requests = h.requests) : h.Reaches h' :=
  fun _ q hq => ⟨q, hsame ▸ hq, .refl q⟩

theorem trans (hfirst : h.Reaches h') (hnext : h'.Reaches h'') : h.Reaches h'' := by
  intro r q hq
  obtain ⟨q', hq', hreaches⟩ := hfirst r q hq
  obtain ⟨q'', hq'', hreaches'⟩ := hnext r q' hq'
  exact ⟨q'', hq'', hreaches.trans hreaches'⟩

/-- Changing one request. -/
theorem of_modify {f : Request → Request} (hrequests : h'.requests = h.requests.modify r f)
    (hf : ∀ q, h.requests[r]? = some q → q.Reaches (f q)) : h.Reaches h' := by
  intro v q hq
  by_cases hv : v = r
  · subst hv
    exact ⟨f q, by simp [hrequests, hq], hf q hq⟩
  · exact ⟨q, by rw [hrequests, List.getElem?_modify_ne _ _ (Ne.symm hv), hq], .refl q⟩

/-- A request that comes leaves the others where they stand. -/
theorem accept (h : Host) (w : Nat) (kind : RequestKind) (source : Text) :
    h.Reaches (h.accept w kind source) :=
  fun _ q hq => ⟨q, getElem?_concat_eq_some_iff.mpr (.inl hq), .refl q⟩

theorem giveUp (h : Host) (r : Nat) : h.Reaches (h.giveUp r).2 := by
  cases hq : h.requests[r]? with
  | none => exact .of_eq (by simp [Host.giveUp, hq])
  | some q =>
      rw [giveUp_eq hq]
      refine of_modify (f := fun _ => q.giveUp.2) rfl fun q' hq' => ?_
      obtain rfl := Option.some.inj (hq.symm.trans hq')
      exact q.reaches_giveUp

theorem result? (hreaches : h.Reaches h') (hx : h.result? r = some x) : h'.result? r = some x := by
  obtain ⟨q, hq, hprogress⟩ := Option.map_eq_some_iff.mp (result?_eq_some_iff.mp hx)
  obtain ⟨q', hq', hleads⟩ := hreaches r q hq
  have hfinished : q'.progress = .finished x := by simpa [hprogress, Progress.Leads] using hleads.progress
  exact result?_eq_some_iff.mpr (by simp [progress?, hq', hfinished])

theorem withdrawn (hreaches : h.Reaches h') (hr : h.progress? r = some .withdrawn) :
    h'.progress? r = some .withdrawn := by
  obtain ⟨q, hq, hprogress⟩ := Option.map_eq_some_iff.mp hr
  obtain ⟨q', hq', hleads⟩ := hreaches r q hq
  have hwithdrawn : q'.progress = .withdrawn := by simpa [hprogress, Progress.Leads] using hleads.progress
  simp [progress?, hq', hwithdrawn]

/-- What the callers ask for, if there are no more of them. -/
theorem asked_eq (hreaches : h.Reaches h') (hlength : h'.requests.length = h.requests.length) :
    h'.requests.map (fun q => (q.kind, q.source)) = h.requests.map fun q => (q.kind, q.source) := by
  refine List.ext_getElem? fun r => ?_
  rw [List.getElem?_map, List.getElem?_map]
  cases hq : h.requests[r]? with
  | none =>
      have hle := List.getElem?_eq_none_iff.mp hq
      rw [List.getElem?_eq_none (hlength ▸ hle)]
  | some q =>
      obtain ⟨q', hq', hsame⟩ := hreaches r q hq
      simp [hq', hsame.kind, hsame.source]

end Reaches

variable {h h' : Host} {w r : Nat} {worker : Worker} {owners : List Nat}

/-- What a worker changes of the requests: one of them at most, and not whether its caller has left. -/
theorem Does.abandoned_eq (hdoes : Does h w worker h') (hkept : Kept owners h)
    (hworker : h.workers[w]? = some worker) {q q' : Request} (hq : h.requests[r]? = some q)
    (hq' : h'.requests[r]? = some q') : q'.abandoned = q.abandoned := by
  have hmodify : ∀ {v : Nat} {f : Request → Request}, h'.requests = h.requests.modify v f →
      (∀ q, (f q).abandoned = q.abandoned) → q'.abandoned = q.abandoned := by
    intro v f hrequests hf
    rw [hrequests, List.getElem?_modify, hq] at hq'
    split at hq'
    · obtain rfl := Option.some.inj hq'
      exact hf q
    · obtain rfl := Option.some.inj hq'
      rfl
  have hsame : h'.requests = h.requests → q'.abandoned = q.abandoned := by
    intro hrequests
    rw [hrequests, hq] at hq'
    rw [Option.some.inj hq']
  cases hdoes with
  | leave log hphase hqueue =>
      obtain ⟨id, hid⟩ := hkept.exists_workerOf? hworker (by rw [hphase]; rfl)
      have hrequests := congrArg Host.requests (hkept.failPending_eq_self hid hworker hqueue)
      exact hsame hrequests
  | pass | evaluate => exact hsame rfl
  | pickUp | refuse | finish => exact hmodify rfl fun _ => rfl

/-- Workers let requests reach where they come. -/
theorem Does.reaches (hdoes : Does h w worker h') (hkept : Kept owners h)
    (hworker : h.workers[w]? = some worker) : h.Reaches h' := by
  intro r q hq
  obtain ⟨q', hq', hkind, hsource, hgoes⟩ := hdoes.goes hkept hworker r q hq
  exact ⟨q', hq', hkind, hsource, (hdoes.abandoned_eq hkept hworker hq hq').trans, hgoes.leads⟩

/-- Workers withdraw no request. -/
theorem Does.withdrawn (hdoes : Does h w worker h') (hkept : Kept owners h)
    (hworker : h.workers[w]? = some worker) (hr : h'.progress? r = some .withdrawn) :
    h.progress? r = some .withdrawn := by
  obtain ⟨q', hq', -⟩ := Option.map_eq_some_iff.mp hr
  have hlt : r < h.requests.length := hdoes.length_requests ▸ (List.getElem?_eq_some_iff.mp hq').1
  obtain ⟨p, hp⟩ := exists_progress hlt
  obtain ⟨p', hp', hgoes⟩ := (hdoes.goes hkept hworker).progress hp
  obtain rfl := Option.some.inj (hp'.symm.trans hr)
  cases hgoes
  exact hp

/-! ### What evaluations come to -/

end Host

/-- The evaluation of a text **may run** a program. -/
def Interpreter.Behaviour.MayRun (b : Behaviour) (source : Text) (p : Program) : Prop :=
  ∃ (s : String) (n : Nat), source.encodable = .ok s ∧ p = b.program s n

/-- The source that is evaluated is the one that is asked for. -/
theorem Interpreter.Call.encodable_of_encoded {source : Text} {path : Option Text} {s : String}
    {path' : Option String} (h : Call.encoded source path = .ok (s, path')) :
    source.encodable = .ok s := by
  unfold Call.encoded at h
  cases hpath : (path.filter (!·.isEmpty)).mapM Text.encodable with
  | error f => simp [hpath, bind, Except.bind] at h
  | ok p =>
      cases hsource : source.encodable with
      | error f => simp [hpath, hsource, bind, Except.bind] at h
      | ok t =>
          simp only [hpath, hsource, bind, Except.bind, pure, Except.pure, Except.ok.injEq,
            Prod.mk.injEq] at h
          rw [h.1]

/-- A configuration with which one **can wait**: its time limit, if there is one, is a number of seconds that is
not over, and not too many. -/
structure Config.Patient (c : Config) : Prop where
  isOver : c.timeout.any (·.isOver) = false
  able : c.timeout.bind Seconds.delayFault? = none
  number : c.timeout ≠ some (.real .nan)

/-- A process that has written to a descriptor. -/
def Stdio.writing (s : Stdio) (fd : Nat) (bytes : List UInt8) : Stdio :=
  { s with descriptors := s.descriptors.write fd bytes }

namespace Host

variable {h h' : Host} {w r : Nat} {worker : Worker} {owners : List Nat} {b : Behaviour}
  {usable : Channel → Bool}

/-- What the evaluation of a source **yields**: what one of its programs comes to, with the output of
that program, or why it was not evaluated. -/
def Yields (b : Behaviour) (usable : Channel → Bool) (kind : RequestKind) (source : Text)
    (x : Result) : Prop :=
  ∃ programs, (∀ p ∈ programs, b.MayRun source p) ∧ World.Outcome usable kind programs x

/-- Requests are evaluated **faithfully**: by programs of their own sources, to what these yield. -/
structure Faithful (b : Behaviour) (usable : Channel → Bool) (h : Host) : Prop where
  behaviour : h.behaviour = b
  evaluating : ∀ w r session p, h.phase? w = some (.evaluating r session p) →
    ∃ q : Request, h.requests[r]? = some q ∧ b.MayRun q.source p
  finished : ∀ (r : Nat) (q : Request) (x : Result), h.requests[r]? = some q →
    q.progress = .finished x → Yields b usable q.kind q.source x

namespace Faithful

/-- Nothing changes if no evaluation begins and none ends. -/
theorem idle (hfaithful : h.Faithful b usable) (hbehaviour : h'.behaviour = h.behaviour)
    (hphases : ∀ v, h'.phase? v = h.phase? v ∨ ∃ p, h'.phase? v = some p ∧ p.request? = none)
    (hreaches : h.Reaches h') (hfinished : ∀ r x, h'.result? r = some x → h.result? r = some x) :
    h'.Faithful b usable := by
  refine ⟨hbehaviour.trans hfaithful.behaviour, fun w r session p hp => ?_, fun r q' x hq' hx => ?_⟩
  · rcases hphases w with hsame | ⟨q, hq, hidle⟩
    · obtain ⟨q, hq, hmay⟩ := hfaithful.evaluating w r session p (hsame.symm.trans hp)
      obtain ⟨q', hq', hsame⟩ := hreaches r q hq
      exact ⟨q', hq', hsame.source ▸ hmay⟩
    · obtain rfl := Option.some.inj (hq.symm.trans hp)
      cases hidle
  · have hbefore := hfinished r x (by simp [Host.result?, hq', hx, Progress.result?])
    obtain ⟨q, hq, hprogress⟩ := Option.map_eq_some_iff.mp (result?_eq_some_iff.mp hbefore)
    obtain ⟨q'', hq'', hsame⟩ := hreaches r q hq
    obtain rfl := Option.some.inj (hq'.symm.trans hq'')
    rw [hsame.kind, hsame.source]
    exact hfaithful.finished r q x hq hprogress

/-- A worker finishes a request faithfully. -/
theorem yields {s₀ : Stdio} {files : Channel → File} {numbers : Nat → Channel → Nat} {q : Request}
    {x : Result} (hfaithful : h.Faithful b usable) (hkept : Kept owners h)
    (hplumbed : h.Plumbed s₀ files numbers) (husable : ∀ c, s₀.usable c = usable c)
    (hworker : h.workers[w]? = some worker) (hq : h.requests[r]? = some q)
    (hfinishes : Finishes h worker r x) : Yields b usable q.kind q.source x := by
  cases hfinishes with
  | failed hx hkind => exact ⟨[], by simp, hx ▸ .unevaluated hkind⟩
  | @evaluated session p request captured stdio hevaluating hrequest hfinish hx =>
      have hphase : h.phase? w = some (.evaluating r session p) := by
        simp [phase?, hworker, hevaluating]
      have hholder : h.holder = some w := by
        rw [hkept.holder_eq_some_iff hworker, hevaluating]
        rfl
      obtain ⟨q', hq', hmay⟩ := hfaithful.evaluating w r session p hphase
      obtain rfl := Option.some.inj (hq.symm.trans hq')
      obtain rfl := Option.some.inj (hq.symm.trans hrequest)
      obtain ⟨-, -, -, hcaptured⟩ := hplumbed.finish hphase hholder hfinish
      rw [funext husable] at hcaptured
      exact ⟨[p], by simpa using hmay, hx ▸ hcaptured ▸ .evaluated p⟩

/-- **The steps of a worker are faithful.** -/
theorem does {s₀ : Stdio} {files : Channel → File} {numbers : Nat → Channel → Nat}
    (hfaithful : h.Faithful b usable) (hkept : Kept owners h) (hplumbed : h.Plumbed s₀ files numbers)
    (husable : ∀ c, s₀.usable c = usable c) (hworker : h.workers[w]? = some worker)
    (hdoes : Does h w worker h') : h'.Faithful b usable := by
  have hreaches := hdoes.reaches hkept hworker
  have hothers : ∀ v, v ≠ w → h'.phase? v = h.phase? v := by
    obtain ⟨f, hworkers⟩ := hdoes.workers_eq
    exact fun v hne => phase?_modify_of_ne hne hworkers
  have hbehaviour : h'.behaviour = h.behaviour := by cases hdoes <;> rfl
  refine ⟨hbehaviour.trans hfaithful.behaviour, fun v r session p hp => ?_, fun r q' x hq' hx => ?_⟩
  · have hold : h.phase? v = some (.evaluating r session p) →
        ∃ q, h'.requests[r]? = some q ∧ b.MayRun q.source p := by
      intro hbefore
      obtain ⟨q, hq, hmay⟩ := hfaithful.evaluating v r session p hbefore
      obtain ⟨q', hq', hsame⟩ := hreaches r q hq
      exact ⟨q', hq', hsame.source ▸ hmay⟩
    by_cases hv : v = w
    · subst hv
      cases hdoes with
      | leave | refuse | finish | pickUp => simp [phase?, hworker] at hp
      | pass log hphase => simp [phase?, hworker, hphase] at hp
      | @evaluate r' pipes refusal request session' stdio source path p' hphase hrequest hholder
            hredirect hencoded hprogram =>
          simp only [phase?, List.getElem?_modify_eq, hworker] at hp
          obtain ⟨rfl, rfl, rfl⟩ := hp
          refine ⟨request, hrequest, source, h.calls.countP (Call.evaluates source),
            Call.encodable_of_encoded hencoded, ?_⟩
          rw [← hfaithful.behaviour]
          exact hprogram
    · exact hold ((hothers v hv).symm.trans hp)
  · have hlt : r < h.requests.length := hdoes.length_requests ▸ (List.getElem?_eq_some_iff.mp hq').1
    obtain ⟨q, hq⟩ : ∃ q, h.requests[r]? = some q := ⟨_, List.getElem?_eq_getElem hlt⟩
    obtain ⟨q'', hq'', hsame⟩ := hreaches r q hq
    obtain rfl := Option.some.inj (hq'.symm.trans hq'')
    rw [hsame.kind, hsame.source]
    rcases hdoes.finishes hkept hworker (r := r) (x := x)
        (by simp [Host.result?, hq', hx, Progress.result?]) with hbefore | hfinishes
    · obtain ⟨q₀, hq₀, hprogress⟩ := Option.map_eq_some_iff.mp (result?_eq_some_iff.mp hbefore)
      obtain rfl := Option.some.inj (hq.symm.trans hq₀)
      exact hfaithful.finished r q x hq hprogress
    · exact hfaithful.yields hkept hplumbed husable hworker hq hfinishes

end Faithful

/-! ### The invariant -/

/-- A process **attended** at a terminal: what has been shown there is what its files have, and its
duplicates refer to it. -/
structure Attended (e : Circumstances) (duplicates : Channel → Nat) (shown : Channel → List UInt8)
    (h : Host) : Prop where
  kept : ∃ owners, Kept owners h
  plumbed : ∃ s₀ numbers, (∀ c, s₀.held c = []) ∧ (∀ c, s₀.usable c = e.stdio.usable c) ∧
    (∀ c, s₀.shown c = shown c) ∧ h.Plumbed s₀ .terminal numbers
  apart : ∀ c, h.Apart (duplicates c) (.terminal c)
  faithful : h.Faithful e.behaviour e.stdio.usable
  gates : ∀ gate ∈ e.gates, gate ∈ h.gates

namespace Attended

variable {e : Circumstances} {duplicates : Channel → Nat} {shown : Channel → List UInt8}

/-- What has been shown is at the terminal. -/
theorem shown_eq (hattended : h.Attended e duplicates shown) (c : Channel) :
    h.stdio.shown c = shown c := by
  obtain ⟨s₀, numbers, hheld, -, hshown, hplumbed⟩ := hattended.plumbed
  have hnone : ∀ c, s₀.usable c = true → s₀.held c = [] := fun c _ => hheld c
  have holder : File.Older (.terminal c) s₀.descriptors.pipes := fun n hn => nomatch hn
  rw [← hshown]
  rcases hplumbed.shown with ⟨-, -, hcontent⟩ | ⟨-, hcontent⟩
  · exact hcontent _ holder
  · exact (hcontent _ holder).trans (Stdio.content_flushAll_of_empty hnone _)

/-- Nothing more would come out if the streams were flushed. -/
theorem shown_flushAll (hattended : h.Attended e duplicates shown) (c : Channel) :
    h.stdio.flushAll.shown c = shown c := by
  obtain ⟨s₀, numbers, hheld, -, hshown, hplumbed⟩ := hattended.plumbed
  cases hholder : h.holder with
  | none =>
      have hnone : ∀ c, s₀.usable c = true → s₀.held c = [] := fun c _ => hheld c
      have hflush := hplumbed.content_flushAll_older (f := .terminal c) hholder fun n hn => nomatch hn
      exact hflush.trans ((Stdio.content_flushAll_of_empty hnone _).trans (hshown c))
  | some w =>
      obtain ⟨owners, hkept⟩ := hattended.kept
      obtain ⟨worker, hworker, hevaluating⟩ := (hkept.holder w).mp hholder
      cases hphase : worker.phase with
      | evaluating r session p =>
          have hequipped := hplumbed.equipped w (.evaluating r session p)
            (by simp [phase?, hworker, hphase])
          exact (Stdio.content_flushAll_of_ne hequipped.1.refer (by simp)).trans (hattended.shown_eq c)
      | created | serving | waiting | stopped | failed => simp [hphase, Phase.isEvaluating] at hevaluating

/-- Nothing changes for the process if nobody begins to handle a request. -/
theorem idle (hattended : h.Attended e duplicates shown) (hkept : Kept owners h')
    (hstdio : h'.stdio = h.stdio) (hholder : h'.holder = h.holder)
    (hbehaviour : h'.behaviour = h.behaviour) (hgates : ∀ gate ∈ h.gates, gate ∈ h'.gates)
    (hphases : ∀ v, h'.phase? v = h.phase? v ∨ ∃ p, h'.phase? v = some p ∧ p.request? = none)
    (hreaches : h.Reaches h') (hfinished : ∀ r x, h'.result? r = some x → h.result? r = some x) :
    h'.Attended e duplicates shown := by
  obtain ⟨s₀, numbers, hheld, husable, hshown, hplumbed⟩ := hattended.plumbed
  refine ⟨⟨owners, hkept⟩, ⟨s₀, numbers, hheld, husable, hshown, ?_⟩, fun c => ?_, ?_, fun g hg => ?_⟩
  · exact hplumbed.idle (.of_eq hstdio) hholder hphases
  · exact (hattended.apart c).idle (by rw [hstdio]) hphases
  · exact hattended.faithful.idle hbehaviour hphases hreaches hfinished
  · exact hgates g (hattended.gates g hg)

/-- **The steps of a worker** show nothing at the terminal. -/
theorem does (hattended : h.Attended e duplicates shown) (hworker : h.workers[w]? = some worker)
    (hdoes : Does h w worker h') : h'.Attended e duplicates shown := by
  obtain ⟨owners, hkept⟩ := hattended.kept
  obtain ⟨s₀, numbers, hheld, husable, hshown, hplumbed⟩ := hattended.plumbed
  obtain ⟨numbers', hplumbed'⟩ := hplumbed.does hkept hworker hdoes
  have hgates : h'.gates = h.gates := by cases hdoes <;> rfl
  refine ⟨⟨owners, hkept.work hworker hdoes⟩, ⟨s₀, numbers', hheld, husable, hshown, hplumbed'⟩,
    fun c => hdoes.apart hworker (hattended.apart c) rfl, ?_, hgates ▸ hattended.gates⟩
  exact hattended.faithful.does hkept hplumbed husable hworker hdoes

end Attended

/-! ### Writing to the terminal -/

/-- What a worker has is not changed by what is written to the terminal. -/
theorem equipped_writing {s : Stdio} {files : Channel → File} {numbers : Channel → Nat} {p : Phase}
    {fd : Nat} {c : Channel} (h : p.Equipped s files numbers)
    (hfd : s.descriptors.file? fd = some (.terminal c)) (bytes : List UInt8) :
    p.Equipped (s.writing fd bytes) files numbers := by
  have hcontent : ∀ n, (s.writing fd bytes).descriptors.content (.writeEnd n) =
      s.descriptors.content (.writeEnd n) := fun n => by
    simp [Stdio.writing, Descriptors.content_write, hfd]
  have hfile : ∀ x, (s.writing fd bytes).descriptors.file? x = s.descriptors.file? x := fun x =>
    Descriptors.file?_write ..
  cases p with
  | created | serving | stopped | failed => trivial
  | waiting =>
      obtain ⟨hlaid, hempty⟩ := h
      exact ⟨hlaid.spared fun _ => .of_eq hfile, fun c => (hcontent _).trans (hempty c)⟩
  | evaluating =>
      obtain ⟨hholds, hwritten, hback⟩ := h
      exact ⟨hholds.mono fun x f hx => (hfile x).trans hx, fun c => (hcontent _).trans (hwritten c), hback⟩

/-- What is written to the terminal is as if it had been there when the run began. -/
theorem Plumbed.writing {s₀ : Stdio} {numbers : Nat → Channel → Nat} {fd : Nat} {c : Channel}
    (hplumbed : h.Plumbed s₀ .terminal numbers) (hheld : ∀ c, s₀.held c = [])
    (hfd : h.stdio.descriptors.file? fd = some (.terminal c)) (bytes : List UInt8) :
    ({ h with stdio := h.stdio.writing fd bytes } : Host).Plumbed
      (s₀.writing c.descriptor bytes) .terminal numbers := by
  have horigin := hplumbed.origin c
  have hsame : ∀ f, (h.stdio.writing fd bytes).descriptors.content f =
      h.stdio.descriptors.content f ++ if File.terminal c = f then bytes else [] := fun f => by
    simp [Stdio.writing, Descriptors.content_write, hfd]
  have hsame₀ : ∀ f, (s₀.writing c.descriptor bytes).descriptors.content f =
      s₀.descriptors.content f ++ if File.terminal c = f then bytes else [] := fun f => by
    simp [Stdio.writing, Descriptors.content_write, horigin]
  have hpipes : (h.stdio.writing fd bytes).descriptors.pipes = h.stdio.descriptors.pipes :=
    Descriptors.pipes_write ..
  have hpipes₀ : (s₀.writing c.descriptor bytes).descriptors.pipes = s₀.descriptors.pipes :=
    Descriptors.pipes_write ..
  refine ⟨fun c => (Descriptors.file?_write ..).trans (hplumbed.origin c), fun c n hn => (nomatch hn),
    hplumbed.usable, ?_, fun n hn => ?_, fun w p hp => equipped_writing (hplumbed.equipped w p hp) hfd bytes,
    fun w hw c => ?_, hplumbed.inj, fun hnone c => (Descriptors.file?_write ..).trans (hplumbed.refer hnone c),
    ?_⟩
  · rw [hpipes, hpipes₀]
    exact hplumbed.pipes
  · rw [hpipes] at hn
    rw [hsame, if_neg (by simp), List.append_nil]
    exact hplumbed.unwritten n hn
  · rw [hpipes, hpipes₀]
    exact hplumbed.numbered w hw c
  · have hnone : ∀ s : Stdio, (∀ c, s.held c = []) → ∀ f, s.flushAll.descriptors.content f =
        s.descriptors.content f := fun s hs => Stdio.content_flushAll_of_empty fun c _ => hs c
    rcases hplumbed.shown with ⟨hholder, hstreams, hcontent⟩ | ⟨hstreams, hcontent⟩
    · refine .before hholder hstreams fun f hf => ?_
      rw [hpipes₀] at hf
      rw [hsame, hsame₀, hcontent f hf]
    · refine .after hstreams fun f hf => ?_
      rw [hpipes₀] at hf
      rw [hnone (s₀.writing c.descriptor bytes) hheld, hsame₀, ← hnone s₀ hheld, ← hcontent f hf]
      exact hsame f

/-- **Writing through a duplicate** shows something at the terminal. -/
theorem Attended.write {e : Circumstances} {duplicates : Channel → Nat} {shown : Channel → List UInt8}
    (hattended : h.Attended e duplicates shown) (c : Channel) (bytes : List UInt8) :
    ({ h with stdio := h.stdio.writing (duplicates c) bytes } : Host).Attended e duplicates fun c' =>
      shown c' ++ if c' = c then bytes else [] := by
  obtain ⟨owners, hkept⟩ := hattended.kept
  obtain ⟨s₀, numbers, hheld, husable, hshown, hplumbed⟩ := hattended.plumbed
  refine ⟨⟨owners, hkept.congr (fun _ => rfl) (fun _ _ _ => rfl) rfl rfl rfl⟩,
    ⟨s₀.writing c.descriptor bytes, numbers, hheld, husable, fun c' => ?_,
      hplumbed.writing hheld (hattended.apart c).file? bytes⟩,
    fun c' => (hattended.apart c').idle (Descriptors.file?_write ..) fun _ => .inl rfl, ?_,
    hattended.gates⟩
  · have horigin := hplumbed.origin c
    simp only [Stdio.shown, Stdio.writing, Descriptors.content_write, horigin, ← hshown, Option.some.injEq,
      File.terminal.injEq, eq_comm]
  · exact hattended.faithful.idle rfl (fun _ => .inl rfl) (.of_eq rfl) fun _ _ hx => hx

/-! ### What settling comes to -/

/-- What workers leave when they **go on**: they make and withdraw no request. -/
structure GoesOn (h h' : Host) : Prop where
  reaches : h.Reaches h'
  length : h'.requests.length = h.requests.length
  withdrawn : ∀ r, h'.progress? r = some .withdrawn → h.progress? r = some .withdrawn

theorem GoesOn.of_eq (hrequests : h'.requests = h.requests) : h.GoesOn h' :=
  ⟨.of_eq hrequests, congrArg List.length hrequests, fun r hr => by rwa [progress?, hrequests] at hr⟩

theorem GoesOn.trans {h'' : Host} (hfirst : h.GoesOn h') (hnext : h'.GoesOn h'') : h.GoesOn h'' :=
  ⟨hfirst.reaches.trans hnext.reaches, hnext.length.trans hfirst.length,
    fun r hr => hfirst.withdrawn r (hnext.withdrawn r hr)⟩

/-- When a host settles, its workers go on. -/
theorem goesOn_settle (hkept : Kept owners h) : Kept owners h.settle ∧ h.GoesOn h.settle := by
  refine settle_induction (P := fun h' => Kept owners h' ∧ h.GoesOn h') ?_
    ⟨hkept, .of_eq rfl, rfl, fun _ hr => hr⟩
  rintro h' h'' w worker ⟨hkept', hon⟩ hworker hdoes
  exact ⟨hkept'.work hworker hdoes, hon.reaches.trans (hdoes.reaches hkept' hworker),
    hdoes.length_requests.trans hon.length,
    fun r hr => hon.withdrawn r (hdoes.withdrawn hkept' hworker hr)⟩

theorem Attended.settle {e : Circumstances} {duplicates : Channel → Nat}
    {shown : Channel → List UInt8} (hattended : h.Attended e duplicates shown) :
    h.settle.Attended e duplicates shown :=
  settle_induction (fun hattended hworker hdoes => hattended.does hworker hdoes) hattended

theorem gates_settle (h : Host) : h.settle.gates = h.gates :=
  settle_induction (P := fun h' => h'.gates = h.gates)
    (fun hgates _ hdoes => by rw [← hgates]; cases hdoes <;> rfl) rfl

/-- A gate that is closed is one that has not been opened. -/
theorem exists_gate {gate? : Option String} (hclosed : h.isOpen gate? = false) :
    ∃ gate, gate? = some gate ∧ gate ∉ h.gates := by
  cases gate? with
  | none => cases hclosed
  | some gate => exact ⟨gate, rfl, by simpa [Host.isOpen] using hclosed⟩

/-- If there is one handle, its worker waits for nobody: it has the descriptors if anyone has. -/
theorem Kept.isEvaluating_of_holder {id : Nat} (hkept : Kept owners h)
    (honly : ∀ id w, h.workerOf? id = some w → id = 0) (hid : h.workerOf? id = some w)
    (hworker : h.workers[w]? = some worker) (hholder : h.holder ≠ none) :
    worker.phase.isEvaluating = true := by
  obtain ⟨v, hv⟩ := Option.ne_none_iff_exists'.mp hholder
  obtain ⟨worker', hworker', hevaluating⟩ := (hkept.holder v).mp hv
  have hlive : worker'.phase.hasEnded = false := by
    cases hphase : worker'.phase <;> simp [hphase, Phase.isEvaluating, Phase.hasEnded] at hevaluating ⊢
  obtain ⟨id', hid'⟩ := hkept.exists_workerOf? hworker' hlive
  obtain rfl := (honly id w hid).trans (honly id' v hid').symm
  obtain rfl := Option.some.inj (hid.symm.trans hid')
  obtain rfl := Option.some.inj (hworker.symm.trans hworker')
  exact hevaluating

/-- **Where a host has settled**, a request is settled too, or an evaluation stands at a gate: its own, or
one that it is queued behind. There is only one handle, which runs. -/
theorem Kept.cases_of_settled {p : Progress} (hkept : Kept owners h) (hquiet : ∀ w, h.work? w = none)
    (honly : ∀ id w, h.workerOf? id = some w → id = 0) (hruns : ∀ id, h.isClosed id = false)
    (hp : h.progress? r = some p) : p.isSettled = true ∨ ∃ v w session program,
      h.phase? w = some (.evaluating v session program) ∧ h.isOpen program.gate = false ∧
        (v = r ∨ h.progress? r = some .queued) := by
  obtain ⟨q, hq, -⟩ := Option.map_eq_some_iff.mp hp
  obtain ⟨id, w, worker, howner, hid, hworker, hcharged⟩ :=
    hkept.exists_charged (List.getElem?_eq_some_iff.mp hq).1
  have hlive : worker.phase.isLive = true := by
    rcases hcharged.shape with ⟨hlive, -⟩ | ⟨hclosed, -⟩
    · exact hlive
    · cases (hruns id).symm.trans hclosed
  have hrests : Rests h worker := by
    refine rests_of_work? hworker (fun v hv => ?_) (hquiet w)
    obtain ⟨q, hq, -⟩ := Option.map_eq_some_iff.mp (hcharged.held v hv)
    simp [hq]
  have hplace := hcharged.cases_of_mem (mem_placesOf.mpr howner)
  have hsettled : (∃ p', h.progress? r = some p' ∧ p'.isSettled = true) → p.isSettled = true := by
    rintro ⟨p', hp', hsettled⟩
    exact Option.some.inj (hp.symm.trans hp') ▸ hsettled
  cases hrests with
  | created hphase => simp [hphase, Phase.isLive] at hlive
  | ended hended =>
      cases hphase : worker.phase <;> simp [hphase, Phase.isLive, Phase.hasEnded] at hlive hended
  | crowded hphase hholder =>
      have hevaluating := hkept.isEvaluating_of_holder honly hid hworker hholder
      rw [hphase] at hevaluating
      cases hevaluating
  | empty hphase hqueue =>
      refine .inl (hsettled (hplace.resolve_right ?_))
      simp [hphase, Phase.request?, Worker.requests, hqueue]
  | @gated v session program hphase hgate =>
      have hstands : h.phase? w = some (.evaluating v session program) := by
        simp [phase?, hworker, hphase]
      rcases hplace with hdone | hheld | hqueued
      · exact .inl (hsettled hdone)
      · rw [hphase] at hheld
        exact .inr ⟨v, w, session, program, hstands, hgate, .inl (Option.some.inj hheld)⟩
      · rcases hcharged.queued r hqueued with hqueued | hwithdrawn
        · exact .inr ⟨v, w, session, program, hstands, hgate, .inr hqueued⟩
        · exact .inl (hsettled ⟨_, hwithdrawn, rfl⟩)

/-! ### Calls -/

/-- What the caller of a request is **told**: the result of the request, or, if there is a time limit, that
time is over. Then an evaluation stands at a gate, that of the request, which goes on without its caller, or
one that has been left before, and the request behind it is withdrawn. -/
inductive Replies (e : Circumstances) (config : Config) (h : Host) (r : Nat) (source : Text) (x : Result) :
    Prop
  | served (hresult : h.result? r = some x)
      (hyields : Yields e.behaviour e.stdio.usable .execute source x) : Replies e config h r source x
  | abandoned {q : Request} {p : Program} {gate : String} (hlimit : config.timeout ≠ none)
      (hx : x = .expired true) (hrequest : h.requests[r]? = some q) (hleft : q.abandoned = true)
      (hmay : e.behaviour.MayRun source p) (hgate : p.gate = some gate) (hclosed : gate ∉ e.gates) :
      Replies e config h r source x
  | withdrawn {v : Nat} {q : Request} (hlimit : config.timeout ≠ none) (hx : x = .expired false)
      (hprogress : h.progress? r = some .withdrawn) (hearlier : v < r)
      (hrequest : h.requests[v]? = some q) (hleft : q.abandoned = true) : Replies e config h r source x

/-- What a caller has been told holds good. -/
theorem Replies.reaches {e : Circumstances} {config : Config} {source : Text} {x : Result}
    (hreplies : h.Replies e config r source x) (hreaches : h.Reaches h') :
    h'.Replies e config r source x := by
  cases hreplies with
  | served hresult hyields => exact .served (hreaches.result? hresult) hyields
  | @abandoned q p gate hlimit hx hrequest hleft hmay hgate hclosed =>
      obtain ⟨q', hq', hsame⟩ := hreaches r q hrequest
      exact .abandoned hlimit hx hq' (hsame.abandoned hleft) hmay hgate hclosed
  | @withdrawn v q hlimit hx hprogress hearlier hrequest hleft =>
      obtain ⟨q', hq', hsame⟩ := hreaches v q hrequest
      exact .withdrawn hlimit hx (hreaches.withdrawn hprogress) hearlier hq' (hsame.abandoned hleft)

/-- **Nobody waits**: what is not settled has been left. -/
def Unawaited (h : Host) : Prop :=
  ∀ (r : Nat) (q : Request), h.requests[r]? = some q → q.progress.isSettled = true ∨ q.abandoned = true

/-- Who has been told something does not wait. -/
theorem Replies.unawaited {e : Circumstances} {config : Config} {source : Text} {x : Result} {q : Request}
    (hreplies : h.Replies e config r source x) (hq : h.requests[r]? = some q) :
    q.progress.isSettled = true ∨ q.abandoned = true := by
  have hprogress : h.progress? r = some q.progress := by simp [progress?, hq]
  cases hreplies with
  | served hresult =>
      have hfinished := Option.some.inj (hprogress.symm.trans (result?_eq_some_iff.mp hresult))
      exact .inl (by rw [hfinished]; rfl)
  | abandoned hlimit hx hrequest hleft => exact .inr (Option.some.inj (hrequest.symm.trans hq) ▸ hleft)
  | withdrawn hlimit hx hwithdrawn =>
      have hwithdrawn := Option.some.inj (hprogress.symm.trans hwithdrawn)
      exact .inl (by rw [hwithdrawn]; rfl)

/-- If nobody waited before the last request came, the others that are running have been left. -/
theorem Unawaited.abandoned (hunawaited : h.Unawaited) (hreaches : h.Reaches h')
    (hlength : h'.requests.length = h.requests.length + 1) (v : Nat) (q' : Request)
    (hq' : h'.requests[v]? = some q') (hrunning : q'.progress = .running) (hne : v ≠ h.requests.length) :
    v < h.requests.length ∧ q'.abandoned = true := by
  have hlt : v < h.requests.length := by
    have hlt := (List.getElem?_eq_some_iff.mp hq').1
    omega
  obtain ⟨q, hq⟩ : ∃ q, h.requests[v]? = some q := ⟨_, List.getElem?_eq_getElem hlt⟩
  obtain ⟨q'', hq'', hsame⟩ := hreaches v q hq
  obtain rfl := Option.some.inj (hq''.symm.trans hq')
  refine ⟨hlt, ?_⟩
  rcases hunawaited v q hq with hsettled | hleft
  · have hleads := hsame.progress
    rw [hrunning] at hleads
    cases hq : q.progress <;> simp [hq, Progress.isSettled, Progress.Leads] at hsettled hleads
  · exact hsame.abandoned hleft

/-- A request without a result is not settled, unless it is withdrawn. -/
theorem isSettled_of_result?_eq_none {q : Request} (hq : h.requests[r]? = some q)
    (hnone : h.result? r = none) (hwithdrawn : h.progress? r ≠ some .withdrawn) :
    q.progress.isSettled = false := by
  have hprogress : h.progress? r = some q.progress := by simp [progress?, hq]
  cases hq' : q.progress with
  | queued | running => rfl
  | withdrawn => exact absurd (hq' ▸ hprogress) hwithdrawn
  | finished x => cases hnone.symm.trans (result?_eq_some_iff.mpr (hq' ▸ hprogress))

/-- Why a request is **delayed**: its evaluation stands at a gate, or it is queued behind one that is running
and has been left. -/
inductive Delayed (e : Circumstances) (h : Host) (r : Nat) (source : Text) : Prop
  | gated {p : Program} {gate : String} (hrunning : h.progress? r = some .running)
      (hmay : e.behaviour.MayRun source p) (hgate : p.gate = some gate) (hclosed : gate ∉ h.gates) :
      Delayed e h r source
  | behind {v : Nat} {q : Request} (hqueued : h.progress? r = some .queued) (hearlier : v < r)
      (hrequest : h.requests[v]? = some q) (hrunning : q.progress = .running)
      (hleft : q.abandoned = true) : Delayed e h r source

/-- A request that is running goes on without its caller. -/
theorem giveUp_of_running {q : Request} (hq : h.requests[r]? = some q)
    (hrunning : h.progress? r = some .running) :
    (h.giveUp r).1 = .expired true ∧
      (h.giveUp r).2.requests[r]? = some { q with abandoned := true } := by
  have hprogress : q.progress = .running := by simpa [progress?, hq] using hrunning
  simp [giveUp_eq hq, updateRequest, hq, Request.giveUp, hprogress]

/-- The caller of a request that is delayed is told that time is over, if there is a limit. -/
theorem Delayed.replies {e : Circumstances} {config : Config} {source : Text} {q : Request}
    (hdelayed : h.Delayed e r source) (hgates : ∀ gate ∈ e.gates, gate ∈ h.gates)
    (hlimit : config.timeout ≠ none) (hq : h.requests[r]? = some q) :
    (h.giveUp r).2.Replies e config r source (h.giveUp r).1 := by
  cases hdelayed with
  | gated hrunning hmay hgate hclosed =>
      obtain ⟨htold, hafter⟩ := giveUp_of_running hq hrunning
      exact .abandoned hlimit htold hafter rfl hmay hgate fun hg => hclosed (hgates _ hg)
  | @behind v q' hqueued hearlier hrequest hrunning hleft =>
      have hqueued : q.progress = .queued := by simpa [progress?, hq] using hqueued
      have heq : q.giveUp = (.expired false, { q with progress := .withdrawn }) := by
        simp [Request.giveUp, hqueued]
      have hafter : (h.giveUp r).2.requests[r]? = some q.giveUp.2 := by
        simp [giveUp_eq hq, updateRequest, hq]
      obtain ⟨q'', hq'', hsame⟩ := Reaches.giveUp h r v q' hrequest
      rw [heq] at hafter
      exact .withdrawn hlimit (by rw [giveUp_eq hq, heq]) (by simp [progress?, hafter]) hearlier hq''
        (hsame.abandoned hleft)

/-- A host whose only handle runs. -/
def Serves (h : Host) (config : Config) : Prop :=
  ∃ w, h.handles = [⟨config, .system, .running w⟩]

theorem Serves.isClosed {config : Config} (hserves : h.Serves config) (id : Nat) :
    h.isClosed id = false := by
  obtain ⟨w, hhandles⟩ := hserves
  cases id with
  | zero => simp [Host.isClosed, hhandles, HandleState.isClosed]
  | succ id => simp [Host.isClosed, hhandles]

theorem Serves.workerOf? {config : Config} (hserves : h.Serves config) (id w : Nat)
    (hid : h.workerOf? id = some w) : id = 0 := by
  obtain ⟨v, hhandles⟩ := hserves
  cases id with
  | zero => rfl
  | succ id => simp [Host.workerOf?, hhandles] at hid

/-- A call on the handle that runs is accepted, if there is any time. -/
theorem beginCall_of_serves {config : Config} (hhandles : h.handles = [⟨config, .system, .running w⟩])
    (hpatient : config.timeout.any (·.isOver) = false) (kind : RequestKind) (source : Text) :
    h.beginCall 0 kind source none = (.accepted h.requests.length, h.accept w kind source) := by
  have hhandle : h.handles[0]? = some ⟨config, .system, .running w⟩ := by simp [hhandles]
  have htime : (patience ⟨config, .system, .running w⟩ none).any (·.isOver) = false := hpatient
  simp only [beginCall, hhandle, htime, Bool.false_eq_true, if_false, submit, Option.bind_some,
    HandleState.worker?]
  rfl

namespace Attended

variable {e : Circumstances} {duplicates : Channel → Nat} {shown : Channel → List UInt8}

/-- Accepting a request shows nothing. -/
theorem accept {kind : RequestKind} {source : Text} (hattended : h.Attended e duplicates shown)
    (hkept : Kept owners (h.accept w kind source)) :
    (h.accept w kind source).Attended e duplicates shown := by
  refine hattended.idle hkept rfl rfl rfl (fun _ hg => hg) (fun v => .inl (phase?_modify_queue rfl v))
    (.accept h w kind source) fun v x hx => ?_
  rcases result?_of_update (h.progress?_accept w kind source) hx with hbefore | ⟨-, hqueued⟩
  · exact hbefore
  · cases hqueued

/-- A caller that leaves shows nothing. -/
theorem giveUp {q : Request} (hattended : h.Attended e duplicates shown)
    (hq : h.requests[r]? = some q) : (h.giveUp r).2.Attended e duplicates shown := by
  obtain ⟨owners, hkept⟩ := hattended.kept
  have hreaches := Reaches.giveUp h r
  have hkept' := hkept.giveUp r
  rw [giveUp_eq hq] at hreaches hkept' ⊢
  refine hattended.idle hkept' rfl rfl rfl (fun _ hg => hg) (fun _ => .inl rfl) hreaches fun v x hx => ?_
  rcases result?_of_update (progress?_updateRequest hq fun _ => q.giveUp.2) hx with
    hbefore | ⟨rfl, hfinished⟩
  · exact hbefore
  · have hprogress := Request.progress_of_giveUp hfinished
    exact result?_eq_some_iff.mpr (by simp [progress?, hq, hprogress])

/-- **A request that is not settled is delayed**, where a host has settled and nobody else waits. -/
theorem delayed {config : Config} {q : Request} (hattended : h.Attended e duplicates shown)
    (hserves : h.Serves config) (hquiet : ∀ w, h.work? w = none) (hq : h.requests[r]? = some q)
    (hunsettled : q.progress.isSettled = false)
    (hothers : ∀ (v : Nat) (q' : Request), h.requests[v]? = some q' → q'.progress = .running → v ≠ r →
      v < r ∧ q'.abandoned = true) : h.Delayed e r q.source := by
  obtain ⟨owners, hkept⟩ := hattended.kept
  have hprogress : h.progress? r = some q.progress := by simp [progress?, hq]
  obtain hsettled | ⟨v, w, session, p, hphase, hgate, hplace⟩ :=
    hkept.cases_of_settled hquiet hserves.workerOf? hserves.isClosed hprogress
  · cases hunsettled.symm.trans hsettled
  · obtain ⟨gate, hgate, hclosed⟩ := exists_gate hgate
    obtain ⟨q', hq', hmay⟩ := hattended.faithful.evaluating w v session p hphase
    have hrunning : h.progress? v = some .running :=
      hkept.progress_of_handled (w := w) (by simp [handled?_eq, hphase, Phase.request?])
    by_cases hv : v = r
    · subst hv
      obtain rfl := Option.some.inj (hq.symm.trans hq')
      exact .gated hrunning hmay hgate hclosed
    · have hprogress' : q'.progress = .running := by simpa [progress?, hq'] using hrunning
      obtain ⟨hearlier, hleft⟩ := hothers v q' hq' hprogress' hv
      exact .behind (hplace.resolve_left hv) hearlier hq' hprogress' hleft

/-- What leaves the process, the workers and the requests as they are shows nothing. -/
theorem aside (hattended : h.Attended e duplicates shown) (hkept : Kept owners h')
    (hstdio : h'.stdio = h.stdio) (hholder : h'.holder = h.holder) (hbehaviour : h'.behaviour = h.behaviour)
    (hgates : ∀ gate ∈ h.gates, gate ∈ h'.gates) (hrequests : h'.requests = h.requests)
    (hphases : ∀ v, h'.phase? v = h.phase? v ∨ ∃ p, h'.phase? v = some p ∧ p.request? = none) :
    h'.Attended e duplicates shown := by
  refine hattended.idle hkept hstdio hholder hbehaviour hgates hphases (.of_eq hrequests) fun r x hx => ?_
  rwa [Host.result?, hrequests] at hx

theorem openGate (hattended : h.Attended e duplicates shown) (gate : String) :
    (h.openGate gate).Attended e duplicates shown := by
  obtain ⟨owners, hkept⟩ := hattended.kept
  exact hattended.aside (hkept.congr (fun _ => rfl) (fun _ _ _ => rfl) rfl rfl rfl) rfl rfl rfl
    (fun _ hg => List.mem_cons_of_mem _ hg) rfl fun _ => .inl rfl

/-- When a host settles, nothing is shown, and its handle still runs. -/
theorem settles {config : Config} (hattended : h.Attended e duplicates shown)
    (hserves : h.Serves config) :
    h.settle.Attended e duplicates shown ∧ h.settle.Serves config ∧ h.GoesOn h.settle := by
  obtain ⟨owners, hkept⟩ := hattended.kept
  obtain ⟨w, hhandles⟩ := hserves
  exact ⟨hattended.settle, ⟨w, (keepsHandles_settle h).handles.trans hhandles⟩, (goesOn_settle hkept).2⟩

/-- **Waiting for a result** shows nothing, by induction on the gates that open. Who is told nothing waits for a
host that has settled, with all of the gates open. -/
theorem awaitResult {config : Config} (hattended : h.Attended e duplicates shown)
    (hserves : h.Serves config) (r : Nat) (gates : List String) :
    let h' := (h.awaitResult r gates).2
    h'.Attended e duplicates shown ∧ h'.Serves config ∧ h.GoesOn h' ∧ (∀ g ∈ h.gates, g ∈ h'.gates) ∧
      (h.awaitResult r gates).1 = h'.result? r ∧
      (h'.result? r = none → (∀ w, h'.work? w = none) ∧ ∀ g ∈ gates, g ∈ h'.gates) := by
  induction gates generalizing h with
  | nil =>
      obtain ⟨hattended', hserves', hon⟩ := hattended.settles hserves
      exact ⟨hattended', hserves', hon, fun g hg => gates_settle h ▸ hg, rfl,
        fun _ => ⟨work?_settle h, by simp⟩⟩
  | cons gate gates ih =>
      obtain ⟨hattended', hserves', hon⟩ := hattended.settles hserves
      unfold Host.awaitResult
      cases hresult : h.settle.result? r with
      | some x =>
          refine ⟨hattended', hserves', hon, fun g hg => gates_settle h ▸ hg, hresult.symm, fun hnone => ?_⟩
          cases hresult.symm.trans hnone
      | none =>
          obtain ⟨hattended', hserves', hon', hmore, heq, hrests⟩ :=
            ih (hattended'.openGate gate) (h := h.settle.openGate gate) hserves'
          have hopened : h.settle.GoesOn (h.settle.openGate gate) := .of_eq rfl
          have hgates : (h.settle.openGate gate).gates = gate :: h.gates :=
            congrArg (gate :: ·) (gates_settle h)
          rw [hgates] at hmore
          refine ⟨hattended', hserves', (hon.trans hopened).trans hon',
            fun g hg => hmore g (List.mem_cons_of_mem _ hg), heq, fun hnone => ⟨(hrests hnone).1, ?_⟩⟩
          exact List.forall_mem_cons.mpr ⟨hmore gate List.mem_cons_self, (hrests hnone).2⟩

/-- **A request that is accepted and waited for** shows nothing. It is not withdrawn by that. -/
theorem accept_awaitResult {config : Config} (hattended : h.Attended e duplicates shown)
    (hhandles : h.handles = [⟨config, .system, .running w⟩]) (kind : RequestKind) (source : Text)
    (gates : List String) :
    let h₁ := h.accept w kind source
    let h' := (h₁.awaitResult h.requests.length gates).2
    h'.Attended e duplicates shown ∧ h'.Serves config ∧ h.Reaches h' ∧ (∀ g ∈ h.gates, g ∈ h'.gates) ∧
      (h₁.awaitResult h.requests.length gates).1 = h'.result? h.requests.length ∧
      (h'.result? h.requests.length = none → (∀ w, h'.work? w = none) ∧ ∀ g ∈ gates, g ∈ h'.gates) ∧
      (h'.requests.map fun q => (q.kind, q.source)) =
        (h.requests.map fun q => (q.kind, q.source)) ++ [(kind, source)] ∧
      h'.progress? h.requests.length ≠ some .withdrawn ∧
      ∃ q, h'.requests[h.requests.length]? = some q ∧ q.kind = kind ∧ q.source = source := by
  intro h₁ h'
  obtain ⟨owners, hkept⟩ := hattended.kept
  have hkept₁ : Kept (owners ++ [0]) h₁ :=
    hkept.accept (by simp [hhandles, HandleState.worker?]) kind source
  have hserves₁ : h₁.Serves config := ⟨w, hhandles⟩
  obtain ⟨hattended', hserves', hon, hmore, hresult, hrests⟩ :=
    (hattended.accept hkept₁).awaitResult hserves₁ h.requests.length gates
  have hnew : h₁.requests[h.requests.length]? = some ⟨kind, source, .queued, false⟩ :=
    List.getElem?_concat_length
  refine ⟨hattended', hserves', (Reaches.accept h w kind source).trans hon.reaches, hmore, hresult, hrests,
    ?_, fun hr => ?_, ?_⟩
  · rw [hon.reaches.asked_eq hon.length]
    simp [Host.accept]
  · have hbefore : h₁.progress? h.requests.length = some .withdrawn := hon.withdrawn _ hr
    rw [progress?, hnew] at hbefore
    cases hbefore
  · obtain ⟨q, hq, hsame⟩ := hon.reaches _ _ hnew
    exact ⟨q, hq, hsame.kind, hsame.source⟩

/-- **A call** is one more request. It has its result, or it is delayed, and then the caller leaves if there is
a time limit, and waits if there is none. Nothing is shown of it at the terminal. -/
theorem call_cases {config : Config} (hattended : h.Attended e duplicates shown) (hserves : h.Serves config)
    (hunawaited : h.Unawaited) (hpatient : config.Patient) (kind : RequestKind) (source : Text)
    (gates : List String) :
    ∃ o h', h.callTask 0 kind source none gates = (o, h') ∧ h'.Attended e duplicates shown ∧
      h'.Serves config ∧ h.Reaches h' ∧ (∀ g ∈ h.gates, g ∈ h'.gates) ∧
      (h'.requests.map fun q => (q.kind, q.source)) =
        (h.requests.map fun q => (q.kind, q.source)) ++ [(kind, source)] ∧
      ((∃ x, o = .answered x ∧ h'.result? h.requests.length = some x ∧
          Yields e.behaviour e.stdio.usable kind source x) ∨
        (∃ x, o = .answered x ∧ config.timeout ≠ none ∧ ∃ (h₂ : Host) (q : Request),
          h₂.Delayed e h.requests.length source ∧ (∀ g ∈ e.gates, g ∈ h₂.gates) ∧
          h₂.requests[h.requests.length]? = some q ∧ h₂.giveUp h.requests.length = (x, h')) ∨
        o = .waiting h.requests.length ∧ config.timeout = none ∧
          h'.Delayed e h.requests.length source ∧ ∀ g ∈ gates, g ∈ h'.gates) := by
  obtain ⟨w, hhandles⟩ := hserves
  let r := h.requests.length
  have hpatience : (h.accept w kind source).patienceOf 0 none = config.timeout := by
    have hsame : (h.accept w kind source).handles = h.handles := rfl
    simp [Host.patienceOf, hsame, hhandles, patience]
  have hcall : h.callTask 0 kind source none gates =
      (h.accept w kind source).awaitWithin Seconds.delayFault? config.timeout (.accepted r) gates := by
    unfold Host.callTask Host.callWithin
    rw [beginCall_of_serves hhandles hpatient.isOver kind source, ← hpatience]
  rw [awaitWithin_of_number hpatient.able hpatient.number] at hcall
  obtain ⟨hattended₂, hserves₂, hreaches₂, hmore, htold, hrests, hasked₂, hwithdrawn, q, hq, rfl, rfl⟩ :=
    hattended.accept_awaitResult hhandles kind source gates
  generalize (h.accept w q.kind q.source).awaitResult h.requests.length gates = awaited at *
  obtain ⟨told, h₂⟩ := awaited
  dsimp only at *
  cases hresult : h₂.result? r with
  | some x =>
      obtain rfl : told = some x := htold.trans hresult
      obtain ⟨q', hq', hx⟩ := Option.map_eq_some_iff.mp (result?_eq_some_iff.mp hresult)
      obtain rfl := Option.some.inj (hq.symm.trans hq')
      exact ⟨.answered x, h₂, hcall, hattended₂, hserves₂, hreaches₂, hmore, hasked₂,
        .inl ⟨x, rfl, hresult, hattended₂.faithful.finished r q x hq hx⟩⟩
  | none =>
      obtain rfl : told = none := htold.trans hresult
      obtain ⟨hquiet, hopened⟩ := hrests hresult
      have hlength₂ : h₂.requests.length = r + 1 := by simpa using congrArg List.length hasked₂
      have hdelayed : h₂.Delayed e r q.source :=
        hattended₂.delayed hserves₂ hquiet hq (isSettled_of_result?_eq_none hq hresult hwithdrawn)
          (hunawaited.abandoned hreaches₂ hlength₂)
      by_cases hlimit : config.timeout = none
      · exact ⟨.waiting r, h₂, by simpa [hlimit] using hcall, hattended₂, hserves₂, hreaches₂, hmore,
          hasked₂, .inr (.inr ⟨rfl, hlimit, hdelayed, hopened⟩)⟩
      · have hlength₃ : (h₂.giveUp r).2.requests.length = h₂.requests.length := by
          rw [giveUp_eq hq]
          exact List.length_modify ..
        have hreaches₃ := Reaches.giveUp h₂ r
        have hgates₃ : (h₂.giveUp r).2.gates = h₂.gates := by
          obtain ⟨requests, heq⟩ := giveUp_snd_eq h₂ r
          rw [heq]
        obtain ⟨v, hhandles₂⟩ := hserves₂
        refine ⟨.answered (h₂.giveUp r).1, (h₂.giveUp r).2, by simpa [hlimit] using hcall,
          hattended₂.giveUp hq, ⟨v, (keepsHandles_giveUp h₂ r).handles.trans hhandles₂⟩,
          hreaches₂.trans hreaches₃, fun g hg => hgates₃ ▸ hmore g hg,
          (hreaches₃.asked_eq hlength₃).trans hasked₂,
          .inr (.inl ⟨_, rfl, hlimit, h₂, q, hdelayed, ?_, hq, rfl⟩)⟩
        exact hattended₂.gates

/-- **A call** for a display text: its caller is told what comes of it, or it waits. -/
theorem call {config : Config} (hattended : h.Attended e duplicates shown) (hserves : h.Serves config)
    (hunawaited : h.Unawaited) (hpatient : config.Patient) (line : Text) (gates : List String) :
    ∃ o h', h.callTask 0 .execute line none gates = (o, h') ∧ h'.Attended e duplicates shown ∧
      h'.Serves config ∧ h.Reaches h' ∧ (∀ g ∈ h.gates, g ∈ h'.gates) ∧
      (h'.requests.map fun q => (q.kind, q.source)) =
        (h.requests.map fun q => (q.kind, q.source)) ++ [(.execute, line)] ∧
      ((∃ x, o = .answered x ∧ h'.Replies e config h.requests.length line x) ∨
        o = .waiting h.requests.length ∧ config.timeout = none ∧
          h'.Delayed e h.requests.length line ∧ ∀ g ∈ gates, g ∈ h'.gates) := by
  obtain ⟨o, h', hcall, hattended', hserves', hreaches, hmore, hasked, hcases⟩ :=
    hattended.call_cases hserves hunawaited hpatient .execute line gates
  refine ⟨o, h', hcall, hattended', hserves', hreaches, hmore, hasked, ?_⟩
  rcases hcases with ⟨x, ho, hresult, hyields⟩ | ⟨x, ho, hlimit, h₂, q, hdelayed, hgates, hq, hgiveUp⟩ | hwaits
  · exact .inl ⟨x, ho, .served hresult hyields⟩
  · have hreplies := hdelayed.replies hgates hlimit hq
    rw [hgiveUp] at hreplies
    exact .inl ⟨x, ho, hreplies⟩
  · exact .inr hwaits

end Attended

/-! ### Handles -/

namespace Attended

variable {e : Circumstances} {duplicates : Channel → Nat} {shown : Channel → List UInt8}

theorem addHandle (hattended : h.Attended e duplicates shown) (config : Config)
    (source : LibrarySource) : (h.addHandle config source).2.Attended e duplicates shown := by
  obtain ⟨owners, hkept⟩ := hattended.kept
  exact hattended.aside (hkept.addHandle config source) rfl rfl rfl (fun _ hg => hg) rfl fun _ => .inl rfl

theorem starts {id : Nat} {f : Option Fault} (hattended : h.Attended e duplicates shown)
    (hstarts : Starts h id f h') : h'.Attended e duplicates shown := by
  obtain ⟨owners, hkept⟩ := hattended.kept
  have hphases : ∀ v, h'.phase? v = h.phase? v ∨ ∃ p, h'.phase? v = some p ∧ p.request? = none := by
    intro v
    rcases hstarts.phase? v with hsame | ⟨-, p, hp, hnew⟩
    · exact .inl hsame
    · exact .inr ⟨p, hp, by cases hnew <;> rfl⟩
  have hkept' := hkept.starts hstarts
  have hrequests := hstarts.requests_eq
  cases hstarts <;> exact hattended.aside hkept' rfl rfl rfl (fun _ hg => hg) hrequests hphases

theorem closes {id : Nat} (hattended : h.Attended e duplicates shown) (hcloses : Closes h id h') :
    h'.Attended e duplicates shown := by
  obtain ⟨owners, hkept⟩ := hattended.kept
  have hkept' := hkept.closes hcloses
  cases hcloses with
  | stays => exact hattended
  | fresh => exact hattended.aside hkept' rfl rfl rfl (fun _ hg => hg) rfl fun _ => .inl rfl
  | running =>
      exact hattended.aside hkept' rfl rfl rfl (fun _ hg => hg) rfl fun v =>
        .inl (phase?_modify_queue rfl v)

theorem answerClose (hattended : h.Attended e duplicates shown) (worker : Option Nat)
    (timeout : Option Seconds) : (h.answerClose worker timeout).2.Attended e duplicates shown := by
  obtain ⟨owners, hkept⟩ := hattended.kept
  unfold Host.answerClose
  split
  · exact hattended
  · split
    · exact hattended
    · exact hattended.aside (hkept.congr (fun _ => rfl) (fun _ _ _ => rfl) rfl rfl rfl) rfl rfl rfl
        (fun _ hg => hg) rfl fun _ => .inl rfl

end Attended

theorem requests_answerClose (h : Host) (worker : Option Nat) (timeout : Option Seconds) :
    (h.answerClose worker timeout).2.requests = h.requests := by
  unfold answerClose
  split
  · rfl
  · split <;> rfl

/-- **Closing** a handle shows nothing at the terminal, whether or not its worker ends. -/
theorem Attended.close {e : Circumstances} {duplicates : Channel → Nat} {shown : Channel → List UInt8}
    (hattended : h.Attended e duplicates shown) (id : Nat) (timeout : Option Seconds) :
    (h.close id timeout).2.Attended e duplicates shown ∧ h.GoesOn (h.close id timeout).2 := by
  have hsettles : ∀ {h' : Host}, h'.Attended e duplicates shown ∧ h.GoesOn h' →
      h'.settle.Attended e duplicates shown ∧ h.GoesOn h'.settle := by
    rintro h' ⟨hattended', hon⟩
    obtain ⟨owners, hkept⟩ := hattended'.kept
    exact ⟨hattended'.settle, hon.trans (goesOn_settle hkept).2⟩
  have hcloses := closes_requestClose h id
  have hasked : (h.requestClose id).2.Attended e duplicates shown ∧ h.GoesOn (h.requestClose id).2 :=
    ⟨hattended.closes hcloses, .of_eq hcloses.requests_eq⟩
  unfold Host.close
  dsimp only
  split
  · exact hsettles hasked
  · refine hsettles ?_
    obtain ⟨hattended', hon⟩ : (if timeout.any (·.isOver) then (h.requestClose id).2
        else (h.requestClose id).2.settle).Attended e duplicates shown ∧
        h.GoesOn (if timeout.any (·.isOver) then (h.requestClose id).2
          else (h.requestClose id).2.settle) := by
      split
      · exact hasked
      · exact hsettles hasked
    exact ⟨hattended'.answerClose _ timeout, hon.trans (.of_eq (requests_answerClose ..))⟩

end Host

end JanetEmbedding
