import JanetEmbedding.Proofs.Attempt
import JanetEmbedding.Proofs.Conservation
import JanetEmbedding.Proofs.Forgetting
import JanetEmbedding.Proofs.Sequence

/-!
# Requests whose output cannot be captured

The system may refuse one of its calls to the capture for a request. Such a request is not evaluated,
its result says that its output could not be captured, and no other request can tell whether it has
been submitted.

## Conventions

* That nobody can tell is stated of an interpreter that is alone, with any number of callers: the
  answer to a job is a function of the job and of what has been evaluated before, and does not depend
  on the process.

## Main definitions

* `Refusal.fault?`: the fault of a capture to which the system refuses something.
* `Sequence.reply`, `Sequence.replies`: the answers of the evaluator, told without the process.
* `World.Foreseen`: what workers and results say about what the system was going to refuse.
* `World.Unsubmitted`: nobody can tell whether a request has been submitted.

## Main results

* `World.evaluationsOf_of_refusable`: a request whose output cannot be captured is not evaluated.
* `Sequence.serveAll_eq`: the evaluator gives the answers that are told without the process.
* `World.unattempted_run`: captures and requests that come to nothing are as good as none.
-/

namespace JanetEmbedding

open Interpreter (Call Behaviour)
open Capture (Refusable Pipes Session Undone Unattempted Fails)

/-! ### Requests are not evaluated without a capture -/

namespace World

variable {s s' : World} {a : Act} {r w : Nat}

/-- What the system refuses to a request stays, once there is one. -/
theorem refusalOf_onward (hledger : s.Ledger) (honward : Onward s s') {p : Progress}
    (hp : s.host.progress? r = some p) : s'.refusalOf r = s.refusalOf r := by
  obtain ⟨t, ht⟩ := exists_ticket hledger hp
  obtain ⟨more, hmore⟩ := honward.tickets
  have ht' : s'.tickets[r]? = some t := by
    rw [← hmore, List.getElem?_append_left (List.getElem?_eq_some_iff.mp ht).1, ht]
  simp [refusalOf, ht, ht', honward.refusals]

/-- A worker that takes a request has the system refuse what it refuses to the request. -/
theorem refusal_braced {worker : Worker} {rest : List Item} (hworker : s.host.workers[w]? = some worker)
    (hphase : worker.phase = .serving) (hqueue : worker.queue = .request r :: rest) :
    (s.braced w).refusal = s.refusalOf r := by
  obtain ⟨sourcePath, queue, phase⟩ := worker
  obtain rfl : phase = .serving := hphase
  obtain rfl : queue = .request r :: rest := hqueue
  simp [braced, Host.next?, hworker]

/-- What the system refuses to the captures has been **foreseen**: a worker that waits has its pipes,
and is going to be refused the duplicates that it was to be refused; one that evaluates is refused
nothing; and a request that was to be refused something has a result that says so. -/
structure Foreseen (s : World) : Prop where
  waiting : ∀ w r pipes refusal, s.host.phase? w = some (.waiting r pipes refusal) →
    (s.refusalOf r).pipe ≠ some 1 ∧ (s.refusalOf r).pipe ≠ some 2 ∧
      refusal.duplicate = (s.refusalOf r).duplicate
  evaluating : ∀ w r session p, s.host.phase? w = some (.evaluating r session p) →
    ¬ Refusable (s.refusalOf r)
  finished : ∀ r x, s.host.result? r = some x → Refusable (s.refusalOf r) →
    ∃ f, x = Host.uncaptured f

namespace Foreseen

/-- Descriptors that have been redirected for a request were refused nothing. -/
theorem not_refusable (h : s.Foreseen) {pipes : Pipes} {refusal : Refusal} {session : Session}
    {stdio stdio' : Stdio} (hwaits : s.host.phase? w = some (.waiting r pipes refusal))
    (hredirect : Capture.redirect {} pipes (stdio.refusing refusal) = (.ok session, stdio')) :
    ¬ Refusable (s.refusalOf r) := by
  obtain ⟨hone, htwo, hduplicate⟩ := h.waiting w r pipes refusal hwaits
  obtain ⟨hone', htwo'⟩ := Capture.refusal_of_redirect hredirect
  rintro ((hr | hr) | hr | hr)
  · exact hone hr
  · exact htwo hr
  · exact hone' (hduplicate.trans hr)
  · exact htwo' (hduplicate.trans hr)

/-- A worker that waits after a step has waited before, or has just opened its pipes. -/
theorem waiting_step (h : s.Foreseen) (hmoves : Moves s a s') {pipes : Pipes}
    {refusal : Refusal} (hwaits : s'.host.phase? w = some (.waiting r pipes refusal)) :
    (s.refusalOf r).pipe ≠ some 1 ∧ (s.refusalOf r).pipe ≠ some 2 ∧
      refusal.duplicate = (s.refusalOf r).duplicate := by
  rcases hmoves.phases w with hsame | ⟨-, p, hp, hnew⟩ | ⟨worker, host, -, hworker, rfl, hdoes⟩
  · exact h.waiting w r pipes refusal (hsame.symm.trans hwaits)
  · obtain rfl := Option.some.inj (hp.symm.trans hwaits)
    cases hnew
  · have hbraced : (s.braced w).workers[w]? = some worker := hworker
    cases hdoes with
    | leave | refuse | evaluate | finish => simp [Host.phase?, hbraced] at hwaits
    | pass log hphase => simp [Host.phase?, hbraced, hphase] at hwaits
    | pickUp hphase hqueue hprogress hpipes =>
        simp only [Host.phase?, List.getElem?_modify_eq, hbraced] at hwaits
        cases hwaits
        rw [refusal_braced hworker hphase hqueue] at hpipes
        exact Capture.refusal_of_openPipes hpipes

/-- A worker that evaluates after a step has evaluated before, or has just redirected the
descriptors. -/
theorem evaluating_step (h : s.Foreseen) (hmoves : Moves s a s') {session : Session}
    {p : Interpreter.Program} (hphase : s'.host.phase? w = some (.evaluating r session p)) :
    ¬ Refusable (s.refusalOf r) := by
  rcases hmoves.evaluates hphase with hbefore | ⟨pipes, refusal, source, path, stdio, hwaits, hredirect, -⟩
  · exact h.evaluating w r session p hbefore
  · exact h.not_refusable hwaits hredirect

/-- A request that has a result after a step had it before, or its worker has just found out. -/
theorem finished_step (h : s.Foreseen) (hledger : s.Ledger) (hmoves : Moves s a s') {x : Result}
    (hx : s'.host.result? r = some x) (hr : Refusable (s.refusalOf r)) :
    ∃ f, x = Host.uncaptured f := by
  rcases hmoves.settles hx with hbefore | ⟨w, worker, host, hworker, rfl, hdoes⟩
  · exact h.finished r x hbefore hr
  · rcases hdoes.settles (kept_braced hledger.kept w) hworker hx with
      hbefore | ⟨-, f, hf⟩ | ⟨request, stdio, calls, hheld, -, hends⟩
    · exact h.finished r x hbefore hr
    · exact ⟨f, hf⟩
    · have hphase : s.host.phase? w = some worker.phase := by simp [Host.phase?, hworker]
      generalize worker.phase = phase at hends hheld hphase
      cases hends with
      | @unredirected r pipes refusal f => exact ⟨f, rfl⟩
      | unencoded hholder hredirect =>
          obtain rfl := Option.some.inj hheld
          exact absurd hr (h.not_refusable hphase hredirect)
      | concluded =>
          obtain rfl := Option.some.inj hheld
          exact absurd hr (h.evaluating w _ _ _ hphase)

/-- **Every step is foreseen.** -/
theorem step (h : s.Foreseen) (hledger : s.Ledger) (a : Act) : (s.step a).Foreseen := by
  have hmoves := moves_step s a
  have honward := hmoves.onward hledger.kept
  have hheld : ∀ {w r : Nat} {p : Phase}, s.host.phase? w = some p → p.request? = some r →
      s.host.progress? r = some .running := fun {w r p} hp hr =>
    hledger.kept.progress_of_handled (w := w) (by rw [Host.handled?_eq, hp]; exact hr)
  refine ⟨fun w r pipes refusal hwaits => ?_, fun w r session p hphase => ?_, fun r x hx => ?_⟩
  · obtain ⟨q, hq⟩ : ∃ q, s.host.progress? r = some q := by
      rcases hmoves.waits hwaits with hbefore | hqueued
      · exact ⟨_, hheld hbefore rfl⟩
      · exact ⟨_, hqueued⟩
    rw [refusalOf_onward hledger honward hq]
    exact h.waiting_step hmoves hwaits
  · obtain ⟨q, hq⟩ : ∃ q, s.host.progress? r = some q := by
      rcases hmoves.evaluates hphase with hbefore | ⟨pipes, refusal, -, -, -, hbefore, -⟩
      · exact ⟨_, hheld hbefore rfl⟩
      · exact ⟨_, hheld hbefore rfl⟩
    rw [refusalOf_onward hledger honward hq]
    exact h.evaluating_step hmoves hphase
  · obtain ⟨q, hq⟩ : ∃ q, s.host.progress? r = some q := by
      rcases hmoves.finishes hledger.kept hx with hbefore | ⟨w, worker, hworker, hfinishes⟩
      · exact ⟨_, Host.result?_eq_some_iff.mp hbefore⟩
      · have hphase : s.host.phase? w = some worker.phase := by simp [Host.phase?, hworker]
        cases hfinishes with
        | failed hx hkind hearly =>
            rcases hearly with hqueued | ⟨pipes, refusal, hwaits⟩
            · exact ⟨_, hqueued⟩
            · exact ⟨_, hheld (hphase.trans (congrArg some hwaits)) rfl⟩
        | evaluated hevaluating =>
            exact ⟨_, hheld (hphase.trans (congrArg some hevaluating)) rfl⟩
    rw [refusalOf_onward hledger honward hq]
    exact h.finished_step hledger hmoves hx

/-- **Every run is foreseen.** -/
theorem run (h : s.Foreseen) (hledger : s.Ledger) (acts : List Act) : (s.run acts).Foreseen := by
  induction acts generalizing s with
  | nil => exact h
  | cons a acts ih => exact ih (h.step hledger a) ((moves_step s a).ledger hledger)

end Foreseen

theorem foreseen_opening (e : Circumstances) : (opening e).Foreseen := by
  refine ⟨?_, ?_, ?_⟩ <;> simp [opening, Host.phase?, Host.result?]

/-- **A request that is refused its capture is not evaluated.** -/
theorem evaluationsOf_of_refusable (h : s.Foreseen) (hledger : s.Ledger) {acts : List Act}
    (hr : Refusable ((s.run acts).refusalOf r)) : s.evaluationsOf r acts = 0 := by
  induction acts generalizing s with
  | nil => rfl
  | cons a acts ih =>
      have hmoves := moves_step s a
      have hnext := h.step hledger a
      have hledger' := hmoves.ledger hledger
      rw [evaluationsOf_cons, ih hnext hledger' hr, Nat.add_zero]
      rcases evaluationsOf_step s r a with hzero | ⟨-, hprogress, w, -, -, session, p, -, hevaluating⟩
      · exact hzero
      · have hheld : (s.step a).host.handled? w = some r := by
          rw [Host.handled?_eq, hevaluating]
          rfl
        have hrunning := hledger'.kept.progress_of_handled hheld
        refine absurd ?_ (hnext.evaluating w r session p hevaluating)
        rwa [run_cons, refusalOf_onward hledger' (onward_run hledger'.kept acts) hrunning] at hr

end World

/-! ### The fault of a capture -/

/-- The **fault** of a capture to which the system refuses something, if it refuses one of its calls. -/
def Refusal.fault? (r : Refusal) : Option Capture.Fault :=
  if r.pipe = some 1 then some (.outPipe .tooMany)
  else if r.pipe = some 2 then some (.errPipe .tooMany)
  else if r.duplicate = some 1 ∨ r.duplicate = some 2 then some (.redirection .tooMany)
  else none

theorem Refusal.fault?_eq_none_iff (r : Refusal) : r.fault? = none ↔ ¬ Refusable r := by
  unfold fault? Refusable
  split
  next h => simp [h]
  next hone =>
    split
    next h => simp [h]
    next htwo => split <;> simp_all

namespace Capture

variable {s : Stdio} {fault : Fault}

/-- A descriptor that is open stays so when another one is duplicated. -/
theorem isSome_duplicate {d d' : Descriptors} {fd : Int} {copy x : Nat}
    (hduplicate : d.duplicate fd = .ok (copy, d')) (hx : (d.file? x).isSome) : (d'.file? x).isSome := by
  obtain ⟨f, -, -, hfile, -⟩ := Descriptors.duplicate_eq_ok hduplicate
  rw [hfile]
  split
  · rfl
  · exact hx

/-- With both channels open, only what is refused can fail. -/
theorem fault?_of_fails (hopen : ∀ c : Channel, (s.descriptors.file? c.descriptor).isSome)
    (h : Fails {} s fault) : s.descriptors.refusal.fault? = some fault := by
  -- Both channels stay open while the pipes are opened and the streams flushed.
  have hflushed : ∀ {pipes : Pipes} {d : Descriptors}, openPipes s.descriptors = (.ok pipes, d) →
      ∀ c : Channel, (({ s with descriptors := d } : Stdio).flushAll.descriptors.file?
        c.descriptor).isSome := by
    intro pipes d hpipes c
    rw [Stdio.file?_flushAll, ((fresh_of_openPipes hpipes).1.of_open (hopen c)).2]
    exact hopen c
  cases h with
  | outPipe h =>
      rcases s.descriptors.openPipe_cases with ⟨hone, herror⟩ | ⟨-, _, _, _, hok, -⟩
      · obtain rfl := Except.error.inj (h.symm.trans herror)
        exact if_pos hone
      · cases h.symm.trans hok
  | @errPipe cause ends d hfirst h =>
      obtain ⟨hone, hd⟩ := Descriptors.refusal_of_openPipe hfirst
      rcases d.openPipe_cases with ⟨htwo, herror⟩ | ⟨-, _, _, _, hok, -⟩
      · obtain rfl := Except.error.inj (h.symm.trans herror)
        rw [hd] at htwo
        exact (if_neg hone).trans (if_pos ((Descriptors.countDown_snd _).mp htwo))
      · cases h.symm.trans hok
  | @outCopy cause pipes d hpipes h =>
      obtain ⟨hone, htwo, hd⟩ := refusal_of_openPipes hpipes
      rcases Descriptors.duplicate_of_open (hflushed hpipes .out) with
        ⟨hrefused, herror⟩ | ⟨-, _, _, hok, -⟩
      · obtain rfl := Except.error.inj (h.symm.trans herror)
        rw [Stdio.refusal_flushAll, hd] at hrefused
        exact (if_neg hone).trans ((if_neg htwo).trans (if_pos (.inl hrefused)))
      · cases h.symm.trans hok
  | @errCopy cause pipes d e copy hpipes hfirst h =>
      obtain ⟨hone, htwo, hd⟩ := refusal_of_openPipes hpipes
      obtain ⟨-, he⟩ := Descriptors.refusal_of_duplicate hfirst
      have herr := Descriptors.isSome_redirect (isSome_duplicate hfirst (hflushed hpipes .err))
        pipes.outWrite 1
      rcases Descriptors.duplicate_of_open herr with ⟨hrefused, herror⟩ | ⟨-, _, _, hok, -⟩
      · obtain rfl := Except.error.inj (h.symm.trans herror)
        rw [Descriptors.refusal_redirect, he, Stdio.refusal_flushAll, hd] at hrefused
        have hsecond := (Descriptors.countDown_snd _).mp hrefused
        exact (if_neg hone).trans ((if_neg htwo).trans (if_pos (.inr hsecond)))
      · cases h.symm.trans hok

end Capture

/-! ### The process stays ready -/

namespace Stdio

variable {s s' : Stdio}

theorem Ready.flushAll (hready : s.Ready) : s.flushAll.Ready := by
  choose files hfiles using hready.opened
  refine ⟨fun c => ⟨files c, ?_, ?_⟩, fun n hn => ?_⟩
  · rw [file?_flushAll]
    exact (hfiles c).1
  · rw [pipes_flushAll]
    exact (hfiles c).2
  · rw [pipes_flushAll] at hn
    rw [content_flushAll_of_ne fun c => (hfiles c).1, hready.unwritten n hn]
    intro c heq
    exact absurd ((hfiles c).2 n (by rw [heq]; rfl)) (Nat.not_lt.mpr hn)

/-- A process from which a capture has been undone is ready, if it was. -/
theorem Ready.undone (hready : s.Ready) (hundone : Undone s s') : s'.Ready := by
  refine ⟨fun c => ?_, fun n hn => ?_⟩
  · obtain ⟨f, hf, holder⟩ := hready.opened c
    exact ⟨f, (hundone.file? _).trans hf, fun n hn => Nat.lt_of_lt_of_le (holder n hn) hundone.pipes⟩
  · rw [hundone.content, hready.unwritten n (Nat.le_trans hundone.pipes hn)]

theorem Ready.refusing (hready : s.Ready) (r : Refusal) : (s.refusing r).Ready :=
  ⟨hready.opened, hready.unwritten⟩

end Stdio

/-! ### The evaluator without the process -/

namespace Sequence

variable {b : Behaviour} {path : Option Text} {job : Job} {s : Stdio} {past : List Call}

/-- What a job is answered, and the calls, given which streams can be flushed and the calls so far. -/
def reply (b : Behaviour) (path : Option Text) (usable : Channel → Bool) (past : List Call) (job : Job) :
    Result × List Call :=
  match job.refusal.fault? with
  | some f => (Host.uncaptured f, [])
  | none =>
    match Call.encoded job.source path with
    | .error f => (.failed ⟨.encoding, f.message⟩, [])
    | .ok (source, name) =>
      let p := b.program source (past.countP (Call.evaluates source))
      (p.result job.kind (p.captured usable), .evaluate source name :: p.looks)

/-- The answers to several jobs, and all calls. -/
def replies (b : Behaviour) (path : Option Text) (usable : Channel → Bool) :
    List Call → List (Option Job) → List (Option Result) × List Call
  | past, [] => ([], past)
  | past, none :: jobs =>
    let (answers, calls) := replies b path usable past jobs
    (none :: answers, calls)
  | past, some job :: jobs =>
    let (x, calls) := reply b path usable past job
    let (answers, calls) := replies b path usable (past ++ calls) jobs
    (some x :: answers, calls)

/-- A capture that is refused. -/
theorem handle_of_fault (hready : s.Ready) {f : Capture.Fault} (hfault : job.refusal.fault? = some f) :
    ∃ s', handle b path job s past = (Host.uncaptured f, s', []) ∧ s'.Ready ∧ s'.usable = s.usable := by
  have hready' := hready.refusing job.refusal
  have hrefusable : Refusable job.refusal := by
    by_contra hnot
    rw [(Refusal.fault?_eq_none_iff _).mpr hnot] at hfault
    cases hfault
  obtain ⟨fault, hfails⟩ := Capture.exists_fails hrefusable {} s
  obtain rfl : fault = f := by
    have heq := Capture.fault?_of_fails hready'.isSome hfails
    exact Option.some.inj (heq.symm.trans hfault)
  rcases hstart : Capture.start {} (s.refusing job.refusal) with ⟨started, s'⟩
  obtain rfl : started = .error fault := by
    have hfault' := Capture.fails_iff.mp hfails
    rwa [hstart] at hfault'
  have hundone := (Capture.undone_of_start hready'.isSome hstart).of_refusing
  have hreached : (fault.reached s).Ready := by
    cases fault with
    | outPipe | errPipe => exact hready
    | redirection cause => exact hready.flushAll
  refine ⟨s'.refusing {}, handle_unredirected past hstart, (hreached.undone hundone).refusing {}, ?_⟩
  funext c
  refine (hundone.usable c).trans ?_
  cases fault with
  | outPipe | errPipe => rfl
  | redirection cause => exact Stdio.usable_flushAll ..

/-- A capture that is not refused: what is written while it holds the descriptors is its text. -/
theorem exists_captured (hready : s.Ready) {r : Refusal} (hfault : r.fault? = none) :
    ∃ session t, Capture.start {} (s.refusing r) = (.ok session, t) ∧
      ∀ ws, ∃ s', Capture.finish session ((t.refusing {}).applyAll ws) =
        (⟨Utf8.decodeString (Write.emitted (s.usable .out) .out ws),
          Utf8.decodeString (Write.emitted (s.usable .err) .err ws)⟩, s') ∧
        s'.Ready ∧ s'.usable = s.usable := by
  have hready' := hready.refusing r
  have hchannels : Channel.out ≠ .err := by decide
  obtain ⟨session, copyA, copyB, t, hstart, hentered⟩ :=
    Capture.exists_entered (a := 1) (b := 2) ((Refusal.fault?_eq_none_iff r).mp hfault) hready'.isSome
      (by decide) (hready'.isSome .out) (hready'.isSome .err)
  have hentered' : session.Entered 1 2 copyA copyB (s.refusing r) (t.refusing {}) :=
    ⟨hentered.engages.congr fun _ => rfl, hentered.pipes, hentered.content, hentered.held,
      hentered.usable⟩
  have hpipes := hentered.pipes
  refine ⟨session, t, hstart, fun ws => ?_⟩
  rcases hfinish : Capture.finish session ((t.refusing {}).applyAll ws) with ⟨captured, s'⟩
  obtain ⟨rfl, hfile, hpipes', hothers, -, husable'⟩ :=
    hentered'.finish (a := .out) (b := .err) hready' hchannels ws hfinish
  refine ⟨s', rfl, ⟨fun c => ?_, fun n hn => ?_⟩, funext husable'⟩
  · obtain ⟨f, hf, holder⟩ := hready'.opened c
    refine ⟨f, (hfile _).trans hf, fun n hn => Nat.lt_of_lt_of_le (holder n hn) ?_⟩
    rw [hpipes']
    exact hpipes ▸ Nat.le_add_right _ _
  · have hcount : s.descriptors.pipes + 2 ≤ n := by
      rw [hpipes'] at hn
      exact hpipes ▸ hn
    rw [hothers]
    · refine hready'.flushAll.unwritten n ?_
      rw [Stdio.pipes_flushAll]
      exact Nat.le_of_add_right_le hcount
    · intro c heq
      have hnumber := File.writeEnd.inj heq
      split at hnumber
      · exact absurd hnumber (by show n ≠ s.descriptors.pipes; omega)
      · exact absurd hnumber (by show n ≠ s.descriptors.pipes + 1; omega)

/-- **The answer to a job does not depend on the process.** -/
theorem handle_eq (b : Behaviour) (path : Option Text) (job : Job) (past : List Call)
    (hready : s.Ready) :
    ∃ s', handle b path job s past =
        ((reply b path s.usable past job).1, s', (reply b path s.usable past job).2) ∧
      s'.Ready ∧ s'.usable = s.usable := by
  cases hfault : job.refusal.fault? with
  | some f =>
      simp only [reply, hfault]
      exact handle_of_fault hready hfault
  | none =>
      obtain ⟨session, t, hstart, hfinish⟩ := exists_captured hready hfault
      rcases hencoded : Call.encoded job.source path with f | ⟨source, name⟩
      · obtain ⟨s', hs', hready', husable⟩ := hfinish []
        simp only [reply, hfault, hencoded]
        refine ⟨s', (handle_unencoded past hstart hencoded).trans ?_, hready', husable⟩
        rw [show t.refusing {} = (t.refusing {}).applyAll [] from rfl, hs']
      · obtain ⟨p, hp⟩ : ∃ p, p = b.program source (past.countP (Call.evaluates source)) := ⟨_, rfl⟩
        obtain ⟨s', hs', hready', husable⟩ := hfinish (p.writes ++ p.writesAfter)
        simp only [reply, hfault, hencoded, ← hp]
        refine ⟨s', ?_, hready', husable⟩
        rw [Stdio.applyAll, List.foldl_append] at hs'
        exact handle_evaluated hstart hencoded hp hs'

/-- **The evaluator gives the answers that are told without the process.** -/
theorem serveAll_eq (b : Behaviour) (path : Option Text) {q : Sequence} (hready : q.stdio.Ready)
    (jobs : List (Option Job)) :
    (serveAll b path q jobs).answers = q.answers ++ (replies b path q.stdio.usable q.calls jobs).1 ∧
      (serveAll b path q jobs).calls = (replies b path q.stdio.usable q.calls jobs).2 := by
  induction jobs generalizing q with
  | nil => exact ⟨(List.append_nil _).symm, rfl⟩
  | cons job jobs ih =>
      cases job with
      | none =>
          obtain ⟨hanswers, hcalls⟩ := ih (q := serve b path q none) hready
          refine ⟨hanswers.trans ?_, hcalls⟩
          simp [serve, replies]
      | some job =>
          obtain ⟨s', hhandle, hready', husable⟩ := handle_eq b path job q.calls hready
          have hserve : serve b path q (some job) =
              { stdio := s', calls := q.calls ++ (reply b path q.stdio.usable q.calls job).2
                answers := q.answers ++ [some (reply b path q.stdio.usable q.calls job).1] } := by
            simp only [serve, hhandle]
          have hready'' : (serve b path q (some job)).stdio.Ready := by
            rw [hserve]
            exact hready'
          obtain ⟨hanswers, hcalls⟩ := ih hready''
          rw [hserve] at hanswers hcalls
          simp only [husable] at hanswers hcalls
          refine ⟨?_, ?_⟩
          · refine Eq.trans (b := (serveAll b path (serve b path q (some job)) jobs).answers) rfl ?_
            rw [hserve, hanswers]
            simp [replies]
          · refine Eq.trans (b := (serveAll b path (serve b path q (some job)) jobs).calls) rfl ?_
            rw [hserve, hcalls]
            rfl

/-- **A job that is refused its capture is as good as none** for the others. -/
theorem replies_eraseIdx (b : Behaviour) (path : Option Text) (usable : Channel → Bool)
    (past : List Call) {jobs : List (Option Job)} {r : Nat} {f : Capture.Fault}
    (hjob : jobs[r]? = some (some job)) (hfault : job.refusal.fault? = some f) :
    replies b path usable past (jobs.eraseIdx r) =
        ((replies b path usable past jobs).1.eraseIdx r, (replies b path usable past jobs).2) ∧
      (replies b path usable past jobs).1[r]? = some (some (Host.uncaptured f)) := by
  induction jobs generalizing r past with
  | nil => cases hjob
  | cons next jobs ih =>
      cases r with
      | zero =>
          obtain rfl : next = some job := Option.some.inj hjob
          simp [replies, reply, hfault]
      | succ r =>
          have hjob' : jobs[r]? = some (some job) := hjob
          cases next with
          | none =>
              obtain ⟨herase, hanswer⟩ := ih past hjob'
              exact ⟨by simp [replies, herase], by simpa [replies] using hanswer⟩
          | some other =>
              obtain ⟨herase, hanswer⟩ :=
                ih (past ++ (reply b path usable past other).2) hjob'
              exact ⟨by simp [replies, herase], by simpa [replies] using hanswer⟩

/-- The evaluator makes the same calls without such a job, and the other answers are the same. -/
theorem serveAll_eraseIdx (b : Behaviour) (path : Option Text) {q : Sequence}
    (hready : q.stdio.Ready) (hanswers : q.answers = []) {jobs : List (Option Job)} {r : Nat}
    (hjob : jobs[r]? = some (some job)) (hrefusal : Refusable job.refusal) :
    (serveAll b path q (jobs.eraseIdx r)).answers = (serveAll b path q jobs).answers.eraseIdx r ∧
      (serveAll b path q (jobs.eraseIdx r)).calls = (serveAll b path q jobs).calls ∧
      ∃ f, (serveAll b path q jobs).answers[r]? = some (some (Host.uncaptured f)) := by
  obtain ⟨f, hfault⟩ : ∃ f, job.refusal.fault? = some f := by
    cases hfault : job.refusal.fault? with
    | none => exact absurd hrefusal ((Refusal.fault?_eq_none_iff _).mp hfault)
    | some f => exact ⟨f, rfl⟩
  obtain ⟨hwith, hcalls⟩ := serveAll_eq b path hready jobs
  obtain ⟨hwithout, hcalls'⟩ := serveAll_eq b path hready (jobs.eraseIdx r)
  obtain ⟨herase, hanswer⟩ := replies_eraseIdx b path q.stdio.usable q.calls hjob hfault
  rw [hanswers, List.nil_append] at hwith hwithout
  rw [herase] at hwithout hcalls'
  exact ⟨by rw [hwithout, hwith], hcalls'.trans hcalls.symm, f, by rw [hwith, hanswer]⟩

end Sequence

/-! ### Requests that might as well not have been submitted -/

/-- A process that is sound is ready. -/
theorem Stdio.Sound.ready {s : Stdio} (h : s.Sound) : s.Ready := by
  refine ⟨fun c => ?_, fun n hn => h.descriptors.unwritten _ fun holder => ?_⟩
  · obtain ⟨f, hf⟩ := Option.isSome_iff_exists.mp (h.opened c)
    exact ⟨f, hf, h.descriptors.older _ f hf⟩
  · exact absurd (holder n rfl) (Nat.not_lt.mpr hn)

namespace World

/-- A world is, but for one request, what it would be if the request had **not been submitted**: it
agrees with an evaluator that does not know the request. -/
structure Unsubmitted (s : World) (r : Nat) (q : Sequence) : Prop where
  /-- The request has been refused its capture. -/
  refused : ∀ x, s.host.result? r = some x → ∃ f, x = Host.uncaptured f
  /-- The interpreter has evaluated what the evaluator evaluates, as far as it has come. -/
  evaluations : s.host.calls.filterMap Call.evaluation? <+: q.calls.filterMap Call.evaluation?
  /-- All other requests are finished with their own answers, -/
  results : ∀ v x, v ≠ r → s.host.result? v = some x →
    q.answers[renumber (some r) v]? = some (some x)
  /-- and when the worker has no step left, either its evaluation stands at a gate that is closed, or
  all of them are settled. -/
  rests : s.host.work? 0 = none →
    (∃ worker v session p, s.host.workers[0]? = some worker ∧
      worker.phase = .evaluating v session p ∧ s.host.isOpen p.gate = false) ∨
    ∀ v < s.tickets.length, v ≠ r → q.answers[renumber (some r) v]? = some (s.host.result? v)

/-- A world that agrees with the evaluator is what it would be without the request. -/
theorem Agrees.unsubmitted {b : Behaviour} {path : Option Text} {q : Sequence} {s : World} {r : Nat}
    {job : Job} (hagrees : s.Agrees (Sequence.serveAll b path q s.jobs)) (hready : q.stdio.Ready)
    (hanswers : q.answers = []) (hjob : s.job? r = some job) (hlt : r < s.tickets.length)
    (hrefusal : Refusable job.refusal) :
    s.Unsubmitted r (Sequence.serveAll b path q (s.jobs.eraseIdx r)) := by
  have hjob' : s.jobs[r]? = some (some job) := by simp [jobs, hlt, hjob]
  obtain ⟨hothers, hcalls, f, hanswer⟩ :=
    Sequence.serveAll_eraseIdx b path hready hanswers hjob' hrefusal
  have hother : ∀ v, v ≠ r →
      (Sequence.serveAll b path q (s.jobs.eraseIdx r)).answers[renumber (some r) v]? =
        (Sequence.serveAll b path q s.jobs).answers[v]? := fun v hv => by
    rw [hothers]
    have hgap : some r ≠ some v := fun heq => hv (Option.some.inj heq).symm
    exact getElem?_closeGap hgap _
  refine ⟨fun x hx => ⟨f, ?_⟩, ?_, fun v x hv hx => ?_, fun hquiet => ?_⟩
  · have hsame := (hagrees.results r x hx).symm.trans hanswer
    exact Option.some.inj (Option.some.inj hsame)
  · rw [hcalls]
    exact hagrees.evaluations
  · rw [hother v hv]
    exact hagrees.results v x hx
  · rcases hagrees.rests hquiet with hgate | ⟨-, hsettled, -⟩
    · exact .inl hgate
    · exact .inr fun v hlt' hv => (hother v hv).trans (hsettled v hlt').1

/-- **What comes to nothing is as good as if it had never been tried.** Let a process be sound, such as
one that has just been started. If, after any history, one of the calls fails with which a capture is
set up, then the capture is refused without running its block, all descriptors refer to what they did,
and all that is done later ends as it does without the capture, except that the streams may have been
flushed; and each of the calls can be the one that fails.

In any run with any number of interpreters, a request that is refused its capture is never evaluated,
and its result has nothing but the fault. With one interpreter, the other requests get what they get
from an evaluator that does not know the request, and in every run without it. -/
theorem unattempted_run {e : Circumstances} (hsound : e.stdio.Sound) :
    (∀ earlier t r fault, Fails t ((Deed.history earlier e.stdio).2.refusing r) fault →
      ∃ s', Unattempted t r (Deed.history earlier e.stdio).2 fault s') ∧
    (∀ earlier t r, Refusable r →
      ∃ fault, Fails t ((Deed.history earlier e.stdio).2.refusing r) fault) ∧
    (∀ acts r, Refusable (((opening e).run acts).refusalOf r) →
      (opening e).evaluationsOf r acts = 0 ∧
        ∀ x, ((opening e).run acts).host.result? r = some x →
          ∃ f, x = Host.uncaptured f ∧ x.value = none ∧ x.stdout = "" ∧ x.stderr = "") ∧
    ∀ config source before log acts, (∀ a ∈ acts, a.makesHandle = false) →
      let world := (alone e config source before log).run
      let q : Sequence := ⟨e.stdio, before.map (·.2), []⟩
      ∀ r job, (world acts).job? r = some job → Refusable job.refusal →
        (world acts).Unsubmitted r
            (Sequence.serveAll e.behaviour config.sourcePath q ((world acts).jobs.eraseIdx r)) ∧
          ∀ acts', (∀ a ∈ acts', a.makesHandle = false) →
            (world acts').jobs = (world acts).jobs.eraseIdx r →
            ∀ v x x', v ≠ r → (world acts).host.result? v = some x →
              (world acts').host.result? (renumber (some r) v) = some x' → x' = x := by
  refine ⟨fun earlier t r fault hfails => ?_, fun earlier t r hr => Capture.exists_fails hr t _,
    fun acts r hr => ⟨?_, fun x hx => ?_⟩, fun config source before log acts hacts => ?_⟩
  · exact Capture.unattempted (hsound.history earlier) hfails
  · exact evaluationsOf_of_refusable (foreseen_opening e) (ledger_opening e) hr
  · obtain ⟨f, rfl⟩ := ((foreseen_opening e).run (ledger_opening e) acts).finished r x hx hr
    exact ⟨f, rfl, rfl, rfl, rfl⟩
  · intro world q r job hjob hrefusal
    have hlt : r < (world acts).tickets.length := by
      by_contra hge
      simp only [job?, List.getElem?_eq_none (Nat.le_of_not_lt hge)] at hjob
      split at hjob <;> cases hjob
    have hagrees := (agrees_run e config source before log hacts).1
    have hunsubmitted : (world acts).Unsubmitted r _ :=
      hagrees.unsubmitted hsound.ready rfl hjob hlt hrefusal
    refine ⟨hunsubmitted, fun acts' hacts' hjobs v x x' hv hx hx' => ?_⟩
    have hagrees' := (agrees_run e config source before log hacts').1
    have hanswer := hunsubmitted.results v x hv hx
    rw [← hjobs] at hanswer
    have hsame := (hagrees'.results _ x' hx').symm.trans hanswer
    exact Option.some.inj (Option.some.inj hsame)

/-- After a write that is held back, a capture of the first channel and of a descriptor that is not
open: the stream has been flushed, and a later capture has its text. Of three requests the second one
is refused its second pipe, and the third one evaluates what it evaluates without the second. -/
theorem unattempted_run_of_three :
    let e : Circumstances :=
      { behaviour := { programs := [("a", [{ writes := [⟨.out, false, [97]⟩] }]),
          ("b", [{ writes := [⟨.out, false, [98]⟩] }, { writes := [⟨.out, false, [99]⟩] }])] }
        stdio := { heldOut := [104] }
        refusals := fun c => if c = 1 then { pipe := some 2 } else {} }
    let deeds : List Deed := [.write ⟨.out, false, [105]⟩]
    let s := (Deed.history deeds e.stdio).2
    let acts : List Act := [.call 0 0 .execute "a" none, .advance 0, .call 1 0 .execute "b" none,
      .advance 1, .call 2 0 .execute "b" none, .advance 2] ++ List.replicate 7 (.work 0)
    let acts' : List Act := [.call 0 0 .execute "a" none, .advance 0, .call 2 0 .execute "b" none,
      .advance 2] ++ List.replicate 6 (.work 0)
    let world := (alone e {} .given [] []).run
    e.stdio.Sound ∧ Fails ⟨1, 12⟩ (s.refusing {}) (.redirection .badDescriptor) ∧
      (∃ s', Unattempted ⟨1, 12⟩ {} s (.redirection .badDescriptor) s') ∧
      (∀ a ∈ acts ++ acts', a.makesHandle = false) ∧
      (∃ job, (world acts).job? 1 = some job ∧ Refusable job.refusal) ∧
      (world acts').jobs = (world acts).jobs.eraseIdx 1 ∧
      ([0, 1, 2].map fun r => ((world acts).host.result? r).map fun x => (x.status, x.stdout)) =
        [some (.success, "a"), some (.error, ""), some (.success, "b")] ∧
      ∃ x, (world acts).host.result? 2 = some x ∧ (world acts').host.result? 1 = some x := by
  intro e deeds s acts acts' world
  have hsound : e.stdio.Sound := by
    obtain ⟨hdescriptors, hopened⟩ := Stdio.sound_default
    exact ⟨hdescriptors, hopened⟩
  have hfails : Fails ⟨1, 12⟩ (s.refusing {}) (.redirection .badDescriptor) := by
    refine Capture.fails_iff.mpr ?_
    decide +kernel
  have hacts : ∀ a ∈ acts, a.makesHandle = false := by decide
  have hacts' : ∀ a ∈ acts', a.makesHandle = false := by decide
  have hjobs : (world acts').jobs = (world acts).jobs.eraseIdx 1 := by decide +kernel
  have hjob : (world acts).job? 1 = some ⟨.execute, "b", { pipe := some 2 }⟩ := by decide +kernel
  have hrefusal : Refusable { pipe := some 2 } := by decide
  have hanswers : ([0, 1, 2].map fun r => ((world acts).host.result? r).map
      fun x => (x.status, x.stdout)) =
        [some (.success, "a"), some (.error, ""), some (.success, "b")] := by decide +kernel
  have hlast : ((world acts').host.result? 1).isSome := by decide +kernel
  obtain ⟨hcaptures, -, -, hrequests⟩ := unattempted_run hsound
  obtain ⟨-, hsame⟩ := hrequests {} .given [] [] acts hacts 1 _ hjob hrefusal
  obtain ⟨x', hx'⟩ := Option.isSome_iff_exists.mp hlast
  obtain ⟨x, hx⟩ : ∃ x, (world acts).host.result? 2 = some x := by
    refine Option.isSome_iff_exists.mp ?_
    decide +kernel
  obtain rfl : x' = x := hsame acts' hacts' hjobs 2 x x' (by decide) hx hx'
  refine ⟨hsound, hfails, hcaptures deeds _ _ _ hfails, fun a ha => ?_, ⟨_, hjob, hrefusal⟩, hjobs,
    hanswers, x', hx, hx'⟩
  rcases List.mem_append.mp ha with ha | ha
  · exact hacts a ha
  · exact hacts' a ha

end World

end JanetEmbedding
