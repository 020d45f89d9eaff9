import JanetEmbedding.Proofs.Plumbing
import JanetEmbedding.Proofs.Sequence

/-!
# The output of evaluations

The pipes of the workers are kept apart in every run, so what a capture yields is the output of its
own program, whatever others do meanwhile. This module follows a request from its evaluation to its
result: the result has the whole output of its one program as its text, or no text at all.

A program **delivers** if the host raises no exception while the program runs or its value is looked
at. The output of one that does not is captured like any other, but it does not come with the result.

## Main definitions

* `World.programsOf`: the programs that a run has evaluated for a request.
* `Interpreter.Program.Delivers`: the output of a program comes with its result.
* `World.Recorded`: what has become of every request, with its programs.

## Main results

* `World.recorded_run`: in every run the results are those of the programs.
* `World.output_run`: what callers are told of the output of their requests.
* `World.output_lost_of_raised`: the output of a program that ends with an exception is lost.
-/

namespace JanetEmbedding

open Interpreter (Call Program)

/-! ### What a result tells of a program -/

namespace Interpreter.Program

/-- The output of a program **comes with** its result: the host raises no exception, neither while the
program runs nor while its value is rendered. -/
def Delivers (p : Program) (kind : RequestKind) : Prop :=
  p.raised = none ∧ (p.signal ≠ Evaluation.success ∨ ∃ v, Evaluation.render kind p.value = .ok v)

/-- The result of a program that delivers has the text that was captured. -/
theorem text_of_delivers {p : Program} {kind : RequestKind} (h : p.Delivers kind)
    (captured : Capture.Captured) :
    (p.result kind captured).stdout = captured.stdout ∧
      (p.result kind captured).stderr = captured.stderr := by
  obtain ⟨hraised, hvalue⟩ := h
  unfold result Evaluation.outcome
  rw [hraised]
  by_cases hsignal : p.signal = Evaluation.success
  · obtain ⟨v, hv⟩ : ∃ v, Evaluation.render kind p.value = .ok v :=
      hvalue.resolve_left fun hne => hne hsignal
    simp [hsignal, hv, Except.map]
  · simp [hsignal]

/-- The result of one that does not has no text. -/
theorem text_of_not_delivers {p : Program} {kind : RequestKind} (h : ¬ p.Delivers kind)
    (captured : Capture.Captured) :
    (p.result kind captured).stdout = "" ∧ (p.result kind captured).stderr = "" := by
  unfold result
  cases hraised : p.raised with
  | some text => exact ⟨rfl, rfl⟩
  | none =>
      have hsignal : p.signal = Evaluation.success := by
        by_contra hne
        exact h ⟨hraised, .inl hne⟩
      cases hvalue : Evaluation.render kind p.value with
      | error f => simp [Evaluation.outcome, hsignal, hvalue, Except.map, Result.failed]
      | ok v => exact absurd ⟨hraised, .inr ⟨v, hvalue⟩⟩ h

end Interpreter.Program

namespace World

/-! ### The programs of a request -/

/-- The programs of the evaluations that an action begins for a request. -/
def begun (s : World) (r : Nat) (a : Act) : List Program :=
  (s.made a).filterMap fun (held, call) =>
    if held = some r then
      call.evaluation?.map fun (source, _) =>
        s.host.behaviour.program source (s.host.calls.countP (Call.evaluates source))
    else none

/-- The **programs** that a run has evaluated for a request, in order. -/
def programsOf (s : World) (r : Nat) : List Act → List Program
  | [] => []
  | a :: acts => s.begun r a ++ (s.step a).programsOf r acts

/-- There is one program for each evaluation. -/
theorem length_begun (s : World) (r : Nat) (a : Act) :
    (s.begun r a).length = s.evaluationsOf r [a] := by
  simp only [begun, evaluationsOf, madeBy, List.append_nil]
  induction s.made a with
  | nil => rfl
  | cons entry entries ih =>
      obtain ⟨held, call⟩ := entry
      by_cases hheld : held = some r
      · cases hcall : call.evaluation? with
        | none => simpa [hheld, hcall] using ih
        | some evaluation => simpa [hheld, hcall] using ih
      · simpa [hheld] using ih

/-- A request that is spent is given no more programs. -/
theorem begun_of_spent {s : World} (hkept : s.Kept) {r : Nat} (hspent : s.Spent r) (a : Act) :
    s.begun r a = [] := by
  rw [← List.length_eq_zero_iff, length_begun, evaluationsOf_eq_zero hkept hspent]

/-! ### What a request asks for -/

/-- What kind of result the caller of a request asks for. -/
def kind? (s : World) (r : Nat) : Option RequestKind :=
  (s.tickets[r]?.bind fun t => s.callers t.caller).map (·.kind)

theorem kind?_eq {s : World} (hledger : s.Ledger) {r : Nat} {request : Request}
    (hrequest : s.host.requests[r]? = some request) : s.kind? r = some request.kind := by
  have hp : s.host.progress? r = some request.progress := by simp [Host.progress?, hrequest]
  obtain ⟨t, ht⟩ := exists_ticket hledger hp
  obtain ⟨caller, other, hcaller, -, -, hother, hkind, -⟩ := hledger.ticket r t ht
  obtain rfl := Option.some.inj (hrequest.symm.trans hother)
  simp [kind?, ht, hcaller, hkind]

theorem kind?_onward {s s' : World} (honward : Onward s s') {r : Nat} {kind : RequestKind}
    (hkind : s.kind? r = some kind) : s'.kind? r = some kind := by
  obtain ⟨caller, hcaller, rfl⟩ := Option.map_eq_some_iff.mp hkind
  obtain ⟨t, ht, hcaller⟩ := Option.bind_eq_some_iff.mp hcaller
  obtain ⟨caller', hcaller', -, hsame, -⟩ := honward.callers t.caller caller hcaller
  obtain ⟨more, hmore⟩ := honward.tickets
  have ht' : s'.tickets[r]? = some t := by
    rw [← hmore, List.getElem?_append_left (List.getElem?_eq_some_iff.mp ht).1, ht]
  simp [kind?, ht', hcaller', hsame]

/-! ### Every result is that of its program -/

/-- What the programs of a request **come to**. -/
inductive Outcome (usable : Channel → Bool) (kind : RequestKind) : List Program → Result → Prop
  /-- The request could not be evaluated. -/
  | unevaluated {f : Fault} (hkind : f.kind = .capture ∨ f.kind = .encoding) :
      Outcome usable kind [] (.failed f)
  | evaluated (p : Program) : Outcome usable kind [p] (p.result kind (p.captured usable))

/-- What an action comes to for the process: nothing, unless it is a step of a worker. -/
theorem Moves.process {s s' : World} {a : Act} (hmoves : Moves s a s') :
    (s'.host.stdio = s.host.stdio ∧ s'.host.holder = s.host.holder ∧
      ∀ v, s'.host.phase? v = s.host.phase? v ∨
        ∃ p, s'.host.phase? v = some p ∧ p.request? = none) ∨
    ∃ w worker host, s.host.workers[w]? = some worker ∧ s' = { s with host } ∧
      Host.Does (s.braced w) w worker host := by
  have hidle : (∀ w, a ≠ .work w) → ∀ v, s'.host.phase? v = s.host.phase? v ∨
      ∃ p, s'.host.phase? v = some p ∧ p.request? = none := by
    intro hothers v
    rcases hmoves.phases v with hsame | ⟨-, p, hp, hnew⟩ | ⟨-, -, ha, -⟩
    · exact .inl hsame
    · exact .inr ⟨p, hp, by cases hnew <;> rfl⟩
    · exact absurd ha (hothers v)
  cases hmoves with
  | stays => exact .inl ⟨rfl, rfl, fun _ => .inl rfl⟩
  | created | expired | looked | turned | accepted | served | noted | opened =>
      exact .inl ⟨rfl, rfl, hidle (by simp)⟩
  | shared config source shared hstarts =>
      refine .inl ⟨?_, ?_, hidle (by simp)⟩ <;> cases hstarts <;> rfl
  | started hstarts | ready _ _ hstarts | refused _ _ hstarts =>
      refine .inl ⟨?_, ?_, hidle (by simp)⟩ <;> cases hstarts <;> rfl
  | @left c r caller m hcaller hstanding =>
      obtain ⟨requests, heq⟩ := Host.giveUp_snd_eq s.host r
      exact .inl ⟨by rw [heq]; rfl, by rw [heq]; rfl, hidle (by simp)⟩
  | closed hcloses =>
      refine .inl ⟨?_, ?_, hidle (by simp)⟩ <;> cases hcloses <;> rfl
  | @worked w worker host hworker hdoes => exact .inr ⟨w, worker, host, hworker, rfl, hdoes⟩

/-- **Every action keeps the pipes apart.** -/
theorem Moves.plumbed {s s' : World} {a : Act} {s₀ : Stdio} {files : Channel → File}
    {numbers : Nat → Channel → Nat} (hmoves : Moves s a s') (hkept : s.Kept)
    (hplumbed : s.host.Plumbed s₀ files numbers) :
    ∃ numbers', s'.host.Plumbed s₀ files numbers' := by
  rcases hmoves.process with ⟨hstdio, hholder, hphases⟩ | ⟨w, worker, host, hworker, rfl, hdoes⟩
  · exact ⟨numbers, hplumbed.idle (.of_eq hstdio) hholder hphases⟩
  · have hbraced : (s.braced w).Plumbed s₀ files numbers :=
      hplumbed.idle (.of_eq rfl) rfl fun _ => .inl rfl
    exact hbraced.does (kept_braced hkept w) hworker hdoes

/-- What has become of every request, with the programs that it was given. -/
structure Recorded (s₀ : Stdio) (files : Channel → File) (s : World) (programs : Nat → List Program) :
    Prop where
  plumbed : ∃ numbers, s.host.Plumbed s₀ files numbers
  unspent : ∀ r, ¬ s.Spent r → programs r = []
  evaluating : ∀ w r session p, s.host.phase? w = some (.evaluating r session p) → programs r = [p]
  finished : ∀ r x, s.host.result? r = some x →
    ∃ kind, s.kind? r = some kind ∧ Outcome s₀.usable kind (programs r) x

variable {s₀ : Stdio} {files : Channel → File}

/-- A request that is finished comes to what its programs come to. -/
theorem Recorded.outcome {s : World} {programs : Nat → List Program} (h : Recorded s₀ files s programs)
    (hledger : s.Ledger) {r w : Nat} {x : Result} {worker : Worker}
    (hworker : s.host.workers[w]? = some worker)
    (hfinishes : Host.Finishes (s.braced w) worker r x) :
    ∃ kind, s.kind? r = some kind ∧ Outcome s₀.usable kind (programs r) x := by
  have hphase : s.host.phase? w = some worker.phase := by simp [Host.phase?, hworker]
  cases hfinishes with
  | failed hx hkind hearly =>
      have hunspent : ¬ s.Spent r := by
        rintro ⟨⟨q, hq, hqueued⟩, hwaits⟩
        rcases hearly with hearly | ⟨pipes, refusal, hearly⟩
        · exact hqueued (Option.some.inj (hq.symm.trans hearly))
        · exact hwaits w pipes refusal (hphase.trans (congrArg some hearly))
      obtain ⟨p, hp⟩ : ∃ p, s.host.progress? r = some p := by
        rcases hearly with hearly | ⟨pipes, refusal, hearly⟩
        · exact ⟨.queued, hearly⟩
        · refine ⟨.running, hledger.kept.progress_of_handled (w := w) ?_⟩
          rw [Host.handled?_eq, hphase, hearly]
          rfl
      obtain ⟨request, hrequest, -⟩ := Option.map_eq_some_iff.mp hp
      refine ⟨request.kind, kind?_eq hledger hrequest, ?_⟩
      rw [h.unspent r hunspent, hx]
      exact .unevaluated hkind
  | @evaluated session program request captured stdio hevaluating hrequest hfinish hx =>
      rw [hevaluating] at hphase
      have hholder : s.host.holder = some w := by
        rw [hledger.kept.holder_eq_some_iff hworker, hevaluating]
        rfl
      obtain ⟨numbers, hplumbed⟩ := h.plumbed
      obtain ⟨-, -, -, hcaptured⟩ := hplumbed.finish hphase hholder hfinish
      refine ⟨request.kind, kind?_eq hledger hrequest, ?_⟩
      rw [h.evaluating w r session program hphase, hx, hcaptured]
      exact .evaluated program

/-- **Every action records its programs.** -/
theorem Recorded.step {s : World} {programs : Nat → List Program} (h : Recorded s₀ files s programs)
    (hledger : s.Ledger) (a : Act) :
    Recorded s₀ files (s.step a) fun r => programs r ++ s.begun r a := by
  have hmoves := moves_step s a
  have hkept := hledger.kept
  have hspent : ∀ r, s.Spent r → s.begun r a = [] := fun r hr => begun_of_spent hkept hr a
  refine ⟨?_, fun r hr => ?_, fun w r session p hphase => ?_, fun r x hx => ?_⟩
  · obtain ⟨numbers, hplumbed⟩ := h.plumbed
    exact hmoves.plumbed hkept hplumbed
  · have hr' : ¬ s.Spent r := fun hr' => hr (hmoves.spent hkept hr')
    rw [h.unspent r hr', List.nil_append, ← List.length_eq_zero_iff, length_begun]
    rcases evaluationsOf_step s r a with hzero | ⟨-, -, w, -, -, session, p, -, hafter⟩
    · exact hzero
    · exact absurd (spent_of_evaluating (hmoves.kept hkept) hafter) hr
  · rcases hmoves.evaluates hphase with
      hbefore | ⟨pipes, refusal, source, path, -, hwaits, -, htrace, hprogram⟩
    · rw [h.evaluating w r session p hbefore, hspent r (spent_of_evaluating hkept hbefore),
        List.append_nil]
    · have hr : ¬ s.Spent r := fun hr => hr.2 w pipes refusal hwaits
      simp [h.unspent r hr, begun, made_evaluate hwaits htrace, Call.evaluation?, hprogram]
  · have hnone : s.begun r a = [] := by
      rcases evaluationsOf_step s r a with hzero | ⟨-, hprogress, -⟩
      · rw [← List.length_eq_zero_iff, length_begun, hzero]
      · rw [Host.result?_eq_some_iff, hprogress] at hx
        exact hspent r (spent_of_settled hkept hx rfl)
    obtain ⟨kind, hkind, houtcome⟩ :
        ∃ kind, s.kind? r = some kind ∧ Outcome s₀.usable kind (programs r) x := by
      rcases hmoves.finishes hkept hx with hbefore | ⟨w, worker, hworker, hfinishes⟩
      · exact h.finished r x hbefore
      · exact h.outcome hledger hworker hfinishes
    refine ⟨kind, kind?_onward (hmoves.onward hkept) hkind, ?_⟩
    rwa [hnone, List.append_nil]

/-- A run begins with nothing to record. -/
theorem recorded_opening {e : Circumstances} (hready : e.stdio.Ready) :
    ∃ files, e.stdio.descriptors.Refer files ∧ (∀ c, (files c).Older e.stdio.descriptors.pipes) ∧
      Recorded e.stdio files (opening e) fun _ => [] := by
  choose files hfiles using hready.opened
  have hrefer : e.stdio.descriptors.Refer files := fun c => (hfiles c).1
  have holder : ∀ c, (files c).Older e.stdio.descriptors.pipes := fun c => (hfiles c).2
  refine ⟨files, hrefer, holder, ⟨fun _ _ => 0, ?_⟩, fun _ _ => rfl, ?_, ?_⟩
  · exact plumbed_opening hrefer holder hready.unwritten
  · simp [opening, Host.phase?]
  · simp [opening, Host.result?]

/-- **In every run the results are those of the programs.** -/
theorem Recorded.run {s : World} {programs : Nat → List Program} (h : Recorded s₀ files s programs)
    (hledger : s.Ledger) (acts : List Act) :
    Recorded s₀ files (s.run acts) fun r => programs r ++ s.programsOf r acts := by
  induction acts generalizing s programs with
  | nil => simpa [programsOf] using h
  | cons a acts ih =>
      have hnext := ih (h.step hledger a) ((moves_step s a).ledger hledger)
      simpa [programsOf, List.append_assoc] using hnext

/-- What has become of every request of a run. -/
theorem recorded_run {e : Circumstances} (hready : e.stdio.Ready) (acts : List Act) :
    ∃ files, e.stdio.descriptors.Refer files ∧ (∀ c, (files c).Older e.stdio.descriptors.pipes) ∧
      Recorded e.stdio files ((opening e).run acts) fun r => (opening e).programsOf r acts := by
  obtain ⟨files, hrefer, holder, hrecorded⟩ := recorded_opening hready
  exact ⟨files, hrefer, holder, hrecorded.run (ledger_opening e) acts⟩

/-! ### What callers are told -/

/-- What a result **tells** of the output, given the programs that were evaluated for its request. -/
inductive Tells (usable : Channel → Bool) (kind : RequestKind) (x : Result) : List Program → Prop
  /-- Nothing was evaluated, and the result says why. -/
  | nothing (hx : x.Unevaluated) (hout : x.stdout = "") (herr : x.stderr = "") :
      Tells usable kind x []
  /-- It has the whole output. -/
  | whole {p : Program} (hdelivers : p.Delivers kind)
      (hout : x.stdout = Utf8.decodeString (p.sent (usable .out) .out))
      (herr : x.stderr = Utf8.decodeString (p.sent (usable .err) .err)) : Tells usable kind x [p]
  /-- The program does not deliver, and the output is lost. -/
  | lost {p : Program} (hlost : ¬ p.Delivers kind) (hout : x.stdout = "") (herr : x.stderr = "") :
      Tells usable kind x [p]

theorem Outcome.tells {usable : Channel → Bool} {kind : RequestKind} {programs : List Program}
    {x : Result} (h : Outcome usable kind programs x) : Tells usable kind x programs := by
  cases h with
  | @unevaluated f hkind => exact .nothing ⟨f, rfl, hkind⟩ rfl rfl
  | evaluated p =>
      by_cases hdelivers : p.Delivers kind
      · obtain ⟨hout, herr⟩ := Program.text_of_delivers hdelivers (p.captured usable)
        exact .whole hdelivers hout herr
      · obtain ⟨hout, herr⟩ := Program.text_of_not_delivers hdelivers (p.captured usable)
        exact .lost hdelivers hout herr

/-- What a caller receives is the result of its request, and of the kind that it asks for. -/
theorem Ledger.received {s : World} (hledger : s.Ledger) {c r : Nat} {caller : Caller} {x : Result}
    (hcaller : s.callers c = some caller) (hserved : caller.standing = .served r x) :
    s.host.result? r = some x ∧ s.kind? r = some caller.kind := by
  have hfits := hledger.fits c caller hcaller
  rw [hserved] at hfits
  have hticket := hledger.holds c caller r hcaller (by rw [hserved]; rfl)
  exact ⟨Host.result?_eq_some_iff.mpr hfits, by simp [kind?, hticket, hcaller]⟩

/-- **What callers are told of the output.** A caller that receives the result of its request gets the
output of the one program that was evaluated for it, all of it, unless an exception of the host came
between. -/
theorem output_run {e : Circumstances} (hready : e.stdio.Ready) (acts : List Act) {c r : Nat}
    {caller : Caller} {x : Result} (hcaller : ((opening e).run acts).callers c = some caller)
    (hserved : caller.standing = .served r x) :
    Tells e.stdio.usable caller.kind x ((opening e).programsOf r acts) := by
  obtain ⟨files, -, -, hrecorded⟩ := recorded_run hready acts
  obtain ⟨hx, hkind⟩ := (ledger_run (ledger_opening e) acts).received hcaller hserved
  obtain ⟨kind, hkind', houtcome⟩ := hrecorded.finished r x hx
  obtain rfl := Option.some.inj (hkind.symm.trans hkind')
  exact houtcome.tells

end World

/-- The request whose result a caller has received. -/
def Standing.servedWith? : Standing → Option Nat
  | served r _ => some r
  | _ => none

namespace World

theorem exists_served {s : World} {c r : Nat}
    (h : (s.callers c).bind (·.standing.servedWith?) = some r) :
    ∃ caller x, s.callers c = some caller ∧ caller.standing = .served r x := by
  obtain ⟨caller, hcaller, hr⟩ := Option.bind_eq_some_iff.mp h
  cases hstanding : caller.standing with
  | served v x =>
      rw [hstanding] at hr
      obtain rfl := Option.some.inj hr
      exact ⟨caller, x, hcaller, hstanding⟩
  | starting | submitting | dismissed | raised | waiting | gone =>
      simp [hstanding, Standing.servedWith?] at hr

/-- Two interpreters are evaluating at the same time: one waits at a gate when the other one's caller
has stopped waiting. Either caller receives its own output. -/
theorem output_run_of_two :
    let e : Circumstances := { behaviour :=
      { programs :=
        [("a", [{ writes := [⟨.out, false, [104]⟩, ⟨.err, true, [33]⟩], gate := some "g"
                  writesAfter := [⟨.out, true, [105]⟩] }]),
          ("b", [{ writes := [⟨.out, true, [106]⟩, ⟨.out, false, [107]⟩], signal := 1 }])] } }
    let acts : List Act := [.create {} .given, .create {} .given, .start 0, .start 1,
      .call 0 0 .execute "a" none, .advance 0, .call 1 1 .parse "b" none, .advance 1, .work 0, .work 1,
      .work 0, .work 1, .openGate "g", .work 0, .work 1, .work 1, .receive 0, .receive 1]
    e.stdio.Ready ∧
      (([0, 1].map fun c => (((opening e).run acts).answer? c).map fun x => (x.stdout, x.stderr)) =
        [some ("hi", "!"), some ("kj", "")]) ∧
      ∃ caller x, ((opening e).run acts).callers 0 = some caller ∧ caller.standing = .served 0 x ∧
        Tells e.stdio.usable caller.kind x ((opening e).programsOf 0 acts) := by
  intro e acts
  have hserved : (((opening e).run acts).callers 0).bind (·.standing.servedWith?) = some 0 := by
    decide +kernel
  obtain ⟨caller, x, hcaller, hstanding⟩ := exists_served hserved
  refine ⟨Stdio.ready_default, by decide +kernel, caller, x, hcaller, hstanding, ?_⟩
  exact output_run Stdio.ready_default acts hcaller hstanding

/-- **Output is lost** when the host raises an exception: a program has written, and then an exception
ends it, or its value cannot be rendered. Its caller is told that there was no output. -/
theorem output_lost_of_raised :
    let e : Circumstances := { behaviour :=
      { programs :=
        [("a", [{ writes := [⟨.out, false, [104, 105]⟩], raised := some "broken" }]),
          ("b", [{ writes := [⟨.err, true, [104, 105]⟩], value := .sequence .array none .usual }])] } }
    let acts : List Act := [.create {} .given, .start 0, .call 0 0 .execute "a" none, .advance 0,
      .call 1 0 .execute "b" none, .advance 1, .work 0, .work 0, .work 0, .work 0, .work 0, .work 0,
      .receive 0, .receive 1]
    (((opening e).programsOf 0 acts).map fun p => Utf8.decodeString (p.sent true .out)) = ["hi"] ∧
      (((opening e).programsOf 1 acts).map fun p => Utf8.decodeString (p.sent true .err)) = ["hi"] ∧
      ([0, 1].map fun c => (((opening e).run acts).answer? c).map fun x =>
        (x.status, x.stdout, x.stderr)) = [some (.error, "", ""), some (.error, "", "")] := by
  decide +kernel

end World

end JanetEmbedding
