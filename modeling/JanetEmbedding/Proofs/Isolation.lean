import JanetEmbedding.Proofs.Output
import Mathlib.Data.List.Induction

/-!
# The isolation of output

The two descriptors belong to the whole process, and any number of evaluations want them. In every
run at most one evaluation holds them, the text that a caller is told is that of its own evaluation
or none, and what evaluations write stays in their pipes: the files that the descriptors referred to
when the run began get nothing but what the host's own streams held back then.

## Main definitions

* `Result.Silent`: a result without text.
* `World.Isolated`: what is promised of every run.

## Main results

* `World.isolated_run`: every run is isolated.
-/

namespace JanetEmbedding

/-- A result is **silent** if it has no text of either channel. -/
def Result.Silent (x : Result) : Prop := x.stdout = "" ∧ x.stderr = ""

namespace World

/-! ### Callers that are turned away -/

/-- A caller that is answered without a request is told of no output. -/
theorem Moves.dismissed {s s' : World} {a : Act} (hmoves : Moves s a s') {c : Nat} {caller : Caller}
    {x : Result} (hcaller : s'.callers c = some caller) (hstanding : caller.standing = .dismissed x) :
    s.callers c = some caller ∨ x.Silent := by
  have hput : ∀ {s : World} {d : Nat} {old : Caller} {standing : Standing},
      (s.put d old standing).callers c = some caller →
        s.callers c = some caller ∨ standing = .dismissed x := by
    intro s d old standing hafter
    rcases put_cases hafter with ⟨rfl, rfl⟩ | ⟨-, hbefore⟩
    · exact .inr hstanding
    · exact .inl hbefore
  cases hmoves with
  | stays | created | shared | started | closed | noted | worked | opened => exact .inl hcaller
  | expired =>
      rcases hput hcaller with hbefore | ⟨⟨⟩⟩
      · exact .inl hbefore
      · exact .inr ⟨rfl, rfl⟩
  | looked =>
      rcases hput hcaller with hbefore | heq
      · exact .inl hbefore
      · split at heq <;> cases heq
  | @refused c caller f =>
      rcases hput hcaller with hbefore | heq
      · exact .inl hbefore
      · rcases Standing.unstarted_cases f with hf | hf <;> rw [hf] at heq <;> cases heq
        exact .inr ⟨rfl, rfl⟩
  | turned =>
      rcases hput hcaller with hbefore | ⟨⟨⟩⟩
      · exact .inl hbefore
      · exact .inr ⟨rfl, rfl⟩
  | ready | accepted | served | left =>
      rcases hput hcaller with hbefore | ⟨⟨⟩⟩
      exact .inl hbefore

theorem silent_of_dismissed (e : Circumstances) (acts : List Act) {c : Nat} {caller : Caller}
    {x : Result} (hcaller : ((opening e).run acts).callers c = some caller)
    (hstanding : caller.standing = .dismissed x) : x.Silent := by
  induction acts using List.reverseRecOn with
  | nil => cases hcaller
  | append_singleton acts a ih =>
      rw [run_append] at hcaller
      rcases (moves_step ((opening e).run acts) a).dismissed hcaller hstanding with hbefore | hsilent
      · exact ih hbefore
      · exact hsilent

/-- A caller is told of no output, unless it has received the result of its request. -/
theorem silent_or_served (e : Circumstances) (acts : List Act) {c : Nat} {x : Result}
    (hx : ((opening e).run acts).answer? c = some x) :
    x.Silent ∨ ∃ caller r, ((opening e).run acts).callers c = some caller ∧
      caller.standing = .served r x := by
  obtain ⟨caller, hcaller, hanswer⟩ := Option.bind_eq_some_iff.mp hx
  have hfits := (ledger_run (ledger_opening e) acts).fits c caller hcaller
  cases hstanding : caller.standing with
  | starting | submitting | raised | waiting => simp [hstanding, Standing.answer?] at hanswer
  | dismissed y =>
      rw [hstanding] at hanswer
      obtain rfl := Option.some.inj hanswer
      exact .inl (silent_of_dismissed e acts hcaller hstanding)
  | served r y =>
      rw [hstanding] at hanswer
      obtain rfl := Option.some.inj hanswer
      exact .inr ⟨caller, r, hcaller, hstanding⟩
  | gone r y =>
      rw [hstanding] at hanswer hfits
      obtain rfl := Option.some.inj hanswer
      rcases hfits with ⟨-, rfl⟩ | ⟨-, rfl⟩ | ⟨-, flag, -, rfl⟩ <;> exact .inl ⟨rfl, rfl⟩

/-! ### What is promised of every run -/

/-- A run is **isolated** if no output gets to where it does not belong. -/
structure Isolated (e : Circumstances) (acts : List Act) : Prop where
  /-- At most one evaluation is going on. -/
  sole : ∀ v w r r' session session' p p',
    ((opening e).run acts).host.phase? v = some (.evaluating r session p) →
    ((opening e).run acts).host.phase? w = some (.evaluating r' session' p') → v = w
  /-- It holds the descriptors: they refer to pipes that it reads, and that nobody else has. -/
  held : ∀ w r session p,
    ((opening e).run acts).host.phase? w = some (.evaluating r session p) →
    ∃ numbers : Channel → Nat, (∀ c, e.stdio.descriptors.pipes ≤ numbers c) ∧
      numbers .out ≠ numbers .err ∧
      session.Holds ((opening e).run acts).host.stdio.descriptors numbers
        (fun c => (e.stdio.descriptors.file? c.descriptor).getD .input) ∧
      ∀ v r' pipes refusal,
        ((opening e).run acts).host.phase? v = some (.waiting r' pipes refusal) → ∀ c c',
          ((opening e).run acts).host.stdio.descriptors.file? (pipes.writing c') ≠
            some (.writeEnd (numbers c))
  /-- When none is, the descriptors refer to what they referred to when the run began. -/
  restored : (∀ w r session p,
    ((opening e).run acts).host.phase? w ≠ some (.evaluating r session p)) →
    ∀ c : Channel, ((opening e).run acts).host.stdio.descriptors.file? c.descriptor =
      e.stdio.descriptors.file? c.descriptor
  /-- The text of a result is the output of the one program of its request. -/
  own : ∀ r x, ((opening e).run acts).host.result? r = some x →
    x.Silent ∨ ∃ p, (opening e).programsOf r acts = [p] ∧
      x.stdout = Utf8.decodeString (p.sent (e.stdio.usable .out) .out) ∧
      x.stderr = Utf8.decodeString (p.sent (e.stdio.usable .err) .err)
  /-- What a caller is told is the result of its own request, or silent. -/
  told : ∀ c x, ((opening e).run acts).answer? c = some x →
    x.Silent ∨ ∃ caller r, ((opening e).run acts).callers c = some caller ∧
      caller.standing = .served r x ∧ ((opening e).run acts).host.result? r = some x
  /-- The files that were there when the run began get what the streams of the host held back then, or
  nothing yet. -/
  untouched : ∀ f, f.Older e.stdio.descriptors.pipes →
    ((opening e).run acts).host.stdio.descriptors.content f = e.stdio.descriptors.content f ∨
      ((opening e).run acts).host.stdio.descriptors.content f =
        e.stdio.flushAll.descriptors.content f

/-- **Every run is isolated.** -/
theorem isolated_run {e : Circumstances} (hready : e.stdio.Ready) (acts : List Act) :
    Isolated e acts := by
  have hledger := ledger_run (ledger_opening e) acts
  have hkept := hledger.kept
  obtain ⟨files, hrefer, holder, hrecorded⟩ := recorded_run hready acts
  obtain ⟨numbers, hplumbed⟩ := hrecorded.plumbed
  have hholder : ∀ w r session p,
      ((opening e).run acts).host.phase? w = some (.evaluating r session p) →
        ((opening e).run acts).host.holder = some w := by
    intro w r session p hphase
    obtain ⟨worker, hworker, hp⟩ := Option.map_eq_some_iff.mp hphase
    rw [hkept.holder_eq_some_iff hworker, hp]
    rfl
  have hfiles : (fun c : Channel => (e.stdio.descriptors.file? c.descriptor).getD .input) = files := by
    funext c
    rw [hrefer c]
    rfl
  refine ⟨fun v w r r' session session' p p' hv hw => ?_, fun w r session p hphase => ?_,
    fun hnone c => ?_, fun r x hx => ?_, fun c x hx => ?_, fun f hf => ?_⟩
  · exact Option.some.inj ((hholder v r session p hv).symm.trans (hholder w r' session' p' hw))
  · have hheld : (((opening e).run acts).host.handled? w).isSome := by
      simp [Host.handled?_eq, hphase, Phase.request?]
    rw [hfiles]
    refine ⟨numbers w, fun c => (hplumbed.numbered w hheld c).1,
      hplumbed.numbers_ne hheld (by decide), (hplumbed.equipped w _ hphase).1,
      fun v r' pipes refusal hwaits c c' heq => ?_⟩
    have hheld' : (((opening e).run acts).host.handled? v).isSome := by
      simp [Host.handled?_eq, hwaits, Phase.request?]
    have hwriting := (hplumbed.equipped v _ hwaits).1.writing c'
    have hnumber := File.writeEnd.inj (Option.some.inj (hwriting.symm.trans heq))
    obtain ⟨rfl, -⟩ := hplumbed.inj v w c' c hheld' hheld hnumber
    cases hphase.symm.trans hwaits
  · have hfree : ((opening e).run acts).host.holder = none := by
      refine Option.eq_none_iff_forall_ne_some.mpr fun w hw => ?_
      obtain ⟨worker, hworker, hevaluating⟩ := (hkept.holder w).mp hw
      cases hphase : worker.phase with
      | evaluating r session p => exact hnone w r session p (by simp [Host.phase?, hworker, hphase])
      | created | serving | waiting | stopped | failed =>
          simp [hphase, Phase.isEvaluating] at hevaluating
    rw [hplumbed.refer hfree c, hrefer c]
  · obtain ⟨kind, -, houtcome⟩ := hrecorded.finished r x hx
    generalize (opening e).programsOf r acts = programs at houtcome
    cases houtcome.tells with
    | nothing hx hout herr => exact .inl ⟨hout, herr⟩
    | @whole p hdelivers hout herr => exact .inr ⟨p, rfl, hout, herr⟩
    | lost hlost hout herr => exact .inl ⟨hout, herr⟩
  · rcases silent_or_served e acts hx with hsilent | ⟨caller, r, hcaller, hserved⟩
    · exact .inl hsilent
    · exact .inr ⟨caller, r, hcaller, hserved, (hledger.received hcaller hserved).1⟩
  · rcases hplumbed.shown with ⟨-, -, hcontent⟩ | ⟨-, hcontent⟩
    · exact .inl (hcontent f hf)
    · exact .inr (hcontent f hf)

/-- Two interpreters: the first one's caller stops waiting and its handle is closed while its program
waits at a gate, and the second one waits for the descriptors. What either writes stays in its pipes,
and the terminal gets only what the host had held back. -/
theorem isolated_run_of_two :
    let e : Circumstances :=
      { behaviour :=
          { programs :=
            [("a", [{ writes := [⟨.out, true, [104]⟩, ⟨.out, false, [105]⟩], gate := some "g"
                      writesAfter := [⟨.out, false, [106]⟩, ⟨.err, true, [107]⟩] }]),
              ("b", [{ writes := [⟨.out, true, [108]⟩] }])] }
        stdio := { heldOut := [109] } }
    let acts : List Act := [.create {} .given, .create {} .given, .start 0, .start 1,
      .call 0 0 .execute "a" none, .advance 0, .call 1 1 .execute "b" none, .advance 1, .work 0,
      .work 0, .work 1, .giveUp 0 .task, .close 0, .work 1, .openGate "g", .work 0, .work 1, .work 1,
      .receive 1, .work 0]
    e.stdio.Ready ∧ Isolated e acts ∧
      (([0, 1].map fun c => (((opening e).run acts).answer? c).map fun x => (x.status, x.stdout)) =
        [some (.cancelled, ""), some (.success, "l")]) ∧
      ((((opening e).run acts).host.result? 0).map fun x => (x.stdout, x.stderr)) =
        some ("ijh", "k") ∧
      ((opening e).run acts).host.stdio.shown .out = [109] := by
  intro e acts
  have hready : e.stdio.Ready := by
    refine ⟨fun c => ⟨.terminal c, ?_, fun n hn => nomatch hn⟩, fun _ _ => rfl⟩
    cases c <;> rfl
  refine ⟨hready, isolated_run hready acts, ?_, ?_, ?_⟩ <;> decide +kernel

end World

end JanetEmbedding
