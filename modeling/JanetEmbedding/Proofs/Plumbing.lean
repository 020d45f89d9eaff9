import JanetEmbedding.Proofs.Evaluations
import JanetEmbedding.Proofs.Redirection

/-!
# The plumbing of the evaluations

Any number of workers have pipes at the same time, and at most one of them holds the descriptors. This
module gives the invariant that keeps their output apart: every worker that handles a request has two
pipes of its own, nobody else writes to them, and what the descriptors refer to is theirs in turn.

## Conventions

* A file is **older** than a run if it is not an end of a pipe that the run has opened.
* The numbers of the pipes of a worker are a ghost: they are recorded beside the host, not in it.

## Main definitions

* `Stdio.Ready`: what is asked of the process when a run begins.
* `Interpreter.Program.sent`, `Interpreter.Program.captured`: the output of a program.
* `Host.Plumbed`: the invariant.

## Main results

* `Host.Plumbed.does`: the steps of a worker keep the invariant.
* `Host.Plumbed.captured_eq`: what a capture yields is the output of its program.
-/

namespace JanetEmbedding

open Interpreter (Program)
open Capture (Pipes Session Captured Flushed)

/-- A file is **older** than the pipes of some number on if it is no end of one of them. -/
def File.Older (f : File) (base : Nat) : Prop := ∀ n, f.pipe? = some n → n < base

/-- A process is **ready** when both its descriptors are open, and pipes that are still to come have
not been used. -/
structure Stdio.Ready (s : Stdio) : Prop where
  opened : ∀ c : Channel, ∃ f, s.descriptors.file? c.descriptor = some f ∧ f.Older s.descriptors.pipes
  unwritten : ∀ n, s.descriptors.pipes ≤ n → s.descriptors.content (.writeEnd n) = []

/-- A process that has just been started is ready. -/
theorem Stdio.ready_default : ({} : Stdio).Ready := by
  refine ⟨fun c => ⟨.terminal c, ?_, fun n hn => nomatch hn⟩, fun _ _ => rfl⟩
  cases c <;> rfl

/-! ### The output of a program -/

namespace Interpreter.Program

/-- What a program **sends** to the descriptor of a channel, where the last thing is what the stream
of the channel has held back, if it can be flushed. -/
def sent (p : Program) (usable : Bool) (c : Channel) : List UInt8 :=
  (p.writes ++ p.writesAfter).flatMap (·.direct c) ++
    if usable then (p.writes ++ p.writesAfter).flatMap (·.held c) else []

/-- The output of a program as text. -/
def captured (p : Program) (usable : Channel → Bool) : Captured where
  stdout := Utf8.decodeString (p.sent (usable .out) .out)
  stderr := Utf8.decodeString (p.sent (usable .err) .err)

end Interpreter.Program

namespace Stdio

variable {s : Stdio} {files : Channel → File} {f : File}

/-- Nothing reaches a file by flushing that no descriptor refers to. -/
theorem content_flushAll_of_ne (hrefer : s.descriptors.Refer files) (hf : ∀ c, files c ≠ f) :
    s.flushAll.descriptors.content f = s.descriptors.content f := by
  have hne : ∀ c : Channel, s.descriptors.file? c.descriptor ≠ some f := fun c heq =>
    hf c (Option.some.inj ((hrefer c).symm.trans heq))
  rw [content_flushAll, if_neg fun h => hne _ h.2, if_neg fun h => hne _ h.2, List.append_nil,
    List.append_nil]

/-- What is flushed to a file that one descriptor refers to. -/
theorem content_flushAll_of_eq {c : Channel} (hrefer : s.descriptors.Refer files)
    (hfiles : ∀ c', files c' = f ↔ c' = c) :
    s.flushAll.descriptors.content f =
      s.descriptors.content f ++ if s.usable c then s.held c else [] := by
  have hone : ∀ c' : Channel, s.descriptors.file? c'.descriptor = some f ↔ c' = c := by
    intro c'
    rw [hrefer c', Option.some.injEq, hfiles]
  rw [content_flushAll]
  cases c <;> simp [hone]

/-- Two processes with the same streams that agree on a file agree on it when they are flushed. -/
theorem content_flushAll_congr {s' : Stdio} (hrefer : s.descriptors.Refer files)
    (hrefer' : s'.descriptors.Refer files) (husable : ∀ c, s'.usable c = s.usable c)
    (hheld : ∀ c, s'.held c = s.held c)
    (hcontent : s'.descriptors.content f = s.descriptors.content f) :
    s'.flushAll.descriptors.content f = s.flushAll.descriptors.content f := by
  simp only [content_flushAll, hrefer _, hrefer' _, husable, hheld, hcontent]

/-- Flushing does not depend on what the system refuses. -/
theorem content_flushAll_refusing (s : Stdio) (r : Refusal) (f : File) :
    (s.refusing r).flushAll.descriptors.content f = s.flushAll.descriptors.content f := by
  rw [content_flushAll, content_flushAll]
  rfl

/-- A process **grows** when at most some descriptors are opened. -/
structure Grows (s s' : Stdio) : Prop where
  file? : ∀ x f, s.descriptors.file? x = some f → s'.descriptors.file? x = some f
  content : ∀ f, s'.descriptors.content f = s.descriptors.content f
  held : ∀ c, s'.held c = s.held c
  usable : ∀ c, s'.usable c = s.usable c
  pipes : s.descriptors.pipes ≤ s'.descriptors.pipes

theorem Grows.of_eq {s' : Stdio} (h : s' = s) : s.Grows s' := by
  subst h
  exact ⟨fun _ _ hx => hx, fun _ => rfl, fun _ => rfl, fun _ => rfl, Nat.le_refl _⟩

end Stdio

/-! ### What a worker has -/

namespace Phase

variable {s s' : Stdio} {files : Channel → File} {numbers : Channel → Nat} {p : Phase}

/-- What a worker has of its pipes: while it waits nothing has been written to them, and while it
evaluates a program they have what the program has written, except for what the streams hold back. -/
def Equipped (s : Stdio) (files : Channel → File) (numbers : Channel → Nat) : Phase → Prop
  | waiting _ pipes _ =>
      pipes.Laid s.descriptors numbers ∧
        ∀ c, s.descriptors.content (.writeEnd (numbers c)) = []
  | evaluating _ session p =>
      session.Holds s.descriptors numbers files ∧
        (∀ c, s.descriptors.content (.writeEnd (numbers c)) = p.writes.flatMap (·.direct c)) ∧
        ∀ c, s.usable c = true → s.held c = p.writes.flatMap (·.held c)
  | _ => True

/-- A worker that handles nothing needs nothing. -/
theorem equipped_of_idle (hidle : p.request? = none) : p.Equipped s files numbers := by
  cases p with
  | waiting | evaluating => cases hidle
  | created | serving | stopped | failed => trivial

/-- What a worker has stays when others open descriptors. -/
theorem Equipped.grows (h : p.Equipped s files numbers) (hgrows : s.Grows s') :
    p.Equipped s' files numbers := by
  cases p with
  | created | serving | stopped | failed => trivial
  | waiting =>
      obtain ⟨hlaid, hempty⟩ := h
      exact ⟨hlaid.spared fun _ x f _ => hgrows.file? x f,
        fun c => (hgrows.content _).trans (hempty c)⟩
  | evaluating =>
      obtain ⟨hholds, hwritten, hback⟩ := h
      refine ⟨hholds.mono hgrows.file?, fun c => (hgrows.content _).trans (hwritten c), fun c hc => ?_⟩
      rw [hgrows.held]
      exact hback c (hgrows.usable c ▸ hc)

/-- What a worker has that does not evaluate stays when its pipes are spared. -/
theorem Equipped.spared (h : p.Equipped s files numbers) (hwaits : p.isEvaluating = false)
    (hspares : ∀ c, s.descriptors.Spares s'.descriptors (numbers c))
    (hcontent : ∀ c, s'.descriptors.content (.writeEnd (numbers c)) =
      s.descriptors.content (.writeEnd (numbers c))) : p.Equipped s' files numbers := by
  cases p with
  | created | serving | stopped | failed => trivial
  | waiting =>
      obtain ⟨hlaid, hempty⟩ := h
      exact ⟨hlaid.spared hspares, fun c => (hcontent c).trans (hempty c)⟩
  | evaluating => cases hwaits

end Phase

/-! ### The invariant -/

namespace Host

/-- What has **come out** of a process whose output is captured: nothing at all, until the first
capture flushes the streams; and then what they held back when the run began. -/
inductive Shown (s₀ : Stdio) (h : Host) : Prop
  | before (hholder : h.holder = none) (hheld : ∀ c, h.stdio.held c = s₀.held c)
      (hcontent : ∀ f, f.Older s₀.descriptors.pipes →
        h.stdio.descriptors.content f = s₀.descriptors.content f)
  | after (hheld : h.holder = none → ∀ c, h.stdio.usable c = true → h.stdio.held c = [])
      (hcontent : ∀ f, f.Older s₀.descriptors.pipes →
        h.stdio.descriptors.content f = s₀.flushAll.descriptors.content f)

/-- The **invariant**: every worker that handles a request has pipes of its own. The process was `s₀`
when the run began, and its descriptors referred to `files`. -/
structure Plumbed (s₀ : Stdio) (files : Channel → File) (h : Host) (numbers : Nat → Channel → Nat) :
    Prop where
  origin : s₀.descriptors.Refer files
  older : ∀ c, (files c).Older s₀.descriptors.pipes
  usable : ∀ c, h.stdio.usable c = s₀.usable c
  pipes : s₀.descriptors.pipes ≤ h.stdio.descriptors.pipes
  unwritten : ∀ n, h.stdio.descriptors.pipes ≤ n →
    h.stdio.descriptors.content (.writeEnd n) = []
  equipped : ∀ w p, h.phase? w = some p → p.Equipped h.stdio files (numbers w)
  numbered : ∀ w, (h.handled? w).isSome → ∀ c,
    s₀.descriptors.pipes ≤ numbers w c ∧ numbers w c < h.stdio.descriptors.pipes
  inj : ∀ v w c c', (h.handled? v).isSome → (h.handled? w).isSome →
    numbers v c = numbers w c' → v = w ∧ c = c'
  refer : h.holder = none → h.stdio.descriptors.Refer files
  shown : Shown s₀ h

/-- What a worker changes when it takes hold of the descriptors or lets go of them: its own pipes, and
what was held back when the run began comes out. -/
structure Handles (s₀ s s' : Stdio) (mine : Channel → Nat) : Prop where
  usable : ∀ c, s'.usable c = s.usable c
  pipes : s'.descriptors.pipes = s.descriptors.pipes
  spares : ∀ k, s₀.descriptors.pipes ≤ k → (∀ c, mine c ≠ k) → s.descriptors.Spares s'.descriptors k
  others : ∀ n, s₀.descriptors.pipes ≤ n → (∀ c, mine c ≠ n) →
    s'.descriptors.content (.writeEnd n) = s.descriptors.content (.writeEnd n)
  older : ∀ f, f.Older s₀.descriptors.pipes →
    s'.descriptors.content f = s₀.flushAll.descriptors.content f

namespace Plumbed

variable {s₀ stdio : Stdio} {files : Channel → File} {h h' : Host} {numbers : Nat → Channel → Nat}
  {w : Nat} {f : File}

/-- The files of the process are no ends of the pipes of a worker. -/
theorem pipe?_ne (hplumbed : Plumbed s₀ files h numbers) {n : Nat} (hn : s₀.descriptors.pipes ≤ n)
    (c : Channel) : (files c).pipe? ≠ some n := by
  intro heq
  have hlt := hplumbed.older c n heq
  omega

/-- Flushing the streams brings out what they held back when the run began. -/
theorem content_flushAll_older (hplumbed : Plumbed s₀ files h numbers) (hholder : h.holder = none)
    (hf : f.Older s₀.descriptors.pipes) :
    h.stdio.flushAll.descriptors.content f = s₀.flushAll.descriptors.content f := by
  rcases hplumbed.shown with ⟨-, hheld, hcontent⟩ | ⟨hheld, hcontent⟩
  · exact Stdio.content_flushAll_congr hplumbed.origin (hplumbed.refer hholder) hplumbed.usable hheld
      (hcontent f hf)
  · rw [Stdio.content_flushAll_of_empty (hheld hholder), hcontent f hf]

/-- Flushing the streams writes nothing to the pipes of the workers, when nobody holds the
descriptors. -/
theorem content_flushAll_writeEnd (hplumbed : Plumbed s₀ files h numbers) (hholder : h.holder = none)
    {n : Nat} (hn : s₀.descriptors.pipes ≤ n) :
    h.stdio.flushAll.descriptors.content (.writeEnd n) =
      h.stdio.descriptors.content (.writeEnd n) := by
  refine Stdio.content_flushAll_of_ne (hplumbed.refer hholder) fun c heq => ?_
  exact hplumbed.pipe?_ne hn c (congrArg File.pipe? heq)

/-- Taking hold of the descriptors, and letting go of them without an evaluation. -/
theorem handles_of_flushed (hplumbed : Plumbed s₀ files h numbers) (hholder : h.holder = none)
    {refusal : Refusal} {mine : Channel → Nat}
    (hflushed : Flushed (h.stdio.refusing refusal) stdio mine files) :
    Handles s₀ h.stdio stdio mine := by
  refine ⟨hflushed.usable, hflushed.pipes, fun k hk => hflushed.spares k (hplumbed.pipe?_ne hk),
    fun n hn hmine => ?_, fun f hf => ?_⟩
  · rw [hflushed.content, Stdio.content_flushAll_refusing,
      hplumbed.content_flushAll_writeEnd hholder hn]
  · rw [hflushed.content, Stdio.content_flushAll_refusing, hplumbed.content_flushAll_older hholder hf]

end Plumbed

/-- Writing to the pipes of a worker. -/
theorem Handles.applyAll {s₀ s s' : Stdio} {mine : Channel → Nat} (h : Handles s₀ s s' mine)
    (hmine : ∀ c, s₀.descriptors.pipes ≤ mine c)
    (hrefer : s'.descriptors.Refer fun c => .writeEnd (mine c)) (ws : List Write) :
    Handles s₀ s (s'.applyAll ws) mine := by
  have hne : ∀ f, (∀ c, .writeEnd (mine c) ≠ f) →
      (s'.applyAll ws).descriptors.content f = s'.descriptors.content f := by
    intro f hf
    refine Stdio.content_applyAll_of_ne s' ws fun c heq => ?_
    exact hf c (Option.some.inj ((hrefer c).symm.trans heq))
  refine ⟨fun c => (Stdio.usable_applyAll ..).trans (h.usable c),
    (Stdio.pipes_applyAll ..).trans h.pipes, fun k hk hmine => ?_, fun n hn hmine => ?_,
    fun f hf => ?_⟩
  · exact (h.spares k hk hmine).trans (.of_eq fun _ => Stdio.file?_applyAll ..)
  · rw [hne _ fun c heq => hmine c (File.writeEnd.inj heq), h.others n hn hmine]
  · rw [hne, h.older f hf]
    rintro c rfl
    have hlt := hf (mine c) rfl
    have hle := hmine c
    omega

/-- What a capture does beside restoring the descriptors leaves nothing in the streams. -/
theorem held_of_flushed {s s' : Stdio} {mine : Channel → Nat} {files : Channel → File}
    (hflushed : Flushed s s' mine files) (c : Channel) (hc : s'.usable c = true) : s'.held c = [] := by
  rw [hflushed.usable] at hc
  rw [hflushed.held, Stdio.held_flushAll, if_pos hc]

/-- What the system refuses is no part of what a capture does. -/
theorem flushed_refusing {s s' : Stdio} {mine : Channel → Nat} {files : Channel → File}
    (hflushed : Flushed s s' mine files) (r : Refusal) : Flushed s (s'.refusing r) mine files :=
  ⟨hflushed.spares, hflushed.pipes, hflushed.content, hflushed.held, hflushed.usable⟩

namespace Plumbed

variable {s₀ : Stdio} {files : Channel → File} {h h' : Host} {numbers : Nat → Channel → Nat}
  {owners : List Nat} {w : Nat} {worker : Worker}

/-- Nothing changes for the workers if nobody begins to handle a request, and at most some descriptors
are opened. -/
theorem idle (hplumbed : Plumbed s₀ files h numbers) (hgrows : h.stdio.Grows h'.stdio)
    (hholder : h'.holder = h.holder)
    (hphases : ∀ v, h'.phase? v = h.phase? v ∨ ∃ p, h'.phase? v = some p ∧ p.request? = none) :
    Plumbed s₀ files h' numbers := by
  have hheld : ∀ v, (h'.handled? v).isSome → (h.handled? v).isSome := by
    intro v hv
    rw [handled?_eq] at hv ⊢
    rcases hphases v with hsame | ⟨p, hp, hidle⟩
    · rwa [hsame] at hv
    · simp [hp, hidle] at hv
  refine ⟨hplumbed.origin, hplumbed.older, fun c => (hgrows.usable c).trans (hplumbed.usable c),
    Nat.le_trans hplumbed.pipes hgrows.pipes, fun n hn => ?_, fun v p hp => ?_, fun v hv c => ?_,
    fun v v' c c' hv hv' => hplumbed.inj v v' c c' (hheld v hv) (hheld v' hv'), fun hnone c => ?_, ?_⟩
  · rw [hgrows.content]
    exact hplumbed.unwritten n (Nat.le_trans hgrows.pipes hn)
  · rcases hphases v with hsame | ⟨q, hq, hidle⟩
    · exact (hplumbed.equipped v p (hsame.symm.trans hp)).grows hgrows
    · obtain rfl := Option.some.inj (hq.symm.trans hp)
      exact Phase.equipped_of_idle hidle
  · obtain ⟨hle, hlt⟩ := hplumbed.numbered v (hheld v hv) c
    exact ⟨hle, Nat.lt_of_lt_of_le hlt hgrows.pipes⟩
  · exact hgrows.file? _ _ (hplumbed.refer (hholder.symm.trans hnone) c)
  · rcases hplumbed.shown with ⟨hnone, hstreams, hfiles⟩ | ⟨hstreams, hfiles⟩
    · exact .before (hholder.trans hnone) (fun c => (hgrows.held c).trans (hstreams c))
        fun f hf => (hgrows.content f).trans (hfiles f hf)
    · refine .after (fun hnone c hc => ?_) fun f hf => (hgrows.content f).trans (hfiles f hf)
      rw [hgrows.held]
      exact hstreams (hholder.symm.trans hnone) c (hgrows.usable c ▸ hc)

/-- A worker begins to handle a request with pipes that nobody else has. -/
theorem equip {mine : Channel → Nat} {p : Phase} (hplumbed : Plumbed s₀ files h numbers)
    (hstdio : h'.stdio = h.stdio) (hholder : h'.holder = h.holder)
    (hothers : ∀ v, v ≠ w → h'.phase? v = h.phase? v) (hp : h'.phase? w = some p)
    (hequipped : p.Equipped h.stdio files mine)
    (hmine : ∀ c, s₀.descriptors.pipes ≤ mine c ∧ mine c < h.stdio.descriptors.pipes)
    (hne : mine .out ≠ mine .err)
    (hapart : ∀ v c c', (h.handled? v).isSome → numbers v c ≠ mine c') :
    Plumbed s₀ files h' (Function.update numbers w mine) := by
  have hbusy : ∀ v, v ≠ w → (h'.handled? v).isSome → (h.handled? v).isSome := by
    intro v hv
    rw [handled?_eq, handled?_eq, hothers v hv]
    exact id
  refine ⟨hplumbed.origin, hplumbed.older, ?_, ?_, ?_, fun v q hq => ?_, fun v hv c => ?_,
    fun v v' c c' hv hv' heq => ?_, ?_, ?_⟩
  · rw [hstdio]
    exact hplumbed.usable
  · rw [hstdio]
    exact hplumbed.pipes
  · rw [hstdio]
    exact hplumbed.unwritten
  · rw [hstdio]
    by_cases hv : v = w
    · subst hv
      obtain rfl := Option.some.inj (hp.symm.trans hq)
      rw [Function.update_self]
      exact hequipped
    · rw [Function.update_of_ne hv]
      exact hplumbed.equipped v q ((hothers v hv).symm.trans hq)
  · rw [hstdio]
    by_cases hvw : v = w
    · subst hvw
      rw [Function.update_self]
      exact hmine c
    · rw [Function.update_of_ne hvw]
      exact hplumbed.numbered v (hbusy v hvw hv) c
  · by_cases hvw : v = w <;> by_cases hvw' : v' = w
    · subst hvw hvw'
      rw [Function.update_self] at heq
      exact ⟨rfl, by cases c <;> cases c' <;> first | rfl | exact absurd heq hne | exact absurd heq.symm hne⟩
    · subst hvw
      rw [Function.update_self, Function.update_of_ne hvw'] at heq
      exact absurd heq.symm (hapart v' c' c (hbusy v' hvw' hv'))
    · subst hvw'
      rw [Function.update_self, Function.update_of_ne hvw] at heq
      exact absurd heq (hapart v c c' (hbusy v hvw hv))
    · rw [Function.update_of_ne hvw, Function.update_of_ne hvw'] at heq
      exact hplumbed.inj v v' c c' (hbusy v hvw hv) (hbusy v' hvw' hv') heq
  · rw [hstdio, hholder]
    exact hplumbed.refer
  · rcases hplumbed.shown with ⟨hnone, hstreams, hcontent⟩ | ⟨hstreams, hcontent⟩
    · exact .before (hholder.trans hnone) (by rwa [hstdio]) (by rwa [hstdio])
    · exact .after (by rwa [hstdio, hholder]) (by rwa [hstdio])

/-- A worker that handles a request changes the process, while the others do not evaluate. -/
theorem handle {p : Phase} (hplumbed : Plumbed s₀ files h numbers) (hheld : (h.handled? w).isSome)
    (hhandles : Handles s₀ h.stdio h'.stdio (numbers w))
    (hothers : ∀ v, v ≠ w → h'.phase? v = h.phase? v ∧ ∀ q ∈ h.phase? v, q.isEvaluating = false)
    (hp : h'.phase? w = some p) (hequipped : p.Equipped h'.stdio files (numbers w))
    (hfree : h'.holder = none → h'.stdio.descriptors.Refer files ∧
      ∀ c, h'.stdio.usable c = true → h'.stdio.held c = []) :
    Plumbed s₀ files h' numbers := by
  have hbusy : ∀ v, (h'.handled? v).isSome → (h.handled? v).isSome := by
    intro v hv
    by_cases hvw : v = w
    · exact hvw ▸ hheld
    · rwa [handled?_eq, (hothers v hvw).1, ← handled?_eq] at hv
  have hmine := hplumbed.numbered w hheld
  refine ⟨hplumbed.origin, hplumbed.older, fun c => (hhandles.usable c).trans (hplumbed.usable c), ?_,
    fun n hn => ?_, fun v q hq => ?_, fun v hv c => ?_,
    fun v v' c c' hv hv' => hplumbed.inj v v' c c' (hbusy v hv) (hbusy v' hv'),
    fun hnone => (hfree hnone).1, .after (fun hnone => (hfree hnone).2) hhandles.older⟩
  · rw [hhandles.pipes]
    exact hplumbed.pipes
  · rw [hhandles.pipes] at hn
    rw [hhandles.others n (Nat.le_trans hplumbed.pipes hn), hplumbed.unwritten n hn]
    intro c heq
    have hlt := (hmine c).2
    omega
  · by_cases hvw : v = w
    · subst hvw
      obtain rfl := Option.some.inj (hp.symm.trans hq)
      exact hequipped
    · obtain ⟨hsame, hwaits⟩ := hothers v hvw
      rw [hsame] at hq
      by_cases hidle : q.request? = none
      · exact Phase.equipped_of_idle hidle
      · have hv : (h.handled? v).isSome := by
          rw [handled?_eq, hq, Option.bind_some]
          exact Option.isSome_iff_ne_none.mpr hidle
        have hapart : ∀ c c', numbers w c' ≠ numbers v c := fun c c' heq =>
          hvw (hplumbed.inj w v c' c hheld hv heq).1.symm
        have hbase : ∀ c, s₀.descriptors.pipes ≤ numbers v c := fun c =>
          (hplumbed.numbered v hv c).1
        exact (hplumbed.equipped v q hq).spared (hwaits q hq)
          (fun c => hhandles.spares _ (hbase c) (hapart c))
          fun c => hhandles.others _ (hbase c) (hapart c)
  · rw [hhandles.pipes]
    exact hplumbed.numbered v (hbusy v hv) c

/-! ### The steps of a worker -/

/-- The numbers of a worker that handles a request are those of two pipes. -/
theorem numbers_ne (hplumbed : Plumbed s₀ files h numbers) (hheld : (h.handled? w).isSome)
    {c c' : Channel} (hne : c ≠ c') : numbers w c ≠ numbers w c' :=
  fun heq => hne (hplumbed.inj w w c c' hheld hheld heq).2

theorem writeEnd_eq_iff (hplumbed : Plumbed s₀ files h numbers) (hheld : (h.handled? w).isSome)
    (c c' : Channel) : File.writeEnd (numbers w c') = .writeEnd (numbers w c) ↔ c' = c := by
  refine ⟨fun heq => ?_, fun heq => by rw [heq]⟩
  by_contra hne
  exact hplumbed.numbers_ne hheld hne (File.writeEnd.inj heq)

/-- While a worker holds the descriptors, one of them refers to the pipe of a channel. -/
theorem file?_eq_writeEnd_iff (hplumbed : Plumbed s₀ files h numbers) (hheld : (h.handled? w).isSome)
    {d : Descriptors} (hrefer : d.Refer fun c => .writeEnd (numbers w c)) (c c' : Channel) :
    d.file? c'.descriptor = some (.writeEnd (numbers w c)) ↔ c' = c := by
  rw [hrefer c', Option.some.injEq, hplumbed.writeEnd_eq_iff hheld]

/-- Once a program has written all that it writes, and the streams have been flushed, the pipes have
its output. -/
theorem content_flushAll_sent {r : Nat} {session : Session} {p : Program}
    (hplumbed : Plumbed s₀ files h numbers)
    (hphase : h.phase? w = some (.evaluating r session p)) (c : Channel) :
    (h.stdio.applyAll p.writesAfter).flushAll.descriptors.content (.writeEnd (numbers w c)) =
      p.sent (s₀.usable c) c := by
  have hheld : (h.handled? w).isSome := by simp [handled?_eq, hphase, Phase.request?]
  obtain ⟨hholds, hwritten, hback⟩ := hplumbed.equipped w _ hphase
  have hrefer := hholds.refer.applyAll p.writesAfter
  have husable : (h.stdio.applyAll p.writesAfter).usable c = s₀.usable c :=
    (Stdio.usable_applyAll ..).trans (hplumbed.usable c)
  rw [Stdio.content_flushAll_of_eq hrefer (hplumbed.writeEnd_eq_iff hheld c),
    Stdio.content_applyAll _ _ c (hplumbed.file?_eq_writeEnd_iff hheld hholds.refer c),
    Stdio.held_applyAll, hwritten, husable, Program.sent, List.flatMap_append]
  by_cases hc : s₀.usable c = true
  · rw [if_pos hc, if_pos hc, hback c ((hplumbed.usable c).trans hc), List.flatMap_append]
  · rw [if_neg hc, if_neg hc]

/-- **The end of an evaluation**: the descriptors are restored, the streams are empty, and the text
that was captured is the output of the program. -/
theorem finish {r : Nat} {session : Session} {p : Program} {captured : Captured} {stdio : Stdio}
    (hplumbed : Plumbed s₀ files h numbers)
    (hphase : h.phase? w = some (.evaluating r session p)) (hholder : h.holder = some w)
    (hfinish : Capture.finish session (h.stdio.applyAll p.writesAfter) = (captured, stdio)) :
    Handles s₀ h.stdio stdio (numbers w) ∧ stdio.descriptors.Refer files ∧
      (∀ c, stdio.usable c = true → stdio.held c = []) ∧ captured = p.captured s₀.usable := by
  have hheld : (h.handled? w).isSome := by simp [handled?_eq, hphase, Phase.request?]
  have hbase : ∀ c, s₀.descriptors.pipes ≤ numbers w c := fun c => (hplumbed.numbered w hheld c).1
  have hreal : ∀ c c', (files c).pipe? ≠ some (numbers w c') := fun c c' =>
    hplumbed.pipe?_ne (hbase c') c
  obtain ⟨hholds, -, -⟩ := hplumbed.equipped w _ hphase
  let s := h.stdio.applyAll p.writesAfter
  have hholds' : session.Holds s.descriptors (numbers w) files :=
    hholds.mono fun _ _ hx => (Stdio.file?_applyAll ..).trans hx
  obtain ⟨hrefer, hflushed, htext⟩ := Capture.finish_spec hholds' hreal hfinish
  have hothers : ∀ f, (∀ c, .writeEnd (numbers w c) ≠ f) →
      stdio.descriptors.content f = h.stdio.descriptors.content f := by
    intro f hf
    rw [hflushed.content, Stdio.content_flushAll_of_ne hholds'.refer hf]
    refine Stdio.content_applyAll_of_ne _ _ fun c heq => hf c ?_
    exact Option.some.inj ((hholds.refer c).symm.trans heq)
  refine ⟨⟨fun c => ?_, ?_, fun k hk hmine => ?_, fun n _ hmine => ?_, fun f hf => ?_⟩, hrefer,
    held_of_flushed hflushed, ?_⟩
  · exact (hflushed.usable c).trans (Stdio.usable_applyAll ..)
  · exact hflushed.pipes.trans (Stdio.pipes_applyAll ..)
  · have hwrites : h.stdio.descriptors.Spares s.descriptors k :=
      .of_eq fun _ => Stdio.file?_applyAll ..
    exact hwrites.trans (hflushed.spares k (hplumbed.pipe?_ne hk) hmine)
  · exact hothers _ fun c heq => hmine c (File.writeEnd.inj heq)
  · rw [hothers f]
    · rcases hplumbed.shown with ⟨hnone, -, -⟩ | ⟨-, hcontent⟩
      · cases hnone.symm.trans hholder
      · exact hcontent f hf
    · rintro c rfl
      have hlt := hf _ rfl
      have hle := hbase c
      omega
  · have hstdout : captured.stdout = Utf8.decodeString (p.sent (s₀.usable .out) .out) :=
      (htext .out).trans (congrArg Utf8.decodeString (hplumbed.content_flushAll_sent hphase .out))
    have hstderr : captured.stderr = Utf8.decodeString (p.sent (s₀.usable .err) .err) :=
      (htext .err).trans (congrArg Utf8.decodeString (hplumbed.content_flushAll_sent hphase .err))
    obtain ⟨stdout, stderr⟩ := captured
    exact congrArg₂ Captured.mk hstdout hstderr

/-- **Taking hold of the descriptors**: they refer to the pipes, where nothing has been written. -/
theorem redirect {r : Nat} {pipes : Pipes} {refusal : Refusal} {session : Session} {stdio : Stdio}
    (hplumbed : Plumbed s₀ files h numbers) (hphase : h.phase? w = some (.waiting r pipes refusal))
    (hholder : h.holder = none)
    (hredirect : Capture.redirect {} pipes (h.stdio.refusing refusal) = (.ok session, stdio)) :
    Flushed (h.stdio.refusing refusal) stdio (numbers w) files ∧
      session.Holds stdio.descriptors (numbers w) files ∧
      ∀ c, stdio.descriptors.content (.writeEnd (numbers w c)) = [] := by
  have hheld : (h.handled? w).isSome := by simp [handled?_eq, hphase, Phase.request?]
  have hbase : ∀ c, s₀.descriptors.pipes ≤ numbers w c := fun c => (hplumbed.numbered w hheld c).1
  obtain ⟨hlaid, hempty⟩ := hplumbed.equipped w _ hphase
  have hlaid' : pipes.Laid (h.stdio.refusing refusal).descriptors (numbers w) :=
    hlaid.spared fun _ => .of_eq fun _ => rfl
  obtain ⟨hholds, hflushed⟩ := Capture.holds_of_redirect hlaid' (hplumbed.refer hholder)
    (fun c c' => hplumbed.pipe?_ne (hbase c') c) hredirect
  refine ⟨hflushed, hholds, fun c => ?_⟩
  rw [hflushed.content, Stdio.content_flushAll_refusing,
    hplumbed.content_flushAll_writeEnd hholder (hbase c), hempty c]

/-- How a request comes to its result keeps the pipes apart. -/
theorem ends {r : Nat} {path : Option Text} {request : Request} {p : Phase} {x : Result}
    {stdio : Stdio} {calls : List Interpreter.Call} (hplumbed : Plumbed s₀ files h numbers)
    (hkept : Kept owners h) (hphase : h.phase? w = some p) (hr : p.request? = some r)
    (hends : Ends h path request p x stdio calls) :
    Handles s₀ h.stdio stdio (numbers w) ∧ stdio.descriptors.Refer files ∧
      ∀ c, stdio.usable c = true → stdio.held c = [] := by
  have hheld : (h.handled? w).isSome := by simp [handled?_eq, hphase, hr]
  have hreal : ∀ c c', (files c).pipe? ≠ some (numbers w c') := fun c c' =>
    hplumbed.pipe?_ne (hplumbed.numbered w hheld c').1 c
  cases hends with
  | @unredirected v pipes refusal f stdio hholder hredirect =>
      obtain ⟨hlaid, -⟩ := hplumbed.equipped w _ hphase
      have hlaid' : pipes.Laid (h.stdio.refusing refusal).descriptors (numbers w) :=
        hlaid.spared fun _ => .of_eq fun _ => rfl
      obtain ⟨hrefer, hflushed⟩ :=
        Capture.redirecting_of_error hlaid' (hplumbed.refer hholder) hreal hredirect
      have hflushed' := flushed_refusing hflushed {}
      exact ⟨hplumbed.handles_of_flushed hholder hflushed', hrefer, held_of_flushed hflushed'⟩
  | @unencoded v pipes refusal session stdio f hholder hredirect =>
      obtain ⟨hflushed, hholds, -⟩ := hplumbed.redirect hphase hholder hredirect
      have hholds' : session.Holds (stdio.refusing {}).descriptors (numbers w) files :=
        hholds.mono fun _ _ hx => hx
      obtain ⟨hrefer, hsecond, -⟩ := Capture.finish_spec hholds' hreal rfl
      have hboth := (flushed_refusing hflushed {}).trans hsecond
      exact ⟨hplumbed.handles_of_flushed hholder hboth, hrefer, held_of_flushed hboth⟩
  | @concluded v session p captured stdio hfinish =>
      obtain ⟨worker, hworker, hp⟩ := Option.map_eq_some_iff.mp hphase
      have hholder : h.holder = some w := by
        rw [hkept.holder_eq_some_iff hworker, hp]
        rfl
      obtain ⟨hhandles, hrefer, hempty, -⟩ := hplumbed.finish hphase hholder hfinish
      exact ⟨hhandles, hrefer, hempty⟩

/-- What the others are doing while a worker takes hold of the descriptors or lets go of them: they do
not evaluate. -/
theorem others_of_does (hkept : Kept owners h) (hworker : h.workers[w]? = some worker)
    (hdoes : Does h w worker h') (hheld : worker.phase.isEvaluating = true ∨ h.holder = none) (v : Nat)
    (hne : v ≠ w) : h'.phase? v = h.phase? v ∧ ∀ q ∈ h.phase? v, q.isEvaluating = false := by
  obtain ⟨f, hworkers⟩ := hdoes.workers_eq
  refine ⟨phase?_modify_of_ne hne hworkers, fun q hq => ?_⟩
  obtain ⟨other, hother, rfl⟩ := Option.map_eq_some_iff.mp hq
  rw [← Bool.not_eq_true, ← hkept.holder_eq_some_iff hother]
  rcases hheld with hevaluating | hnone
  · rw [(hkept.holder_eq_some_iff hworker).mpr hevaluating]
    exact fun heq => hne (Option.some.inj heq).symm
  · simp [hnone]

/-- Opening the pipes of a request. -/
theorem pickUp {pipes : Pipes} {d : Descriptors} {r : Nat} {refusal : Refusal}
    (hplumbed : Plumbed s₀ files h numbers)
    (hpipes : Capture.openPipes (h.stdio.refusing h.refusal).descriptors = (.ok pipes, d))
    (hstdio : h'.stdio = h.stdio.having d) (hholder : h'.holder = h.holder)
    (hothers : ∀ v, v ≠ w → h'.phase? v = h.phase? v)
    (hp : h'.phase? w = some (.waiting r pipes refusal)) :
    Plumbed s₀ files h'
      (Function.update numbers w (Capture.nextNumbers h.stdio.descriptors)) := by
  obtain ⟨hlaid, hcount, hkeep, hcontent⟩ := Capture.laid_of_openPipes hpipes
  let mid : Host := { h with stdio := h.stdio.having d }
  have hcount' : mid.stdio.descriptors.pipes = h.stdio.descriptors.pipes + 2 := hcount
  have hmid : Plumbed s₀ files mid numbers := by
    refine hplumbed.idle ⟨hkeep, hcontent, fun _ => rfl, fun _ => rfl, ?_⟩ rfl fun _ => .inl rfl
    rw [hcount']
    omega
  have hnext : ∀ c, h.stdio.descriptors.pipes ≤ Capture.nextNumbers h.stdio.descriptors c ∧
      Capture.nextNumbers h.stdio.descriptors c < mid.stdio.descriptors.pipes := by
    intro c
    rw [hcount']
    cases c <;> simp only [Capture.nextNumbers] <;> omega
  have hlaid' : pipes.Laid mid.stdio.descriptors (Capture.nextNumbers h.stdio.descriptors) :=
    hlaid.spared fun _ => .of_eq fun _ => rfl
  have hempty : ∀ c, mid.stdio.descriptors.content
      (.writeEnd (Capture.nextNumbers h.stdio.descriptors c)) = [] := fun c =>
    (hcontent _).trans (hplumbed.unwritten _ (hnext c).1)
  refine hmid.equip hstdio hholder hothers hp ⟨hlaid', hempty⟩ (fun c => ?_) ?_ fun v c c' hv heq => ?_
  · exact ⟨Nat.le_trans hplumbed.pipes (hnext c).1, (hnext c).2⟩
  · simp only [Capture.nextNumbers]
    omega
  · have hlt := (hplumbed.numbered v hv c).2
    have hle := (hnext c').1
    omega

/-- Beginning an evaluation. -/
theorem evaluate {r : Nat} {pipes : Pipes} {refusal : Refusal} {session : Session} {stdio : Stdio}
    {p : Program} (hplumbed : Plumbed s₀ files h numbers)
    (hphase : h.phase? w = some (.waiting r pipes refusal)) (hholder : h.holder = none)
    (hredirect : Capture.redirect {} pipes (h.stdio.refusing refusal) = (.ok session, stdio))
    (hstdio : h'.stdio = (stdio.refusing {}).applyAll p.writes) (hholder' : h'.holder = some w)
    (hothers : ∀ v, v ≠ w → h'.phase? v = h.phase? v ∧ ∀ q ∈ h.phase? v, q.isEvaluating = false)
    (hp : h'.phase? w = some (.evaluating r session p)) : Plumbed s₀ files h' numbers := by
  have hheld : (h.handled? w).isSome := by simp [handled?_eq, hphase, Phase.request?]
  have hbase : ∀ c, s₀.descriptors.pipes ≤ numbers w c := fun c => (hplumbed.numbered w hheld c).1
  obtain ⟨hflushed, hholds, hempty⟩ := hplumbed.redirect hphase hholder hredirect
  have hflushed' := flushed_refusing hflushed {}
  have hholds' : session.Holds (stdio.refusing {}).descriptors (numbers w) files :=
    hholds.mono fun _ _ hx => hx
  have hhandles : Handles s₀ h.stdio ((stdio.refusing {}).applyAll p.writes) (numbers w) :=
    (hplumbed.handles_of_flushed hholder hflushed').applyAll hbase hholds'.refer p.writes
  have hequipped : (Phase.evaluating r session p).Equipped ((stdio.refusing {}).applyAll p.writes)
      files (numbers w) := by
    refine ⟨hholds'.mono fun _ _ hx => (Stdio.file?_applyAll ..).trans hx, fun c => ?_, fun c hc => ?_⟩
    · have hnothing : (stdio.refusing {}).descriptors.content (.writeEnd (numbers w c)) = [] :=
        hempty c
      rw [Stdio.content_applyAll _ _ c (hplumbed.file?_eq_writeEnd_iff hheld hholds'.refer c),
        hnothing, List.nil_append]
    · rw [Stdio.usable_applyAll] at hc
      rw [Stdio.held_applyAll, held_of_flushed hflushed' c hc, List.nil_append]
  refine hplumbed.handle hheld ?_ hothers hp ?_ ?_
  · rwa [hstdio]
  · rwa [hstdio]
  · rw [hholder']
    intro hnone
    cases hnone

/-- **The steps of a worker keep the pipes apart.** -/
theorem does (hplumbed : Plumbed s₀ files h numbers) (hkept : Kept owners h)
    (hworker : h.workers[w]? = some worker) (hdoes : Does h w worker h') :
    ∃ numbers', Plumbed s₀ files h' numbers' := by
  have hphase : h.phase? w = some worker.phase := by simp [phase?, hworker]
  have hothers := others_of_does hkept hworker hdoes
  have hidle : ∀ p, h'.phase? w = some p → p.request? = none →
      ∀ v, h'.phase? v = h.phase? v ∨ ∃ p, h'.phase? v = some p ∧ p.request? = none := by
    intro p hp hnone v
    by_cases hne : v = w
    · subst hne
      exact .inr ⟨p, hp, hnone⟩
    · obtain ⟨f, hworkers⟩ := hdoes.workers_eq
      exact .inl (phase?_modify_of_ne hne hworkers)
  cases hdoes with
  | leave log hserving hqueue =>
      exact ⟨numbers, hplumbed.idle (.of_eq rfl) rfl
        (hidle .stopped (by simp [phase?, hworker]) rfl)⟩
  | pass log hserving hqueue hprogress =>
      exact ⟨numbers, hplumbed.idle (.of_eq rfl) rfl
        (hidle .serving (by simp [phase?, hworker, hserving]) rfl)⟩
  | @refuse r rest f d log hserving hqueue hprogress hpipes =>
      obtain ⟨hfile, hle, hcontent⟩ := Capture.opening_of_error hpipes
      exact ⟨numbers, hplumbed.idle
        ⟨fun x f hx => (hfile x).trans hx, hcontent, fun _ => rfl, fun _ => rfl, hle⟩ rfl
        (hidle .serving (by simp [phase?, hworker]) rfl)⟩
  | @pickUp r rest pipes d hserving hqueue hprogress hpipes =>
      refine ⟨_, hplumbed.pickUp hpipes rfl rfl (fun v hne => phase?_modify_of_ne hne rfl)
        (?_ : _ = some (Phase.waiting r pipes d.refusal))⟩
      simp [phase?, hworker]
  | @evaluate r pipes refusal request session stdio source path p hwaits hrequest hholder hredirect =>
      exact ⟨numbers, hplumbed.evaluate (hphase.trans (congrArg some hwaits)) hholder hredirect rfl rfl
        (hothers (.inr hholder)) (by simp [phase?, hworker])⟩
  | @finish r request x stdio calls log hr hrequest hends =>
      have hheld : (h.handled? w).isSome := by simp [handled?_eq, hphase, hr]
      obtain ⟨hhandles, hrefer, hempty⟩ := hplumbed.ends hkept hphase hr hends
      exact ⟨numbers, hplumbed.handle hheld hhandles (hothers hends.isEvaluating_or_free)
        (by simp [phase?, hworker]) (p := .serving) trivial fun _ => ⟨hrefer, hempty⟩⟩

end Plumbed

end Host

/-- A run begins with no pipes of any worker. -/
theorem World.plumbed_opening {e : Circumstances} {files : Channel → File}
    (hrefer : e.stdio.descriptors.Refer files) (holder : ∀ c, (files c).Older e.stdio.descriptors.pipes)
    (hunwritten : ∀ n, e.stdio.descriptors.pipes ≤ n → e.stdio.descriptors.content (.writeEnd n) = []) :
    (opening e).host.Plumbed e.stdio files fun _ _ => 0 := by
  refine ⟨hrefer, holder, fun _ => rfl, Nat.le_refl _, hunwritten, ?_, ?_, ?_, fun _ => hrefer,
    .before rfl (fun _ => rfl) fun _ _ => rfl⟩ <;>
    simp [opening, Host.phase?, Host.handled?]

end JanetEmbedding
