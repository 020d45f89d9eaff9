import JanetEmbedding.Proofs.Capturing
import JanetEmbedding.Proofs.Plumbing

/-!
# Captures conserve bytes

A process writes, then runs a block whose output is captured, and then writes on. Every byte has one
place to go: what the block sends to a descriptor that is captured becomes the text of that descriptor,
and all else reaches the file that its descriptor referred to from the beginning. The order is kept for
what is written straight and for what goes through a stream.

## Conventions

* A stream that cannot be flushed while the block runs keeps what it holds back, from before the block
  and from the block alike. When it can be flushed again it is, like the other.
* Both descriptors may refer to one file. What reaches a file is therefore told file by file.

## Main definitions

* `Capture.written`, `Capture.raised?`: what a block writes, and the exception that it ends with.
* `Write.emitted`: what some writes send to a channel in all.
* `Write.straight`, `Write.flushed`: what reaches a file.

## Main results

* `Capture.around_engaged`: a capture of both descriptors, in either order.
* `Capture.conserved_around`: nothing is lost, doubled or misdirected.
-/

namespace JanetEmbedding

open Capture (Captured Session Step Ending)

/-! ### What reaches a file -/

namespace Write

/-- What some writes **emit** to a channel: what goes straight to its descriptor, and then what its
stream holds back, if it can be flushed. -/
def emitted (usable : Bool) (c : Channel) (ws : List Write) : List UInt8 :=
  ws.flatMap (·.direct c) ++ if usable then ws.flatMap (·.held c) else []

/-- What some writes send **straight** to a file. -/
def straight (files : Channel → File) (f : File) (ws : List Write) : List UInt8 :=
  ws.flatMap fun w => if files w.channel = f then w.direct w.channel else []

/-- What reaches a file when both streams are **flushed** of what they hold back. -/
def flushed (files : Channel → File) (f : File) (back : Channel → List UInt8) : List UInt8 :=
  (if files .out = f then back .out else []) ++ if files .err = f then back .err else []

variable {files : Channel → File} {c : Channel}

/-- If the descriptors refer to different files, what goes straight to one of them is what goes straight
to its descriptor. -/
theorem straight_of_injective (hfiles : Function.Injective files) (ws : List Write) :
    straight files (files c) ws = ws.flatMap (·.direct c) := by
  refine List.flatMap_congr fun w _ => ?_
  by_cases hw : w.channel = c
  · rw [if_pos (congrArg files hw), hw]
  · rw [if_neg fun heq => hw (hfiles heq)]
    simp [direct, hw]

theorem flushed_of_injective (hfiles : Function.Injective files) (back : Channel → List UInt8) :
    flushed files (files c) back = back c := by
  cases c with
  | out => simp [flushed, hfiles.eq_iff]
  | err => simp [flushed, hfiles.eq_iff]

end Write

namespace Stdio

variable {s : Stdio} {files : Channel → File} {f : File}

/-- **Writing**, told file by file. -/
theorem content_applyAll_straight (hrefer : s.descriptors.Refer files) (ws : List Write) (f : File) :
    (s.applyAll ws).descriptors.content f =
      s.descriptors.content f ++ Write.straight files f ws := by
  induction ws generalizing s with
  | nil => simp [applyAll, Write.straight]
  | cons w ws ih =>
      have hstep : s.applyAll (w :: ws) = (s.apply w).applyAll ws := rfl
      have hrefer' : (s.apply w).descriptors.Refer files := fun c =>
        (file?_apply ..).trans (hrefer c)
      rw [hstep, ih hrefer', content_apply, hrefer w.channel]
      simp [Write.straight]

/-- **Flushing**, told file by file. -/
theorem content_flushAll_flushed (hrefer : s.descriptors.Refer files) (f : File) :
    s.flushAll.descriptors.content f = s.descriptors.content f ++
      Write.flushed files f fun c => if s.usable c then s.held c else [] := by
  rw [content_flushAll, hrefer .out, hrefer .err, Write.flushed, List.append_assoc]
  cases s.usable .out <;> cases s.usable .err <;> simp

/-- The process when its streams can be flushed, or cannot. -/
def usableAs (s : Stdio) (u : Channel → Bool) : Stdio :=
  { s with usableOut := u .out, usableErr := u .err }

@[simp] theorem usable_usableAs (s : Stdio) (u : Channel → Bool) (c : Channel) :
    (s.usableAs u).usable c = u c := by
  cases c <;> rfl

@[simp] theorem held_usableAs (s : Stdio) (u : Channel → Bool) (c : Channel) :
    (s.usableAs u).held c = s.held c := by
  cases c <;> rfl

@[simp] theorem descriptors_usableAs (s : Stdio) (u : Channel → Bool) :
    (s.usableAs u).descriptors = s.descriptors := rfl

@[simp] theorem refusal_applyAll (s : Stdio) (ws : List Write) :
    (s.applyAll ws).descriptors.refusal = s.descriptors.refusal := by
  induction ws generalizing s with
  | nil => rfl
  | cons w ws ih =>
      refine (ih (s.apply w)).trans ?_
      unfold apply
      split <;> simp

/-- The descriptors of a process that is ready are open. -/
theorem Ready.isSome (hready : s.Ready) (c : Channel) :
    (s.descriptors.file? c.descriptor).isSome := by
  obtain ⟨f, hf, -⟩ := hready.opened c
  rw [hf]
  rfl

/-- A process stays ready when it writes. -/
theorem Ready.applyAll (hready : s.Ready) (ws : List Write) : (s.applyAll ws).Ready := by
  refine ⟨fun c => ?_, fun n hn => ?_⟩
  · obtain ⟨f, hf, holder⟩ := hready.opened c
    exact ⟨f, by rw [file?_applyAll, hf], by rwa [pipes_applyAll]⟩
  · rw [pipes_applyAll] at hn
    rw [content_applyAll_of_ne, hready.unwritten n hn]
    intro c heq
    obtain ⟨f, hf, holder⟩ := hready.opened c
    obtain rfl := Option.some.inj (hf.symm.trans heq)
    exact absurd (holder n rfl) (Nat.not_lt.mpr hn)

end Stdio

namespace Capture

/-! ### Blocks -/

/-- What a block **writes**, up to its exception. -/
def written : List Step → List Write
  | [] => []
  | .write w :: steps => w :: written steps
  | .raise _ :: _ => []

/-- The exception that a block ends with. -/
def raised? : List Step → Option Text
  | [] => none
  | .write _ :: steps => raised? steps
  | .raise message :: _ => some message

/-- A block writes until it raises an exception. -/
theorem perform_eq (block : List Step) (s : Stdio) :
    perform block s = (raised? block, s.applyAll (written block)) := by
  induction block generalizing s with
  | nil => rfl
  | cons step block ih =>
      cases step with
      | write w => exact ih (s.apply w)
      | raise message => rfl

/-! ### The capture of a block -/

variable {s : Stdio} {files : Channel → File} {a b : Channel}

/-- There are two channels only. -/
theorem eq_or_eq_of_ne (hne : a ≠ b) (c : Channel) : c = a ∨ c = b := by
  cases a <;> cases b <;> cases c <;> simp_all

/-- The pipes that the two channels are redirected to, if it is the first one for a channel `a`. -/
def pipeOf (a : Channel) (n : Nat) (c : Channel) : File := .writeEnd (if c = a then n else n + 1)

theorem pipeOf_injective (a : Channel) (n : Nat) : Function.Injective (pipeOf a n) := by
  intro c c' heq
  have hnumber := File.writeEnd.inj heq
  cases a <;> cases c <;> cases c' <;> simp at hnumber ⊢

/-- They are not older than the next pipe. -/
theorem ne_pipeOf {f : File} {n : Nat} (hf : f.Older n) (a c : Channel) : f ≠ pipeOf a n c := by
  rintro rfl
  have hlt := hf _ rfl
  split at hlt <;> omega

namespace Session.Entered

variable {t s' : Stdio} {session : Session} {copyA copyB : Nat}

/-- The descriptors refer to the pipes while the block runs. -/
theorem refer (h : session.Entered a.descriptor b.descriptor copyA copyB s t) (hne : a ≠ b) :
    t.descriptors.Refer (pipeOf a s.descriptors.pipes) := by
  intro c
  rcases eq_or_eq_of_ne hne c with rfl | rfl
  · simpa [pipeOf] using h.engages.writing.1
  · simpa [pipeOf, hne.symm] using h.engages.writing.2

/-- What a stream holds back after some writes: nothing from before, if it can be flushed. -/
theorem held_applyAll (h : session.Entered a.descriptor b.descriptor copyA copyB s t) (ws : List Write)
    (c : Channel) :
    (t.applyAll ws).held c = (if s.usable c then [] else s.held c) ++ ws.flatMap (·.held c) := by
  rw [Stdio.held_applyAll, h.held, Stdio.held_flushAll]

/-- What the pipes have in the end is what has been emitted. -/
theorem content_pipe (h : session.Entered a.descriptor b.descriptor copyA copyB s t) (hready : s.Ready)
    (hne : a ≠ b) (ws : List Write) (c : Channel) :
    (t.applyAll ws).flushAll.descriptors.content (pipeOf a s.descriptors.pipes c) =
      Write.emitted (s.usable c) c ws := by
  choose files hfiles using hready.opened
  have hempty : s.descriptors.content (pipeOf a s.descriptors.pipes c) = [] :=
    hready.unwritten _ (by split <;> omega)
  have hbefore : t.descriptors.content (pipeOf a s.descriptors.pipes c) = [] := by
    rw [h.content, Stdio.content_flushAll_of_ne (fun c => (hfiles c).1), hempty]
    exact fun c' => ne_pipeOf (hfiles c').2 a c
  have hrefer := h.refer hne
  rw [Stdio.content_flushAll_flushed (hrefer.applyAll ws),
    Write.flushed_of_injective (pipeOf_injective ..), Stdio.usable_applyAll, h.usable, h.held_applyAll,
    Stdio.content_applyAll_straight hrefer, hbefore, Write.straight_of_injective (pipeOf_injective ..),
    Write.emitted]
  cases s.usable c <;> simp

/-- Other files have what they had. -/
theorem content_of_ne (h : session.Entered a.descriptor b.descriptor copyA copyB s t) (hne : a ≠ b)
    (ws : List Write) {f : File} (hf : ∀ c, f ≠ pipeOf a s.descriptors.pipes c) :
    (t.applyAll ws).flushAll.descriptors.content f = s.flushAll.descriptors.content f := by
  have hrefer := h.refer hne
  rw [Stdio.content_flushAll_of_ne (hrefer.applyAll ws) fun c => (hf c).symm,
    Stdio.content_applyAll_of_ne, h.content]
  exact fun c heq => hf c (Option.some.inj (heq.symm.trans (hrefer c)))

/-- **The end of a capture of both descriptors**, after some writes: the text of each is what they emit
to it, and for the rest of the process the streams have been flushed. -/
theorem finish (h : session.Entered a.descriptor b.descriptor copyA copyB s t) (hready : s.Ready)
    (hne : a ≠ b) {captured : Captured} (ws : List Write)
    (hfinish : Capture.finish session (t.applyAll ws) = (captured, s')) :
    captured = ⟨Utf8.decodeString (Write.emitted (s.usable a) a ws),
        Utf8.decodeString (Write.emitted (s.usable b) b ws)⟩ ∧
      (∀ x, s'.descriptors.file? x = s.descriptors.file? x) ∧
      s'.descriptors.pipes = t.descriptors.pipes ∧
      (∀ f, (∀ c, f ≠ pipeOf a s.descriptors.pipes c) →
        s'.descriptors.content f = s.flushAll.descriptors.content f) ∧
      (∀ c, s'.held c = if s.usable c then [] else s.held c ++ ws.flatMap (·.held c)) ∧
      ∀ c, s'.usable c = s.usable c := by
  have hengages := h.engages.congr fun x => Stdio.file?_applyAll t ws x
  obtain ⟨rfl, hfile, hpipes, hcontent, hheld, husable⟩ := hengages.finish hfinish
  have husable' : ∀ c, (t.applyAll ws).usable c = s.usable c := fun c => by
    rw [Stdio.usable_applyAll, h.usable]
  refine ⟨?_, hfile, ?_, fun f hf => (hcontent f).trans (h.content_of_ne hne ws hf), fun c => ?_,
    fun c => (husable c).trans (husable' c)⟩
  · have ha := h.content_pipe hready hne ws a
    have hb := h.content_pipe hready hne ws b
    simp only [pipeOf, if_true, if_neg hne.symm] at ha hb
    rw [ha, hb]
  · rw [hpipes, Stdio.pipes_applyAll]
  · rw [hheld, Stdio.held_flushAll, husable', h.held_applyAll]
    cases s.usable c <;> simp

end Session.Entered

/-- **A capture of both descriptors**, in either order, around a block. -/
theorem around_engaged (hready : s.Ready) (hrefusal : ¬ Refusable s.descriptors.refusal) (hne : a ≠ b)
    (block : List Step) :
    ∃ s', around ⟨a.descriptor, b.descriptor⟩ block s =
        (.left ⟨Utf8.decodeString (Write.emitted (s.usable a) a (written block)),
          Utf8.decodeString (Write.emitted (s.usable b) b (written block))⟩ (raised? block), s') ∧
      (∀ x, s'.descriptors.file? x = s.descriptors.file? x) ∧
      (∀ f, f.Older s.descriptors.pipes →
        s'.descriptors.content f = s.flushAll.descriptors.content f) ∧
      (∀ c, s'.held c =
        if s.usable c then [] else s.held c ++ (written block).flatMap (·.held c)) ∧
      ∀ c, s'.usable c = s.usable c := by
  have hne' : a.descriptor ≠ b.descriptor := fun heq => hne (descriptor_injective heq)
  obtain ⟨session, copyA, copyB, t, hstart, hentered⟩ :=
    exists_entered hrefusal hready.isSome hne' (hready.isSome a) (hready.isSome b)
  rcases hfinish : finish session (t.applyAll (written block)) with ⟨captured, s'⟩
  obtain ⟨rfl, hfile, -, hothers, hheld, husable⟩ := hentered.finish hready hne _ hfinish
  refine ⟨s', ?_, hfile, fun f hf => hothers f fun c => ne_pipeOf hf a c, hheld, husable⟩
  simp only [around, hstart, perform_eq, hfinish]

/-! ### Before, within and after -/

/-- What the two streams hold back of some writes. -/
def heldBack (ws : List Write) (c : Channel) : List UInt8 := ws.flatMap (·.held c)

/-- **Captures conserve bytes.** A process writes, runs a block with a capture of both descriptors, in
either order and with no call of it refused, and writes on. The block runs, and the text of each
descriptor is all that the block emits to it, and nothing else. When the block is left, with its
exception if it has raised one, every descriptor refers to what it did; and whatever was written before,
and after, reaches its file once and in order, first what went straight to a descriptor and then what a
stream held back. A stream that cannot be flushed during the block keeps what it has until the end. -/
theorem conserved_around (hready : s.Ready) (hrefusal : ¬ Refusable s.descriptors.refusal)
    (hrefer : s.descriptors.Refer files) (hne : a ≠ b) (u : Channel → Bool) (before : List Write)
    (block : List Step) (after : List Write) :
    ∃ s', around ⟨a.descriptor, b.descriptor⟩ block ((s.applyAll before).usableAs u) =
        (.left ⟨Utf8.decodeString (Write.emitted (u a) a (written block)),
          Utf8.decodeString (Write.emitted (u b) b (written block))⟩ (raised? block), s') ∧
      (∀ x, s'.descriptors.file? x = s.descriptors.file? x) ∧
      ∀ f, f.Older s.descriptors.pipes →
        s'.descriptors.content f = s.descriptors.content f ++ Write.straight files f before ++
          Write.flushed files f (fun c => if u c then s.held c ++ heldBack before c else []) ∧
        ((s'.usableAs fun _ => true).applyAll after).flushAll.descriptors.content f =
          s'.descriptors.content f ++ Write.straight files f after ++
            Write.flushed files f fun c =>
              (if u c then [] else s.held c ++ heldBack before c ++ heldBack (written block) c) ++
                heldBack after c := by
  have hready' : ((s.applyAll before).usableAs u).Ready := by
    obtain ⟨hopened, hunwritten⟩ := hready.applyAll before
    exact ⟨hopened, hunwritten⟩
  have hrefer' : ((s.applyAll before).usableAs u).descriptors.Refer files := fun c =>
    (Stdio.file?_applyAll ..).trans (hrefer c)
  have hrefusal' : ¬ Refusable ((s.applyAll before).usableAs u).descriptors.refusal := by
    rwa [Stdio.descriptors_usableAs, Stdio.refusal_applyAll]
  obtain ⟨s', haround, hfile, hcontent, hheld, -⟩ := around_engaged hready' hrefusal' hne block
  simp only [Stdio.usable_usableAs, Stdio.held_usableAs, Stdio.descriptors_usableAs,
    Stdio.file?_applyAll, Stdio.pipes_applyAll, Stdio.held_applyAll] at haround hfile hcontent hheld
  have hrefer'' : s'.descriptors.Refer files := fun c => (hfile _).trans (hrefer c)
  refine ⟨s', haround, hfile, fun f hf => ⟨?_, ?_⟩⟩
  · rw [hcontent f hf, Stdio.content_flushAll_flushed hrefer', Stdio.descriptors_usableAs,
      Stdio.content_applyAll_straight hrefer]
    simp only [Stdio.usable_usableAs, Stdio.held_usableAs, Stdio.held_applyAll, heldBack]
  · have hrefer₃ : ((s'.usableAs fun _ => true).applyAll after).descriptors.Refer files := fun c =>
      (Stdio.file?_applyAll ..).trans (hrefer'' c)
    have hwrites : (s'.usableAs fun _ => true).descriptors.Refer files := hrefer''
    rw [Stdio.content_flushAll_flushed hrefer₃, Stdio.content_applyAll_straight hwrites]
    simp only [Stdio.usable_applyAll, Stdio.usable_usableAs, Stdio.held_applyAll, Stdio.held_usableAs,
      Stdio.descriptors_usableAs, hheld, heldBack, if_true]

/-- The descriptors are captured the other way round, by a block that raises an exception. It sends one
character in two halves, the second through a stream. -/
theorem conserved_around_of_halves :
    let before : List Write := [⟨.out, true, [98]⟩, ⟨.out, false, [97]⟩]
    let block : List Step := [.write ⟨.out, true, [0xA9]⟩, .write ⟨.err, false, [104]⟩,
      .write ⟨.out, false, [0xC3]⟩, .raise "broken", .write ⟨.err, false, [105]⟩]
    let after : List Write := [⟨.out, true, [100]⟩, ⟨.out, false, [99]⟩]
    (({} : Stdio).Ready ∧ ¬ Refusable ({} : Stdio).descriptors.refusal ∧
      ({} : Stdio).descriptors.Refer .terminal ∧ Channel.err ≠ .out) ∧
    ∃ s', around ⟨2, 1⟩ block ((({} : Stdio).applyAll before).usableAs fun _ => true) =
        (.left ⟨"h", "é"⟩ (some "broken"), s') ∧
      s'.shown .out = [97, 98] ∧
      ((s'.usableAs fun _ => true).applyAll after).flushAll.shown .out = [97, 98, 99, 100] := by
  intro before block after
  have hrefer : ({} : Stdio).descriptors.Refer .terminal := fun c => by cases c <;> rfl
  have hne : Channel.err ≠ .out := by decide
  have hrefusal : ¬ Refusable ({} : Stdio).descriptors.refusal := by decide
  obtain ⟨s', haround, -, hcontent⟩ :=
    conserved_around Stdio.ready_default hrefusal hrefer hne (fun _ => true) before block after
  obtain ⟨hleft, hafter⟩ := hcontent (.terminal .out) fun _ hn => nomatch hn
  have hshown : s'.shown .out = [97, 98] := hleft.trans (by decide +kernel)
  have htexts : Ending.left ⟨Utf8.decodeString (Write.emitted true .err (written block)),
      Utf8.decodeString (Write.emitted true .out (written block))⟩ (raised? block) =
        .left ⟨"h", "é"⟩ (some "broken") := by decide +kernel
  refine ⟨⟨Stdio.ready_default, hrefusal, hrefer, hne⟩, s', haround.trans (by rw [htexts]), hshown, ?_⟩
  rw [Stdio.shown, hafter, ← Stdio.shown, hshown]
  decide +kernel

end Capture

end JanetEmbedding
