import JanetEmbedding.Proofs.Effect
import JanetEmbedding.Proofs.Plumbing
import JanetEmbedding.Proofs.Renumbering

/-!
# Captures that come to nothing

A process writes and captures, in any order, and at some point a capture cannot be set up: the system
refuses to open one of its pipes, or to duplicate one of its descriptors. The block does not run then,
and the process goes on as if the capture had never been tried, except that its streams may have been
flushed.

## Conventions

* A **deed** is a write or a capture. What the system refuses to a capture is part of the deed.
* A process is **sound** if both channels have an open descriptor and nothing has been written to pipes
  that are still to come. One that has just been started is, and all deeds keep it so, whatever
  descriptors a capture asks for.

## Main definitions

* `Deed`, `Deed.history`: what a process does, and how its captures end.
* `Stdio.Sound`: what every process satisfies.
* `Capture.Fails`: one of the calls fails with which a capture is set up.

## Main results

* `Stdio.Sound.history`: all deeds keep a process sound.
* `Capture.fails_iff`: captures are refused if and only if one of the calls fails.
* `Capture.unattempted`: a capture that cannot be set up is as good as none.
-/

namespace JanetEmbedding

open Capture (Ending Step Targets Pipes Session Fault)

/-! ### Deeds -/

/-- What a process does: it writes, or it runs a block with a capture, to which the system refuses
something. -/
inductive Deed where
  | write (w : Write)
  | capture (t : Targets) (refusal : Refusal) (block : List Step)

namespace Deed

/-- Does a deed: how the capture ends, if it is one. -/
def act : Deed → Stdio → List Ending × Stdio
  | write w, s => ([], s.apply w)
  | capture t r block, s =>
    let (ending, s) := Capture.around t block (s.refusing r)
    ([ending], s)

/-- A **history**: deeds one after the other, and how the captures end. -/
def history : List Deed → Stdio → List Ending × Stdio
  | [], s => ([], s)
  | deed :: deeds, s =>
    let (endings, s) := deed.act s
    let (more, s) := history deeds s
    (endings ++ more, s)

end Deed

/-! ### Descriptors that stay sound -/

namespace Descriptors

variable {d d' d'' : Descriptors} {x : Nat}

/-- **Sound** descriptors: they refer to the ends of pipes that have been opened, and nothing has been
written to any other pipe. -/
structure Sound (d : Descriptors) : Prop where
  older : ∀ x f, d.file? x = some f → f.Older d.pipes
  unwritten : ∀ f : File, ¬ f.Older d.pipes → d.content f = []

/-- A change that **reuses** files: every descriptor refers to a file that some descriptor referred to,
and nothing is written. -/
structure Reuses (d d' : Descriptors) : Prop where
  file? : ∀ x f, d'.file? x = some f → ∃ y, d.file? y = some f
  pipes : d'.pipes = d.pipes
  content : ∀ f, d'.content f = d.content f

theorem Reuses.refl (d : Descriptors) : d.Reuses d := ⟨fun x _ hx => ⟨x, hx⟩, rfl, fun _ => rfl⟩

theorem Reuses.trans (h : d.Reuses d') (h' : d'.Reuses d'') : d.Reuses d'' := by
  refine ⟨fun x f hx => ?_, h'.pipes.trans h.pipes, fun f => (h'.content f).trans (h.content f)⟩
  obtain ⟨y, hy⟩ := h'.file? x f hx
  exact h.file? y f hy

theorem Reuses.close (d : Descriptors) (fd : Nat) : d.Reuses (d.close fd) := by
  refine ⟨fun x f hx => ⟨x, ?_⟩, rfl, fun f => content_close ..⟩
  rw [file?_close] at hx
  split at hx
  next => cases hx
  next => exact hx

theorem Reuses.redirect (d : Descriptors) (source target : Nat) :
    d.Reuses (d.redirect source target) := by
  refine ⟨fun x f hx => ?_, pipes_redirect .., fun f => content_redirect ..⟩
  cases hsource : d.file? source with
  | none =>
      rw [Descriptors.redirect, hsource] at hx
      exact ⟨x, hx⟩
  | some g =>
      rw [file?_redirect hsource] at hx
      split at hx
      next => exact ⟨source, hsource.trans hx⟩
      next => exact ⟨x, hx⟩

theorem Reuses.duplicate {fd : Int} {copy : Nat} (h : d.duplicate fd = .ok (copy, d')) :
    d.Reuses d' := by
  obtain ⟨f, hf, -, hfile, hpipes, hcontent⟩ := duplicate_eq_ok h
  refine ⟨fun x g hx => ?_, hpipes, hcontent⟩
  rw [hfile] at hx
  split at hx
  next => exact ⟨_, hf.trans hx⟩
  next => exact ⟨x, hx⟩

theorem Sound.reuses (h : d.Sound) (hreuses : d.Reuses d') : d'.Sound := by
  refine ⟨fun x f hx => ?_, fun f hf => ?_⟩
  · obtain ⟨y, hy⟩ := hreuses.file? x f hx
    rw [hreuses.pipes]
    exact h.older y f hy
  · rw [hreuses.pipes] at hf
    rw [hreuses.content, h.unwritten f hf]

theorem Sound.write (h : d.Sound) (fd : Nat) (bytes : List UInt8) : (d.write fd bytes).Sound := by
  refine ⟨fun x f hx => ?_, fun f hf => ?_⟩
  · rw [file?_write] at hx
    rw [pipes_write]
    exact h.older x f hx
  · rw [pipes_write] at hf
    rw [content_write, h.unwritten f hf, if_neg fun hfd => hf (h.older fd f hfd), List.nil_append]

/-- An older file is so for a later pipe. -/
theorem older_succ {f : File} {n : Nat} (h : f.Older n) : f.Older (n + 1) := fun m hm =>
  Nat.lt_succ_of_lt (h m hm)

theorem Sound.openPipe (h : d.Sound) {readFd writeFd : Nat}
    (hopen : d.openPipe = .ok ((readFd, writeFd), d')) : d'.Sound := by
  have hopened := opened_of_openPipe hopen
  refine ⟨fun x f hx => ?_, fun f hf => ?_⟩
  · rw [hopened.file?] at hx
    rw [hopened.pipes]
    split at hx
    next =>
      obtain rfl := Option.some.inj hx
      rintro n ⟨⟩
      exact Nat.lt_succ_self _
    next =>
      split at hx
      next =>
        obtain rfl := Option.some.inj hx
        rintro n ⟨⟩
        exact Nat.lt_succ_self _
      next => exact older_succ (h.older x f hx)
  · rw [hopened.pipes] at hf
    rw [hopened.content]
    exact h.unwritten f fun holder => hf (older_succ holder)

/-- A descriptor that is open stays so when one is redirected, -/
theorem isSome_redirect (h : (d.file? x).isSome) (source target : Nat) :
    ((d.redirect source target).file? x).isSome := by
  cases hsource : d.file? source with
  | none =>
      rw [redirect, hsource]
      exact h
  | some f =>
      rw [file?_redirect hsource]
      split
      · rfl
      · exact h

/-- and when another one is closed. -/
theorem isSome_close (h : (d.file? x).isSome) {fd : Nat} (hne : fd ≠ x) :
    ((d.close fd).file? x).isSome := by
  rw [file?_close, if_neg hne.symm]
  exact h

end Descriptors

namespace Capture

open Descriptors

variable {d : Descriptors} {s : Stdio} {t : Targets} {x : Nat}

theorem reuses_closeAll (d : Descriptors) (fds : List Nat) : d.Reuses (closeAll d fds) := by
  induction fds generalizing d with
  | nil => exact .refl d
  | cons fd fds ih => exact (Reuses.close d fd).trans (ih _)

theorem reuses_restore (d : Descriptors) (saved : List (Nat × Nat)) :
    d.Reuses (restore d saved) := by
  induction saved generalizing d with
  | nil => exact .refl d
  | cons entry saved ih =>
      exact ((Reuses.redirect d entry.2 entry.1).trans (.close _ entry.2)).trans (ih _)

theorem reuses_redirectAll (d : Descriptors) (saved : List (Nat × Nat)) (todo : List (Int × Nat)) :
    d.Reuses (redirectAll d saved todo).2.2 := by
  induction todo generalizing d saved with
  | nil => exact .refl d
  | cons entry todo ih =>
      obtain ⟨target, source⟩ := entry
      rw [redirectAll]
      split
      next => exact .refl d
      next copy e hduplicate =>
        exact ((Reuses.duplicate hduplicate).trans (.redirect e source target.toNat)).trans (ih ..)

theorem isSome_closeAll (h : (d.file? x).isSome) {fds : List Nat} (hx : x ∉ fds) :
    ((closeAll d fds).file? x).isSome := by
  rw [file?_closeAll, if_neg hx]
  exact h

/-- Restoring closes the duplicates only. -/
theorem isSome_restore (h : (d.file? x).isSome) {saved : List (Nat × Nat)}
    (hsaved : ∀ entry ∈ saved, entry.2 ≠ x) : ((restore d saved).file? x).isSome := by
  induction saved generalizing d with
  | nil => exact h
  | cons entry saved ih =>
      have hfirst := isSome_close (isSome_redirect h entry.2 entry.1) (hsaved entry List.mem_cons_self)
      exact ih hfirst fun entry' hentry => hsaved entry' (List.mem_cons_of_mem _ hentry)

/-- Redirecting closes nothing, and the duplicates are new. -/
theorem isSome_redirectAll (h : (d.file? x).isSome) {saved : List (Nat × Nat)}
    (hsaved : ∀ entry ∈ saved, entry.2 ≠ x) (todo : List (Int × Nat)) :
    ((redirectAll d saved todo).2.2.file? x).isSome ∧
      ∀ entry ∈ (redirectAll d saved todo).2.1, entry.2 ≠ x := by
  induction todo generalizing d saved with
  | nil => exact ⟨h, hsaved⟩
  | cons entry todo ih =>
      obtain ⟨target, source⟩ := entry
      rw [redirectAll]
      split
      next => exact ⟨h, hsaved⟩
      next copy e hduplicate =>
        obtain ⟨f, -, hnew, hfile, -⟩ := duplicate_eq_ok hduplicate
        have hcopy : copy ≠ x := by
          rintro rfl
          rw [hnew] at h
          cases h
        refine ih (isSome_redirect ?_ source target.toNat) fun entry hentry => ?_
        · rw [hfile, if_neg hcopy.symm]
          exact h
        · rcases List.mem_append.mp hentry with hentry | hentry
          · exact hsaved entry hentry
          · rw [List.mem_singleton.mp hentry]
            exact hcopy

theorem sound_openPipes (h : d.Sound) : (openPipes d).2.Sound := by
  rw [openPipes]
  split
  next => exact h
  next outRead outWrite e hout =>
    have he := h.openPipe hout
    split
    next => exact he.reuses (reuses_closeAll ..)
    next errRead errWrite e' herr => exact he.openPipe herr

end Capture

namespace Stdio

variable {s : Stdio}

/-- A **sound** process: both channels have an open descriptor. -/
structure Sound (s : Stdio) : Prop where
  descriptors : s.descriptors.Sound
  opened : ∀ c : Channel, (s.descriptors.file? c.descriptor).isSome

theorem sound_default : ({} : Stdio).Sound := by
  refine ⟨⟨fun x f hx => ?_, fun _ _ => rfl⟩, fun c => by cases c <;> rfl⟩
  have hfile : f.pipe? = none := by
    simp only [Descriptors.file?, Descriptors.lookup_cons, List.lookup_nil] at hx
    split at hx
    next => cases hx; rfl
    next =>
      split at hx
      next => cases hx; rfl
      next =>
        split at hx
        next => cases hx; rfl
        next => cases hx
  intro n hn
  rw [hfile] at hn
  cases hn

namespace Sound

theorem refusing (h : s.Sound) (r : Refusal) : (s.refusing r).Sound :=
  ⟨⟨h.descriptors.older, h.descriptors.unwritten⟩, h.opened⟩

theorem apply (h : s.Sound) (w : Write) : (s.apply w).Sound := by
  refine ⟨?_, fun c => by rw [file?_apply]; exact h.opened c⟩
  rw [Stdio.apply]
  split
  · rw [descriptors_setHeld]
    exact h.descriptors
  · exact h.descriptors.write ..

theorem flush (h : s.Sound) (c : Channel) : (s.flush c).Sound := by
  refine ⟨?_, fun c' => by rw [file?_flush]; exact h.opened c'⟩
  rw [Stdio.flush]
  split
  · rw [descriptors_setHeld]
    exact h.descriptors.write ..
  · exact h.descriptors

theorem flushAll (h : s.Sound) : s.flushAll.Sound := (h.flush .out).flush .err

theorem perform (h : s.Sound) (block : List Step) : (Capture.perform block s).2.Sound := by
  induction block generalizing s with
  | nil => exact h
  | cons step block ih =>
      cases step with
      | write w => exact ih (h.apply w)
      | raise message => exact h

/-- A capture that holds its descriptors has neither opened nor duplicated one of those of the
channels. -/
def Spares (c : Session) : Prop :=
  ∀ channel : Channel, channel.descriptor ∉ [c.outRead, c.errRead] ∧
    ∀ entry ∈ c.saved, entry.2 ≠ channel.descriptor

/-- Redirecting the descriptors of a capture. -/
theorem redirect {u : Stdio} (hu : u.Sound) {pipes : Pipes}
    (hends : ∀ c : Channel, c.descriptor ∉ pipes.ends) (t : Targets) :
    (Capture.redirect t pipes u).2.Sound ∧
      ∀ c, (Capture.redirect t pipes u).1 = .ok c → Spares c := by
  have hflushed := hu.flushAll
  rcases hall : Capture.redirectAll u.flushAll.descriptors []
    [(t.out, pipes.outWrite), (t.err, pipes.errWrite)] with ⟨fault, saved, d⟩
  have hreuses := Capture.reuses_redirectAll u.flushAll.descriptors []
    [(t.out, pipes.outWrite), (t.err, pipes.errWrite)]
  have hopen : ∀ c : Channel, (d.file? c.descriptor).isSome ∧
      ∀ entry ∈ saved, entry.2 ≠ c.descriptor := fun c => by
    have hnone : ∀ entry ∈ ([] : List (Nat × Nat)), entry.2 ≠ c.descriptor := nofun
    have hopen := Capture.isSome_redirectAll (hflushed.opened c) hnone
      [(t.out, pipes.outWrite), (t.err, pipes.errWrite)]
    rwa [hall] at hopen
  rw [hall] at hreuses
  simp only [Capture.redirect, hall]
  cases fault with
  | some cause =>
      refine ⟨⟨hflushed.descriptors.reuses ?_, fun c => ?_⟩, fun c hc => by cases hc⟩
      · exact (hreuses.trans (Capture.reuses_restore ..)).trans (Capture.reuses_closeAll ..)
      · obtain ⟨hsome, hsaved⟩ := hopen c
        exact Capture.isSome_closeAll (Capture.isSome_restore hsome hsaved) (hends c)
  | none =>
      refine ⟨⟨hflushed.descriptors.reuses ?_, fun c => ?_⟩, fun session hsession c => ?_⟩
      · exact hreuses.trans (Capture.reuses_closeAll ..)
      · refine Capture.isSome_closeAll (hopen c).1 fun hclosed => hends c ?_
        rcases List.mem_pair.mp hclosed with hend | hend <;> simp [Pipes.ends, hend]
      · obtain rfl := Except.ok.inj hsession
        refine ⟨fun hread => hends c ?_, (hopen c).2⟩
        rcases List.mem_pair.mp hread with hend | hend <;> simp [Pipes.ends, hend]

/-- Setting a capture up. -/
theorem start (h : s.Sound) (t : Targets) :
    (Capture.start t s).2.Sound ∧ ∀ c, (Capture.start t s).1 = .ok c → Spares c := by
  have hd := Capture.sound_openPipes h.descriptors
  rcases hpipes : Capture.openPipes s.descriptors with ⟨fault | pipes, d⟩ <;> rw [hpipes] at hd <;>
    simp only [Capture.start, hpipes]
  · obtain ⟨hfile, -⟩ := Capture.opening_of_error hpipes
    exact ⟨⟨hd, fun c => by rw [hfile]; exact h.opened c⟩, fun c hc => by cases hc⟩
  · obtain ⟨hfresh, -⟩ := Capture.fresh_of_openPipes hpipes
    have hu : ({ s with descriptors := d } : Stdio).Sound := by
      refine ⟨hd, fun c => ?_⟩
      rw [(hfresh.of_open (h.opened c)).2]
      exact h.opened c
    exact hu.redirect (fun c => (hfresh.of_open (h.opened c)).1) t

/-- The end of a capture. -/
theorem finish (h : s.Sound) {c : Session} (hspares : Spares c) :
    (Capture.finish c s).2.Sound := by
  have hflushed := h.flushAll
  refine ⟨hflushed.descriptors.reuses ?_, fun channel => ?_⟩
  · exact (Capture.reuses_restore ..).trans (Capture.reuses_closeAll ..)
  · obtain ⟨hread, hsaved⟩ := hspares channel
    exact Capture.isSome_closeAll (Capture.isSome_restore (hflushed.opened channel) hsaved) hread

/-- **A capture keeps a process sound**, whatever it is asked for and however it ends. -/
theorem around (h : s.Sound) (t : Targets) (block : List Step) :
    (Capture.around t block s).2.Sound := by
  obtain ⟨hsound, hspares⟩ := h.start t
  rcases hstart : Capture.start t s with ⟨fault | c, u⟩ <;> rw [hstart] at hsound hspares <;>
    simp only [Capture.around, hstart]
  · exact hsound
  · exact (hsound.perform block).finish (hspares c rfl)

theorem act (h : s.Sound) (deed : Deed) : (deed.act s).2.Sound := by
  cases deed with
  | write w => exact h.apply w
  | capture t r block => exact (h.refusing r).around t block

/-- **All deeds keep a process sound.** -/
theorem history (h : s.Sound) (deeds : List Deed) : (Deed.history deeds s).2.Sound := by
  induction deeds generalizing s with
  | nil => exact h
  | cons deed deeds ih => exact ih (h.act deed)

end Sound

end Stdio

/-! ### Histories of processes that differ in a shift -/

namespace Stdio.Shifted

variable {base k : Nat} {s s' : Stdio}

theorem refusing (h : Shifted base k s s') (r : Refusal) :
    Shifted base k (s.refusing r) (s'.refusing r) :=
  h.having (h.descriptors.refusing r r)

theorem act (h : Shifted base k s s') (deed : Deed) :
    (deed.act s').1 = (deed.act s).1 ∧ Shifted base k (deed.act s).2 (deed.act s').2 := by
  cases deed with
  | write w => exact ⟨rfl, h.apply w⟩
  | capture t r block =>
      obtain ⟨hending, hs⟩ := (h.refusing r).around rfl t block
      exact ⟨congrArg (fun ending => [ending]) hending, hs⟩

/-- **The captures of a history end in the same way.** -/
theorem history (h : Shifted base k s s') (deeds : List Deed) :
    (Deed.history deeds s').1 = (Deed.history deeds s).1 ∧
      Shifted base k (Deed.history deeds s).2 (Deed.history deeds s').2 := by
  induction deeds generalizing s s' with
  | nil => exact ⟨rfl, h⟩
  | cons deed deeds ih =>
      obtain ⟨hendings, hs⟩ := h.act deed
      obtain ⟨hmore, hs⟩ := ih hs
      exact ⟨by simp only [Deed.history, hendings, hmore], hs⟩

end Stdio.Shifted

/-- A file that is older when it is shifted has been older before. -/
theorem File.older_of_shift {f : File} {base k : Nat} (h : (f.shift base k).Older base) :
    f.Older base := by
  have hlt : ∀ n, shifted base k n < base → n < base := fun n hn => by
    simp only [shifted] at hn
    split at hn <;> omega
  cases f with
  | input | terminal =>
      intro n hn
      cases hn
  | readEnd n | writeEnd n =>
      rintro m ⟨⟩
      exact hlt n (h _ rfl)

/-- What is left of a capture is a shift of the pipes that are to come. -/
theorem Capture.Undone.shifted {s s' : Stdio} (h : Undone s s') (hsound : s.Sound) :
    Stdio.Shifted s.descriptors.pipes (s'.descriptors.pipes - s.descriptors.pipes) s s' := by
  have holder := hsound.descriptors.older
  refine ⟨⟨fun x => ?_, fun f => ?_, ?_, Nat.le_refl _⟩, h.held, h.usable⟩
  · rw [h.file?]
    cases hx : s.descriptors.file? x with
    | none => rfl
    | some f => rw [Option.map_some, File.shift_of_older _ (holder x f hx)]
  · rw [h.content]
    by_cases hf : f.Older s.descriptors.pipes
    · rw [File.shift_of_older _ hf]
    · rw [hsound.descriptors.unwritten f hf, hsound.descriptors.unwritten]
      exact fun hshift => hf (File.older_of_shift hshift)
  · have hle := h.pipes
    omega

/-! ### Calls that fail -/

namespace Capture

variable {t : Targets} {s s' : Stdio} {fault : Fault}

/-- One of the calls **fails** with which a capture is set up: it opens two pipes, and then it duplicates
its two descriptors, of which the first has been redirected when it is the turn of the second. -/
inductive Fails (t : Targets) (s : Stdio) : Fault → Prop
  | outPipe {cause : SystemFault} (h : s.descriptors.openPipe = .error cause) :
      Fails t s (.outPipe cause)
  | errPipe {cause : SystemFault} {ends : Nat × Nat} {d : Descriptors}
      (hfirst : s.descriptors.openPipe = .ok (ends, d)) (h : d.openPipe = .error cause) :
      Fails t s (.errPipe cause)
  | outCopy {cause : SystemFault} {pipes : Pipes} {d : Descriptors}
      (hpipes : openPipes s.descriptors = (.ok pipes, d))
      (h : ({ s with descriptors := d } : Stdio).flushAll.descriptors.duplicate t.out = .error cause) :
      Fails t s (.redirection cause)
  | errCopy {cause : SystemFault} {pipes : Pipes} {d e : Descriptors} {copy : Nat}
      (hpipes : openPipes s.descriptors = (.ok pipes, d))
      (hfirst : ({ s with descriptors := d } : Stdio).flushAll.descriptors.duplicate t.out =
        .ok (copy, e))
      (h : (e.redirect pipes.outWrite t.out.toNat).duplicate t.err = .error cause) :
      Fails t s (.redirection cause)

/-- **A capture is refused if and only if one of its calls fails**, and the fault says which one. -/
theorem fails_iff : Fails t s fault ↔ (start t s).1 = .error fault := by
  constructor
  · intro h
    cases h with
    | outPipe h => simp only [start, openPipes, h]
    | errPipe hfirst h => simp only [start, openPipes, hfirst, h]
    | outCopy hpipes h => simp only [start, hpipes, redirect, redirectAll, h]
    | errCopy hpipes hfirst h => simp only [start, hpipes, redirect, redirectAll, hfirst, h]
  · intro h
    rcases hpipes : openPipes s.descriptors with ⟨f | pipes, d⟩
    · simp only [start, hpipes] at h
      obtain rfl := Except.error.inj h
      rw [openPipes] at hpipes
      split at hpipes
      next cause hout =>
        obtain rfl := Except.error.inj (Prod.mk.inj hpipes).1
        exact .outPipe hout
      next outRead outWrite e hout =>
        split at hpipes
        next cause herr =>
          obtain rfl := Except.error.inj (Prod.mk.inj hpipes).1
          exact .errPipe hout herr
        next => cases hpipes
    · simp only [start, hpipes, redirect, redirectAll] at h
      rcases hfirst : ({ s with descriptors := d } : Stdio).flushAll.descriptors.duplicate t.out
        with cause | ⟨copy, e⟩
      · rw [hfirst] at h
        obtain rfl := Except.error.inj h
        exact .outCopy hpipes hfirst
      · rw [hfirst] at h
        dsimp only at h
        rcases hsecond : (e.redirect pipes.outWrite t.out.toNat).duplicate t.err
          with cause | ⟨copy', e'⟩
        · rw [hsecond] at h
          obtain rfl := Except.error.inj h
          exact .errCopy hpipes hfirst hsecond
        · rw [hsecond] at h
          cases h

/-- What the system still refuses when the pipes are open. -/
theorem refusal_of_openPipes {pipes : Pipes} {d d' : Descriptors} (h : openPipes d = (.ok pipes, d')) :
    d.refusal.pipe ≠ some 1 ∧ d.refusal.pipe ≠ some 2 ∧ d'.refusal.duplicate = d.refusal.duplicate := by
  rw [openPipes] at h
  split at h
  next => cases h
  next outRead outWrite e hout =>
    split at h
    next => cases h
    next errRead errWrite e' herr =>
      obtain ⟨hfirst, he⟩ := Descriptors.refusal_of_openPipe hout
      obtain ⟨hsecond, he'⟩ := Descriptors.refusal_of_openPipe herr
      obtain ⟨-, rfl⟩ := Prod.mk.inj h
      refine ⟨hfirst, fun htwo => hsecond ?_, ?_⟩
      · rw [he, htwo]
        rfl
      · rw [he', he]

/-- Descriptors that have been redirected were not refused. -/
theorem refusal_of_redirect {pipes : Pipes} {c : Session} (h : redirect t pipes s = (.ok c, s')) :
    s.descriptors.refusal.duplicate ≠ some 1 ∧ s.descriptors.refusal.duplicate ≠ some 2 := by
  simp only [redirect, redirectAll] at h
  rcases hfirst : s.flushAll.descriptors.duplicate t.out with cause | ⟨copy, e⟩
  · rw [hfirst] at h
    cases h
  · rw [hfirst] at h
    dsimp only at h
    obtain ⟨hone, he⟩ := Descriptors.refusal_of_duplicate hfirst
    rcases hsecond : (e.redirect pipes.outWrite t.out.toNat).duplicate t.err with cause | ⟨copy', e'⟩
    · rw [hsecond] at h
      cases h
    · obtain ⟨htwo, -⟩ := Descriptors.refusal_of_duplicate hsecond
      rw [Stdio.refusal_flushAll] at hone he
      refine ⟨hone, fun heq => htwo ?_⟩
      rw [Descriptors.refusal_redirect, he, heq]
      rfl

/-- **Every single call can be the one that fails.** -/
theorem exists_fails {r : Refusal} (hr : Refusable r) (t : Targets) (s : Stdio) :
    ∃ fault, Fails t (s.refusing r) fault := by
  rcases hstart : start t (s.refusing r) with ⟨fault | c, s'⟩
  · exact ⟨fault, fails_iff.mpr (by rw [hstart])⟩
  -- No call fails, so that each has found nothing refused, or one less to come.
  rcases hpipes : openPipes (s.refusing r).descriptors with ⟨fault | pipes, d⟩
  · simp only [start, hpipes] at hstart
    cases hstart
  · obtain ⟨hone, htwo, hd⟩ := refusal_of_openPipes hpipes
    simp only [start, hpipes] at hstart
    obtain ⟨hone', htwo'⟩ := refusal_of_redirect hstart
    rw [hd] at hone' htwo'
    rcases hr with (hr | hr) | hr | hr
    · exact absurd hr hone
    · exact absurd hr htwo
    · exact absurd hr hone'
    · exact absurd hr htwo'

/-- A capture that is refused does not run its block. -/
theorem around_of_fails (h : Fails t s fault) (block : List Step) :
    around t block s = (.refused fault, (start t s).2) := by
  have hstart := fails_iff.mp h
  rcases hpair : start t s with ⟨started, u⟩
  rw [hpair] at hstart
  obtain rfl : started = .error fault := hstart
  simp only [around, hpair]

/-- What the system refuses to a capture is no part of what is reached. -/
theorem Undone.of_refusing {r : Refusal} (h : Undone (fault.reached (s.refusing r)) s') :
    Undone (fault.reached s) s' := by
  cases fault with
  | outPipe | errPipe => exact ⟨h.file?, h.content, h.held, h.usable, h.pipes⟩
  | redirection cause =>
      refine ⟨fun x => (h.file? x).trans ?_, fun f => (h.content f).trans ?_,
        fun c => (h.held c).trans ?_, fun c => (h.usable c).trans ?_, ?_⟩
      · simp only [Fault.reached, Stdio.file?_flushAll]
        rfl
      · exact Stdio.content_flushAll_refusing s r f
      · simp only [Fault.reached, Stdio.held_flushAll]
        cases c <;> rfl
      · simp only [Fault.reached, Stdio.usable_flushAll]
        cases c <;> rfl
      · have hpipes := h.pipes
        simp only [Fault.reached, Stdio.pipes_flushAll] at hpipes ⊢
        exact hpipes

/-- What is reached is sound. -/
theorem Fault.sound_reached (h : s.Sound) (fault : Fault) : (fault.reached s).Sound := by
  cases fault with
  | outPipe | errPipe => exact h
  | redirection cause => exact h.flushAll

/-- A capture is **as good as none**: it is refused, whatever its block, and what it leaves behind is
what had been reached. All that is done later ends as it does without the capture, and comes to the
same but for the numbers of the pipes. -/
structure Unattempted (t : Targets) (r : Refusal) (s : Stdio) (fault : Fault) (s' : Stdio) : Prop where
  refused : ∀ block, (Deed.capture t r block).act s = ([.refused fault], s')
  file? : ∀ x, s'.descriptors.file? x = s.descriptors.file? x
  undone : Undone (fault.reached s) s'
  later : ∀ deeds, (Deed.history deeds s').1 = (Deed.history deeds (fault.reached s)).1 ∧
    ∃ base k, Stdio.Shifted base k (Deed.history deeds (fault.reached s)).2 (Deed.history deeds s').2

/-- **A capture that cannot be set up is as good as none.** -/
theorem unattempted (hsound : s.Sound) {r : Refusal} (h : Fails t (s.refusing r) fault) :
    ∃ s', Unattempted t r s fault s' := by
  rcases hstart : start t (s.refusing r) with ⟨started, s'⟩
  obtain rfl : started = .error fault := by
    have hfault := fails_iff.mp h
    rwa [hstart] at hfault
  have hundone := (undone_of_start (hsound.refusing r).opened hstart).of_refusing
  refine ⟨s', fun block => ?_, fun x => ?_, hundone, fun deeds => ?_⟩
  · simp only [Deed.act, around_of_fails h block, hstart]
  · rw [hundone.file?]
    cases fault with
    | outPipe | errPipe => rfl
    | redirection cause => exact Stdio.file?_flushAll ..
  · obtain ⟨hendings, hs⟩ := (hundone.shifted (fault.sound_reached hsound)).history deeds
    exact ⟨hendings, _, _, hs⟩

end Capture

end JanetEmbedding
