import JanetEmbedding.Proofs.Capturing

/-!
# Processes that differ in the numbers of their pipes

Pipes are numbered in the order in which they are opened, and a pipe that was opened and closed again
leaves a gap. Nothing that a process does depends on these numbers: two processes whose descriptors
refer to the same files, but for a **shift** of the pipes from some number on, do the same and go on
to differ in the shift only.

## Conventions

* Two processes are compared by what their descriptors refer to, by what has been written to each
  file, and by what the streams hold back. In what order the descriptors were opened does not count.
* What the system refuses is kept apart from the rest, since it is set anew for each capture.

## Main definitions

* `File.shift`: a file when the pipes from some number on are shifted.
* `Descriptors.Shifted`, `Stdio.Shifted`: descriptors, and processes, that differ in a shift.

## Main results

* `Stdio.Shifted.around`: a capture ends in the same way, and what is left differs in the shift.
-/

namespace JanetEmbedding

/-! ### Shifting pipes -/

/-- The number of a pipe when those from `base` on are shifted by `k`. -/
def shifted (base k n : Nat) : Nat := if n < base then n else n + k

theorem shifted_injective (base k : Nat) : Function.Injective (shifted base k) := by
  intro m n h
  simp only [shifted] at h
  split at h <;> split at h <;> omega

/-- A file when the pipes from `base` on are shifted by `k`. -/
def File.shift (base k : Nat) : File → File
  | readEnd n => readEnd (shifted base k n)
  | writeEnd n => writeEnd (shifted base k n)
  | f => f

theorem File.shift_injective (base k : Nat) : Function.Injective (File.shift base k) := by
  intro f g h
  cases f <;> cases g <;> simp_all [File.shift, (shifted_injective base k).eq_iff]

/-- Files that are no ends of the pipes from `base` on stay as they are. -/
theorem File.shift_of_older {f : File} {base : Nat} (k : Nat)
    (h : ∀ n, f.pipe? = some n → n < base) : f.shift base k = f := by
  cases f with
  | input | terminal => rfl
  | readEnd n | writeEnd n => simp [File.shift, shifted, h n rfl]

namespace Descriptors

/-- The search for a free number passes over open descriptors only. -/
theorem isSome_of_lt_freeFrom (table : List (Nat × File)) (fuel : Nat) {n x : Nat} (hx : n ≤ x)
    (hlt : x < freeFrom table fuel n) : (table.lookup x).isSome := by
  induction fuel generalizing n with
  | zero =>
      simp only [freeFrom] at hlt
      omega
  | succ fuel ih =>
      by_cases hopen : (table.lookup n).isSome
      · rw [freeFrom, if_pos hopen] at hlt
        rcases Nat.eq_or_lt_of_le hx with rfl | hgt
        · exact hopen
        · exact ih hgt hlt
      · rw [freeFrom, if_neg hopen] at hlt
        omega

/-- **A new descriptor has the least number that is not in use.** -/
theorem free_eq_of_file? {d : Descriptors} {n : Nat} (hclosed : d.file? n = none)
    (hopen : ∀ x < n, (d.file? x).isSome) : d.free = n := by
  rcases Nat.lt_trichotomy d.free n with hlt | heq | hgt
  · have hfree := hopen _ hlt
    rw [file?_free] at hfree
    cases hfree
  · exact heq
  · have hsome : (d.file? n).isSome := isSome_of_lt_freeFrom _ _ (Nat.zero_le _) hgt
    rw [hclosed] at hsome
    cases hsome

/-- Descriptors that **differ in a shift** of the pipes from `base` on. -/
structure Shifted (base k : Nat) (d d' : Descriptors) : Prop where
  file? : ∀ x, d'.file? x = (d.file? x).map (File.shift base k)
  content : ∀ f, d'.content (f.shift base k) = d.content f
  pipes : d'.pipes = d.pipes + k
  base : base ≤ d.pipes

namespace Shifted

variable {base k : Nat} {d d' : Descriptors}

/-- A number is free for both. -/
theorem free (h : Shifted base k d d') : d'.free = d.free := by
  refine free_eq_of_file? ?_ fun x hx => ?_
  · rw [h.file?, file?_free]
    rfl
  · rw [h.file?, Option.isSome_map]
    exact isSome_of_lt_freeFrom _ _ (Nat.zero_le x) hx

theorem assign (h : Shifted base k d d') (fd : Nat) (f : File) :
    Shifted base k (d.assign fd f) (d'.assign fd (f.shift base k)) := by
  refine ⟨fun x => ?_, h.content, h.pipes, h.base⟩
  rw [file?_assign, file?_assign, h.file?]
  split <;> rfl

theorem close (h : Shifted base k d d') (fd : Nat) : Shifted base k (d.close fd) (d'.close fd) := by
  refine ⟨fun x => ?_, h.content, h.pipes, h.base⟩
  rw [file?_close, file?_close, h.file?]
  split <;> rfl

theorem redirect (h : Shifted base k d d') (source target : Nat) :
    Shifted base k (d.redirect source target) (d'.redirect source target) := by
  have hsource := h.file? source
  rw [Descriptors.redirect, Descriptors.redirect, hsource]
  cases d.file? source with
  | none => exact h
  | some f => exact h.assign target f

theorem write (h : Shifted base k d d') (fd : Nat) (bytes : List UInt8) :
    Shifted base k (d.write fd bytes) (d'.write fd bytes) := by
  refine ⟨fun x => ?_, fun f => ?_, ?_, ?_⟩
  · rw [file?_write, file?_write, h.file?]
  · rw [content_write, content_write, h.content, h.file?]
    cases hfile : d.file? fd with
    | none => rfl
    | some g => simp [(File.shift_injective base k).eq_iff]
  · rw [pipes_write, pipes_write, h.pipes]
  · rw [pipes_write]
    exact h.base

theorem readAll (h : Shifted base k d d') (fd : Nat) : d'.readAll fd = d.readAll fd := by
  rw [Descriptors.readAll, Descriptors.readAll, h.file?]
  cases d.file? fd with
  | none => rfl
  | some f =>
      cases f with
      | readEnd n => exact h.content (.writeEnd n)
      | input | terminal | writeEnd => rfl

/-- What the system refuses is no part of the comparison. -/
theorem refusing (h : Shifted base k d d') (r r' : Refusal) :
    Shifted base k { d with refusal := r } { d' with refusal := r' } :=
  ⟨h.file?, h.content, h.pipes, h.base⟩

end Shifted

/-- Two calls of the system **end alike**: both are refused for one cause, or both give the same, and
what is left differs in the shift. -/
inductive Agree {α : Type} (base k : Nat) :
    Except SystemFault (α × Descriptors) → Except SystemFault (α × Descriptors) → Prop
  | refused (cause : SystemFault) : Agree base k (.error cause) (.error cause)
  | given (a : α) {d d' : Descriptors} (h : Shifted base k d d') (hrefusal : d'.refusal = d.refusal) :
      Agree base k (.ok (a, d)) (.ok (a, d'))

namespace Shifted

variable {base k : Nat} {d d' : Descriptors}

/-- **Opening a pipe**: its number is shifted, since it is one from `base` on. -/
theorem openPipe (h : Shifted base k d d') (hrefusal : d'.refusal = d.refusal) :
    Agree base k d.openPipe d'.openPipe := by
  rcases hcount : countDown d.refusal.pipe with ⟨refused, next⟩
  cases refused with
  | true =>
      simp only [Descriptors.openPipe, hrefusal, hcount, if_true]
      exact .refused _
  | false =>
      let e : Descriptors :=
        { d with pipes := d.pipes + 1, refusal := { d.refusal with pipe := next } }
      let e' : Descriptors :=
        { d' with pipes := d'.pipes + 1, refusal := { d.refusal with pipe := next } }
      have hnumber : shifted base k d.pipes = d'.pipes := by
        rw [h.pipes, shifted, if_neg (Nat.not_lt.mpr h.base)]
      have he : Shifted base k e e' := by
        refine ⟨h.file?, h.content, ?_, Nat.le_succ_of_le h.base⟩
        show d'.pipes + 1 = d.pipes + 1 + k
        rw [h.pipes]
        omega
      have hread := he.assign e.free (.readEnd d.pipes)
      have hwrite := hread.assign (e.assign e.free (.readEnd d.pipes)).free (.writeEnd d.pipes)
      simp only [File.shift, hnumber] at hread hwrite
      simp only [Descriptors.openPipe, hrefusal, hcount, Bool.false_eq_true, if_false,
        Nat.add_sub_cancel]
      show Agree base k
        (.ok ((e.free, (e.assign e.free (.readEnd d.pipes)).free),
          (e.assign e.free (.readEnd d.pipes)).assign _ (.writeEnd d.pipes)))
        (.ok ((e'.free, (e'.assign e'.free (.readEnd d'.pipes)).free),
          (e'.assign e'.free (.readEnd d'.pipes)).assign _ (.writeEnd d'.pipes)))
      rw [he.free, hread.free]
      exact .given _ hwrite rfl

/-- **Duplicating a descriptor.** -/
theorem duplicate (h : Shifted base k d d') (hrefusal : d'.refusal = d.refusal) (fd : Int) :
    Agree base k (d.duplicate fd) (d'.duplicate fd) := by
  rcases hcount : countDown d.refusal.duplicate with ⟨refused, next⟩
  cases refused with
  | true =>
      simp only [Descriptors.duplicate, hrefusal, hcount, if_true]
      exact .refused _
  | false =>
      simp only [Descriptors.duplicate, hrefusal, hcount, Bool.false_eq_true, if_false]
      have hfile : (if fd < 0 then none else d'.file? fd.toNat) =
          (if fd < 0 then none else d.file? fd.toNat).map (File.shift base k) := by
        rw [h.file?]
        split <;> rfl
      rw [hfile]
      cases (if fd < 0 then none else d.file? fd.toNat) with
      | none => exact .refused _
      | some f =>
          let e : Descriptors := { d with refusal := { d.refusal with duplicate := next } }
          let e' : Descriptors := { d' with refusal := { d.refusal with duplicate := next } }
          have he : Shifted base k e e' := h.refusing ..
          show Agree base k (.ok (e.free, e.assign e.free f))
            (.ok (e'.free, e'.assign e'.free (f.shift base k)))
          rw [he.free]
          exact .given _ (he.assign _ f) rfl

end Shifted

end Descriptors

/-! ### Captures -/

namespace Capture

open Descriptors

variable {base k : Nat} {d d' : Descriptors}

theorem shifted_closeAll (h : Shifted base k d d') (fds : List Nat) :
    Shifted base k (closeAll d fds) (closeAll d' fds) := by
  induction fds generalizing d d' with
  | nil => exact h
  | cons fd fds ih => exact ih (h.close fd)

theorem shifted_restore (h : Shifted base k d d') (saved : List (Nat × Nat)) :
    Shifted base k (restore d saved) (restore d' saved) := by
  induction saved generalizing d d' with
  | nil => exact h
  | cons entry saved ih => exact ih ((h.redirect entry.2 entry.1).close entry.2)

/-- Opening the pipes of a capture. -/
theorem shifted_openPipes (h : Shifted base k d d') (hrefusal : d'.refusal = d.refusal) :
    (openPipes d').1 = (openPipes d).1 ∧ Shifted base k (openPipes d).2 (openPipes d').2 ∧
      (openPipes d').2.refusal = (openPipes d).2.refusal := by
  have hfirst := h.openPipe hrefusal
  rw [openPipes, openPipes]
  generalize d.openPipe = first at hfirst ⊢
  generalize d'.openPipe = first' at hfirst ⊢
  cases hfirst with
  | refused cause => exact ⟨rfl, h, hrefusal⟩
  | @given ends e e' he hrefusal' =>
      have hsecond := he.openPipe hrefusal'
      obtain ⟨outRead, outWrite⟩ := ends
      dsimp only
      generalize e.openPipe = second at hsecond ⊢
      generalize e'.openPipe = second' at hsecond ⊢
      cases hsecond with
      | refused cause => exact ⟨rfl, shifted_closeAll he _, hrefusal'⟩
      | given ends he' hrefusal'' => exact ⟨rfl, he', hrefusal''⟩

/-- Redirecting descriptors, one after the other. -/
theorem shifted_redirectAll (h : Shifted base k d d') (hrefusal : d'.refusal = d.refusal)
    (saved : List (Nat × Nat)) (todo : List (Int × Nat)) :
    (redirectAll d' saved todo).1 = (redirectAll d saved todo).1 ∧
      (redirectAll d' saved todo).2.1 = (redirectAll d saved todo).2.1 ∧
      Shifted base k (redirectAll d saved todo).2.2 (redirectAll d' saved todo).2.2 := by
  induction todo generalizing d d' saved with
  | nil => exact ⟨rfl, rfl, h⟩
  | cons entry todo ih =>
      obtain ⟨target, source⟩ := entry
      have hduplicate := h.duplicate hrefusal target
      rw [redirectAll, redirectAll]
      generalize d.duplicate target = copied at hduplicate ⊢
      generalize d'.duplicate target = copied' at hduplicate ⊢
      cases hduplicate with
      | refused cause => exact ⟨rfl, rfl, h⟩
      | given copy he hrefusal' => exact ih (he.redirect source target.toNat) (by simp [hrefusal']) _

end Capture

namespace Stdio

/-- Processes that **differ in a shift** of the pipes from `base` on. -/
structure Shifted (base k : Nat) (s s' : Stdio) : Prop where
  descriptors : s.descriptors.Shifted base k s'.descriptors
  held : ∀ c, s'.held c = s.held c
  usable : ∀ c, s'.usable c = s.usable c

namespace Shifted

variable {base k : Nat} {s s' : Stdio}

/-- The descriptors change. -/
theorem having (h : Shifted base k s s') {d d' : Descriptors} (hd : d.Shifted base k d') :
    Shifted base k { s with descriptors := d } { s' with descriptors := d' } :=
  ⟨hd, fun c => by simp [h.held], fun c => by simp [h.usable]⟩

theorem setHeld (h : Shifted base k s s') (c : Channel) (bytes : List UInt8) :
    Shifted base k (s.setHeld c bytes) (s'.setHeld c bytes) := by
  refine ⟨?_, fun c' => ?_, fun c' => ?_⟩
  · rw [descriptors_setHeld, descriptors_setHeld]
    exact h.descriptors
  · rw [held_setHeld, held_setHeld, h.held]
  · rw [usable_setHeld, usable_setHeld, h.usable]

theorem apply (h : Shifted base k s s') (w : Write) : Shifted base k (s.apply w) (s'.apply w) := by
  rw [Stdio.apply, Stdio.apply]
  split
  · rw [h.held]
    exact h.setHeld ..
  · exact h.having (h.descriptors.write ..)

theorem flush (h : Shifted base k s s') (c : Channel) : Shifted base k (s.flush c) (s'.flush c) := by
  rw [Stdio.flush, Stdio.flush, h.held, h.usable]
  split
  · exact (h.having (h.descriptors.write ..)).setHeld ..
  · exact h

theorem flushAll (h : Shifted base k s s') : Shifted base k s.flushAll s'.flushAll :=
  (h.flush .out).flush .err

/-- A block does the same. -/
theorem perform (h : Shifted base k s s') (block : List Capture.Step) :
    (Capture.perform block s').1 = (Capture.perform block s).1 ∧
      Shifted base k (Capture.perform block s).2 (Capture.perform block s').2 := by
  induction block generalizing s s' with
  | nil => exact ⟨rfl, h⟩
  | cons step block ih =>
      cases step with
      | write w => exact ih (h.apply w)
      | raise message => exact ⟨rfl, h⟩

/-- Redirecting the descriptors of a capture. -/
theorem redirect (h : Shifted base k s s') (hrefusal : s'.descriptors.refusal = s.descriptors.refusal)
    (t : Capture.Targets) (p : Capture.Pipes) :
    (Capture.redirect t p s').1 = (Capture.redirect t p s).1 ∧
      Shifted base k (Capture.redirect t p s).2 (Capture.redirect t p s').2 := by
  have hrefusal' : s'.flushAll.descriptors.refusal = s.flushAll.descriptors.refusal := by
    rw [refusal_flushAll, refusal_flushAll, hrefusal]
  obtain ⟨hfault, hsaved, hd⟩ := Capture.shifted_redirectAll h.flushAll.descriptors hrefusal' []
    [(t.out, p.outWrite), (t.err, p.errWrite)]
  simp only [Capture.redirect]
  rcases hleft : Capture.redirectAll s.flushAll.descriptors [] [(t.out, p.outWrite), (t.err, p.errWrite)]
    with ⟨fault, saved, d⟩
  rcases hright : Capture.redirectAll s'.flushAll.descriptors [] [(t.out, p.outWrite), (t.err, p.errWrite)]
    with ⟨fault', saved', d'⟩
  rw [hleft, hright] at hfault hsaved hd
  obtain rfl : fault' = fault := hfault
  obtain rfl : saved' = saved := hsaved
  cases fault' with
  | none => exact ⟨rfl, h.flushAll.having (Capture.shifted_closeAll hd _)⟩
  | some cause =>
      exact ⟨rfl, h.flushAll.having (Capture.shifted_closeAll (Capture.shifted_restore hd _) _)⟩

/-- Setting a capture up. -/
theorem start (h : Shifted base k s s') (hrefusal : s'.descriptors.refusal = s.descriptors.refusal)
    (t : Capture.Targets) :
    (Capture.start t s').1 = (Capture.start t s).1 ∧
      Shifted base k (Capture.start t s).2 (Capture.start t s').2 := by
  obtain ⟨hpipes, hd, hrefusal'⟩ := Capture.shifted_openPipes h.descriptors hrefusal
  simp only [Capture.start]
  rcases hleft : Capture.openPipes s.descriptors with ⟨pipes, d⟩
  rcases hright : Capture.openPipes s'.descriptors with ⟨pipes', d'⟩
  rw [hleft, hright] at hpipes hd hrefusal'
  obtain rfl : pipes' = pipes := hpipes
  cases pipes' with
  | error fault => exact ⟨rfl, h.having hd⟩
  | ok pipes => exact (h.having hd).redirect hrefusal' t pipes

/-- The end of a capture. -/
theorem finish (h : Shifted base k s s') (c : Capture.Session) :
    (Capture.finish c s').1 = (Capture.finish c s).1 ∧
      Shifted base k (Capture.finish c s).2 (Capture.finish c s').2 := by
  have hd := Capture.shifted_restore h.flushAll.descriptors c.saved
  refine ⟨?_, h.flushAll.having (Capture.shifted_closeAll hd _)⟩
  simp only [Capture.finish, hd.readAll]

/-- **A capture** ends in the same way. -/
theorem around (h : Shifted base k s s') (hrefusal : s'.descriptors.refusal = s.descriptors.refusal)
    (t : Capture.Targets) (block : List Capture.Step) :
    (Capture.around t block s').1 = (Capture.around t block s).1 ∧
      Shifted base k (Capture.around t block s).2 (Capture.around t block s').2 := by
  obtain ⟨hstart, hs⟩ := h.start hrefusal t
  simp only [Capture.around]
  rcases hleft : Capture.start t s with ⟨started, u⟩
  rcases hright : Capture.start t s' with ⟨started', u'⟩
  rw [hleft, hright] at hstart hs
  obtain rfl : started' = started := hstart
  cases started' with
  | error fault => exact ⟨rfl, hs⟩
  | ok c =>
      obtain ⟨hraised, hs⟩ := hs.perform block
      obtain ⟨hcaptured, hs⟩ := hs.finish c
      dsimp only
      rw [hraised, hcaptured]
      exact ⟨rfl, hs⟩

end Shifted

end Stdio

end JanetEmbedding
