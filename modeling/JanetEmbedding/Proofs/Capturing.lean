import JanetEmbedding.Proofs.Redirection

/-!
# Captures of any descriptors

A capture may be asked for any two descriptors, whatever they refer to and whether or not they are
open. This module tells descriptor by descriptor what the two steps of such a capture leave behind.
If a step fails, all descriptors are as before; and if both succeed for two open descriptors, all
descriptors are as before when the capture ends.

## Conventions

* The **ends** of a capture are the four descriptors that it has opened for its pipes. A capture may be
  asked for one of them by chance, if the number was not in use before.

## Main definitions

* `Capture.Pipes.Fresh`: what opening the pipes adds.
* `Capture.Undone`: nothing is left of a capture.
* `Capture.Session.Engages`: a capture that holds two descriptors, and what else there is.
* `Capture.Session.Entered`: a process when such a capture has just begun.

## Main results

* `Capture.undone_of_start`: a capture that cannot be set up is undone.
* `Capture.exists_entered`: two open descriptors can be captured.
* `Capture.Session.Engages.finish`: the end of a capture.
-/

namespace JanetEmbedding

namespace Descriptors

variable {d d' : Descriptors}

/-! ### What the system refuses -/

theorem countDown_fst (r : Option Nat) : (countDown r).1 = true ↔ r = some 1 := by
  rcases r with _ | _ | _ | n <;> simp [countDown]

theorem countDown_snd (r : Option Nat) : (countDown r).2 = some 1 ↔ r = some 2 := by
  rcases r with _ | _ | _ | n <;> simp [countDown]

/-- The next pipe is refused, or it is opened and a refusal has come one nearer. -/
theorem openPipe_cases (d : Descriptors) :
    d.refusal.pipe = some 1 ∧ d.openPipe = .error .tooMany ∨
      d.refusal.pipe ≠ some 1 ∧ ∃ readFd writeFd d', d.openPipe = .ok ((readFd, writeFd), d') ∧
        d'.refusal = { d.refusal with pipe := (countDown d.refusal.pipe).2 } := by
  have hone := countDown_fst d.refusal.pipe
  rcases hcount : countDown d.refusal.pipe with ⟨refused, next⟩
  rw [hcount] at hone
  cases refused with
  | true => exact .inl ⟨hone.mp rfl, by simp only [openPipe, hcount, if_true]⟩
  | false =>
      refine .inr ⟨fun heq => absurd (hone.mpr heq) (by simp), ?_⟩
      simp only [openPipe, hcount, Bool.false_eq_true, if_false]
      exact ⟨_, _, _, rfl, rfl⟩

/-- The next duplicate is refused, or it is made unless there is no such descriptor. -/
theorem duplicate_cases (d : Descriptors) (fd : Int) :
    (∃ cause, d.duplicate fd = .error cause ∧
        (cause = .tooMany ∧ d.refusal.duplicate = some 1 ∨ fd < 0 ∨ d.file? fd.toNat = none)) ∨
      d.refusal.duplicate ≠ some 1 ∧ ∃ copy d', d.duplicate fd = .ok (copy, d') ∧
        d'.refusal = { d.refusal with duplicate := (countDown d.refusal.duplicate).2 } := by
  have hone := countDown_fst d.refusal.duplicate
  rcases hcount : countDown d.refusal.duplicate with ⟨refused, next⟩
  rw [hcount] at hone
  cases refused with
  | true => exact .inl ⟨.tooMany, by simp only [duplicate, hcount, if_true], .inl ⟨rfl, hone.mp rfl⟩⟩
  | false =>
      simp only [duplicate, hcount, Bool.false_eq_true, if_false]
      by_cases hneg : fd < 0
      · exact .inl ⟨.badDescriptor, by rw [if_pos hneg], .inr (.inl hneg)⟩
      · rw [if_neg hneg]
        cases hfile : d.file? fd.toNat with
        | none => exact .inl ⟨.badDescriptor, rfl, .inr (.inr rfl)⟩
        | some f => exact .inr ⟨fun heq => absurd (hone.mpr heq) (by simp), _, _, rfl, rfl⟩

/-- A pipe that has been opened was not refused. -/
theorem refusal_of_openPipe {ends : Nat × Nat} (h : d.openPipe = .ok (ends, d')) :
    d.refusal.pipe ≠ some 1 ∧ d'.refusal = { d.refusal with pipe := (countDown d.refusal.pipe).2 } := by
  rcases d.openPipe_cases with ⟨-, herror⟩ | ⟨hne, readFd, writeFd, e, hok, he⟩
  · cases h.symm.trans herror
  · obtain ⟨-, rfl⟩ := Prod.mk.inj (Except.ok.inj (h.symm.trans hok))
    exact ⟨hne, he⟩

/-- A duplicate that has been made was not refused. -/
theorem refusal_of_duplicate {fd : Int} {copy : Nat} (h : d.duplicate fd = .ok (copy, d')) :
    d.refusal.duplicate ≠ some 1 ∧
      d'.refusal = { d.refusal with duplicate := (countDown d.refusal.duplicate).2 } := by
  rcases d.duplicate_cases fd with ⟨cause, herror, -⟩ | ⟨hne, copy', e, hok, he⟩
  · cases h.symm.trans herror
  · obtain ⟨-, rfl⟩ := Prod.mk.inj (Except.ok.inj (h.symm.trans hok))
    exact ⟨hne, he⟩

/-- An open descriptor can be duplicated unless the system refuses it. -/
theorem duplicate_of_open {fd : Nat} (hopen : (d.file? fd).isSome) :
    d.refusal.duplicate = some 1 ∧ d.duplicate fd = .error .tooMany ∨
      d.refusal.duplicate ≠ some 1 ∧ ∃ copy d', d.duplicate fd = .ok (copy, d') ∧
        d'.refusal = { d.refusal with duplicate := (countDown d.refusal.duplicate).2 } := by
  rcases d.duplicate_cases fd with ⟨cause, herror, ⟨rfl, hone⟩ | hneg | hclosed⟩ | hok
  · exact .inl ⟨hone, herror⟩
  · omega
  · rw [Int.toNat_natCast] at hclosed
    rw [hclosed] at hopen
    cases hopen
  · exact .inr hok

@[simp] theorem refusal_redirect (d : Descriptors) (source target : Nat) :
    (d.redirect source target).refusal = d.refusal := by
  unfold redirect
  split <;> rfl

@[simp] theorem refusal_write (d : Descriptors) (fd : Nat) (bytes : List UInt8) :
    (d.write fd bytes).refusal = d.refusal := by
  unfold write
  split <;> rfl

end Descriptors

@[simp] theorem Stdio.refusal_flushAll (s : Stdio) :
    s.flushAll.descriptors.refusal = s.descriptors.refusal := by
  have hflush : ∀ (s : Stdio) (c : Channel),
      (s.flush c).descriptors.refusal = s.descriptors.refusal := by
    intro s c
    unfold flush
    split <;> simp
  rw [flushAll, hflush, hflush]

namespace Capture

open Descriptors

variable {d d' d₀ : Descriptors} {s s' : Stdio} {pipes : Pipes} {t : Targets} {fault : Fault} {x : Nat}

/-! ### Opening the pipes -/

/-- The **ends** of the pipes. -/
def Pipes.ends (p : Pipes) : List Nat := [p.outRead, p.outWrite, p.errRead, p.errWrite]

/-- The pipes are **fresh**: there are four more descriptors for their ends, and all others are as
before. -/
structure Pipes.Fresh (p : Pipes) (d d' : Descriptors) : Prop where
  nodup : p.ends.Nodup
  closed : ∀ x ∈ p.ends, d.file? x = none
  file? : ∀ x, x ∉ p.ends → d'.file? x = d.file? x
  laid : p.Laid d' (nextNumbers d)
  pipes : d'.pipes = d.pipes + 2

theorem fresh_of_openPipes (h : openPipes d = (.ok pipes, d')) :
    pipes.Fresh d d' ∧ ∀ f, d'.content f = d.content f := by
  obtain ⟨hlaid, hcount, -, hcontent⟩ := laid_of_openPipes h
  refine ⟨?_, hcontent⟩
  unfold openPipes at h
  split at h
  next => cases h
  next outRead outWrite e hout =>
    split at h
    next => cases h
    next errRead errWrite e' herr =>
      obtain ⟨hpipes, rfl⟩ := Prod.mk.inj h
      obtain rfl := Except.ok.inj hpipes
      have hfirst := opened_of_openPipe hout
      have hsecond := opened_of_openPipe herr
      have hbefore : ∀ y, e.file? y = none → y ≠ outRead ∧ y ≠ outWrite ∧ d.file? y = none := by
        intro y hy
        rw [hfirst.file?] at hy
        by_cases hread : y = outRead <;> by_cases hwrite : y = outWrite <;> simp_all
      obtain ⟨hread, hread', hreadClosed⟩ := hbefore _ hsecond.read
      obtain ⟨hwrite, hwrite', hwriteClosed⟩ := hbefore _ hsecond.write
      refine ⟨?_, ?_, fun y hy => ?_, hlaid, hcount⟩
      · have hfirstNe := hfirst.ne
        have hsecondNe := hsecond.ne
        simp only [Pipes.ends, List.nodup_cons, List.mem_cons, List.not_mem_nil, or_false, not_or]
        exact ⟨⟨hfirstNe.symm, hread.symm, hwrite.symm⟩, ⟨hread'.symm, hwrite'.symm⟩, hsecondNe.symm,
          not_false, List.nodup_nil⟩
      · simp only [Pipes.ends, List.mem_cons, List.not_mem_nil, or_false]
        rintro y (rfl | rfl | rfl | rfl)
        · exact hfirst.read
        · exact hfirst.write
        · exact hreadClosed
        · exact hwriteClosed
      · simp only [Pipes.ends, List.mem_cons, List.not_mem_nil, or_false, not_or] at hy
        obtain ⟨houtRead, houtWrite, herrRead, herrWrite⟩ := hy
        rw [hsecond.file?, if_neg herrWrite, if_neg herrRead, hfirst.file?, if_neg houtWrite,
          if_neg houtRead]

/-- The ends go when they are closed. -/
theorem Pipes.Fresh.file?_closeAll (h : pipes.Fresh d₀ d)
    (hothers : ∀ x, x ∉ pipes.ends → d'.file? x = d.file? x) (x : Nat) :
    (closeAll d' pipes.ends).file? x = d₀.file? x := by
  rw [Capture.file?_closeAll]
  by_cases hx : x ∈ pipes.ends
  · rw [if_pos hx, h.closed x hx]
  · rw [if_neg hx, hothers x hx, h.file? x hx]

/-- Pipes stay fresh when no descriptor is changed. -/
theorem Pipes.Fresh.congr (h : pipes.Fresh d₀ d) (hfile : ∀ x, d'.file? x = d.file? x)
    (hpipes : d'.pipes = d.pipes) : pipes.Fresh d₀ d' :=
  ⟨h.nodup, h.closed, fun x hx => (hfile x).trans (h.file? x hx),
    ⟨fun c => (hfile _).trans (h.laid.reading c), fun c => (hfile _).trans (h.laid.writing c)⟩,
    hpipes.trans h.pipes⟩

/-- What was open before stays open, and is no end. -/
theorem Pipes.Fresh.of_open (h : pipes.Fresh d₀ d) (hx : (d₀.file? x).isSome) :
    x ∉ pipes.ends ∧ d.file? x = d₀.file? x := by
  have hend : x ∉ pipes.ends := fun hend => by
    rw [h.closed x hend] at hx
    cases hx
  exact ⟨hend, h.file? x hend⟩

/-- What is closed was closed before. -/
theorem Pipes.Fresh.of_closed (h : pipes.Fresh d₀ d) (hx : d.file? x = none) : d₀.file? x = none := by
  by_cases hend : x ∈ pipes.ends
  · exact h.closed x hend
  · rw [← h.file? x hend, hx]

/-! ### Redirecting one descriptor -/

/-- A descriptor that is restored, and its copy, are as before if they were so when the copy was made.
Another one is as before if restoring has found it so. -/
theorem file?_restored_eq {copy target : Nat} {f : File} (hcopy : d.file? copy = some f)
    (hold : d₀.file? target = some f) (hnew : d₀.file? copy = none)
    (hx : x ≠ target → x ≠ copy → d.file? x = d₀.file? x) :
    ((d.redirect copy target).close copy).file? x = d₀.file? x := by
  rw [file?_restored hcopy]
  by_cases hc : x = copy
  · rw [if_pos hc, hc, hnew]
  · rw [if_neg hc]
    by_cases ht : x = target
    · rw [if_pos ht, ht, hold]
    · rw [if_neg ht, hx ht hc]

/-- A descriptor has been **diverted**: it refers to another file, and a new one, its copy, refers to
what it did. -/
structure Diverted (d d' : Descriptors) (target copy : Nat) (f g : File) : Prop where
  old : d.file? target = some f
  new : d.file? copy = none
  file? : ∀ x, d'.file? x = if x = target then some g else if x = copy then some f else d.file? x
  pipes : d'.pipes = d.pipes
  content : ∀ f, d'.content f = d.content f

/-- A descriptor is duplicated, and then it is made to refer to something else. -/
theorem diverted_of_duplicate {copy source : Nat} {target : Int} {g : File}
    (hduplicate : d.duplicate target = .ok (copy, d')) (hsource : d.file? source = some g) :
    ∃ f, Diverted d (d'.redirect source target.toNat) target.toNat copy f g := by
  obtain ⟨f, hf, hnew, hfile, hpipes, hcontent⟩ := duplicate_eq_ok hduplicate
  have hsource' : d'.file? source = some g := by
    rw [hfile, if_neg (ne_of_file?_eq_none hsource hnew), hsource]
  refine ⟨f, hf, hnew, fun x => ?_, ?_, fun f => ?_⟩
  · rw [file?_redirect hsource', hfile]
  · rw [pipes_redirect, hpipes]
  · rw [content_redirect, hcontent]

namespace Diverted

variable {target copy : Nat} {f g f' : File}

/-- The copy is none of the descriptors that were open. -/
theorem ne_copy (h : Diverted d d' target copy f g) (hx : d.file? x = some f') : x ≠ copy :=
  ne_of_file?_eq_none hx h.new

theorem file?_target (h : Diverted d d' target copy f g) : d'.file? target = some g := by
  rw [h.file?, if_pos rfl]

theorem file?_copy (h : Diverted d d' target copy f g) : d'.file? copy = some f := by
  rw [h.file?, if_neg (h.ne_copy h.old).symm, if_pos rfl]

/-- What is neither the descriptor nor its copy is as before. -/
theorem file?_apart (h : Diverted d d' target copy f g) (ht : x ≠ target) (hc : x ≠ copy) :
    d'.file? x = d.file? x := by
  rw [h.file?, if_neg ht, if_neg hc]

/-- What was open stays so, and refers to the same file unless it is the descriptor itself. -/
theorem file?_of_open (h : Diverted d d' target copy f g) (ht : x ≠ target)
    (hx : d.file? x = some f') : d'.file? x = some f' :=
  (h.file?_apart ht (h.ne_copy hx)).trans hx

/-- What is closed was closed before. -/
theorem closed (h : Diverted d d' target copy f g) (hx : d'.file? x = none) : d.file? x = none := by
  have ht : x ≠ target := (ne_of_file?_eq_none h.file?_target hx).symm
  have hc : x ≠ copy := (ne_of_file?_eq_none h.file?_copy hx).symm
  rw [← h.file?_apart ht hc, hx]

/-- A descriptor that has been restored refers to what it did, and its copy is gone. -/
theorem file?_restore (h : Diverted d d' target copy f g) (x : Nat) :
    ((d'.redirect copy target).close copy).file? x = d.file? x :=
  file?_restored_eq h.file?_copy h.old h.new h.file?_apart

end Diverted

/-! ### Captures that cannot be set up -/

/-- **Nothing is left** of a capture but the count of its pipes. -/
structure Undone (s s' : Stdio) : Prop where
  file? : ∀ x, s'.descriptors.file? x = s.descriptors.file? x
  content : ∀ f, s'.descriptors.content f = s.descriptors.content f
  held : ∀ c, s'.held c = s.held c
  usable : ∀ c, s'.usable c = s.usable c
  pipes : s.descriptors.pipes ≤ s'.descriptors.pipes

/-- What a process has come to when a fault occurs: the streams are flushed before the descriptors are
redirected. -/
def Fault.reached (s : Stdio) : Fault → Stdio
  | outPipe _ => s
  | errPipe _ => s
  | redirection _ => s.flushAll

/-- Flushing comes to the same with the pipes of a capture, since both channels had their descriptors
before. -/
theorem Pipes.Fresh.content_flushAll (h : pipes.Fresh s.descriptors d)
    (hcontent : ∀ f, d.content f = s.descriptors.content f)
    (hopen : ∀ c : Channel, (s.descriptors.file? c.descriptor).isSome) (f : File) :
    ({ s with descriptors := d } : Stdio).flushAll.descriptors.content f =
      s.flushAll.descriptors.content f := by
  have hsame : ∀ c : Channel, d.file? c.descriptor = s.descriptors.file? c.descriptor := fun c =>
    (h.of_open (hopen c)).2
  simp only [Stdio.content_flushAll, Stdio.usable_descriptors, Stdio.held_descriptors, hsame,
    hcontent]

/-- Descriptors that could not be redirected are restored, and the pipes are closed. -/
theorem undone_of_redirect (hfresh : pipes.Fresh s.descriptors d)
    (hcontent : ∀ f, d.content f = s.descriptors.content f)
    (hopen : ∀ c : Channel, (s.descriptors.file? c.descriptor).isSome)
    (h : redirect t pipes { s with descriptors := d } = (.error fault, s')) :
    ∃ cause, fault = .redirection cause ∧ Undone s.flushAll s' := by
  obtain ⟨u, hu⟩ : ∃ u : Stdio, u = ({ s with descriptors := d } : Stdio).flushAll := ⟨_, rfl⟩
  have hfresh' : pipes.Fresh s.descriptors u.descriptors :=
    hfresh.congr (fun x => by rw [hu, Stdio.file?_flushAll]) (by rw [hu, Stdio.pipes_flushAll])
  have hcontent' : ∀ f, u.descriptors.content f = s.flushAll.descriptors.content f := fun f => by
    rw [hu, hfresh.content_flushAll hcontent hopen]
  have hheld : ∀ c, u.held c = s.flushAll.held c := fun c => by
    rw [hu, Stdio.held_flushAll, Stdio.held_flushAll, Stdio.usable_descriptors,
      Stdio.held_descriptors]
  have husable : ∀ c, u.usable c = s.flushAll.usable c := fun c => by
    rw [hu, Stdio.usable_flushAll, Stdio.usable_flushAll, Stdio.usable_descriptors]
  -- Whatever the descriptors are that are restored, it is enough that their files are as before.
  have hundone : ∀ e : Descriptors, (∀ x, x ∉ pipes.ends → e.file? x = u.descriptors.file? x) →
      e.pipes = u.descriptors.pipes → (∀ f, e.content f = u.descriptors.content f) →
      Undone s.flushAll { u with descriptors := closeAll e pipes.ends } := by
    intro e he hepipes hecontent
    refine ⟨fun x => ?_, fun f => ?_, fun c => ?_, fun c => ?_, ?_⟩
    · rw [hfresh'.file?_closeAll he, Stdio.file?_flushAll]
    · rw [content_closeAll, hecontent, hcontent']
    · rw [Stdio.held_descriptors, hheld]
    · rw [Stdio.usable_descriptors, husable]
    · rw [pipes_closeAll, hepipes, hfresh'.pipes, Stdio.pipes_flushAll]
      omega
  simp only [redirect, ← hu, redirectAll] at h
  rcases hfirst : u.descriptors.duplicate t.out with cause | ⟨copy, e⟩
  · rw [hfirst] at h
    obtain ⟨hfault, rfl⟩ := Prod.mk.inj h
    exact ⟨cause, (Except.error.inj hfault).symm, hundone _ (fun _ _ => rfl) rfl fun _ => rfl⟩
  · obtain ⟨f, hdiverted⟩ := diverted_of_duplicate hfirst (hfresh'.laid.writing .out)
    rw [hfirst] at h
    dsimp only at h
    rcases hsecond : (e.redirect pipes.outWrite t.out.toNat).duplicate t.err with cause | ⟨copy', e'⟩
    · rw [hsecond] at h
      obtain ⟨hfault, rfl⟩ := Prod.mk.inj h
      refine ⟨cause, (Except.error.inj hfault).symm, hundone _ (fun x _ => ?_) ?_ fun g => ?_⟩
      · exact hdiverted.file?_restore x
      · exact (pipes_redirect ..).trans hdiverted.pipes
      · exact (content_redirect ..).trans (hdiverted.content g)
    · rw [hsecond] at h
      cases h

/-- **A capture that cannot be set up is undone.** -/
theorem undone_of_start (hopen : ∀ c : Channel, (s.descriptors.file? c.descriptor).isSome)
    (h : start t s = (.error fault, s')) : Undone (fault.reached s) s' := by
  rcases hpipes : openPipes s.descriptors with ⟨fault' | pipes, d⟩
  · obtain ⟨hfile, hcount, hcontent⟩ := opening_of_error hpipes
    simp only [start, hpipes] at h
    obtain ⟨hfault, rfl⟩ := Prod.mk.inj h
    obtain rfl := Except.error.inj hfault
    have hreached : fault'.reached s = s := by
      cases fault' with
      | outPipe | errPipe => rfl
      | redirection cause =>
          unfold openPipes at hpipes
          split at hpipes
          next => cases hpipes
          next => split at hpipes <;> cases hpipes
    rw [hreached]
    exact ⟨hfile, hcontent, fun _ => Stdio.held_descriptors .., fun _ => Stdio.usable_descriptors ..,
      hcount⟩
  · simp only [start, hpipes] at h
    obtain ⟨hfresh, hcontent⟩ := fresh_of_openPipes hpipes
    obtain ⟨cause, rfl, hundone⟩ := undone_of_redirect hfresh hcontent hopen h
    exact hundone

/-! ### Captures of two open descriptors -/

/-- The system refuses one of the **calls** of a capture: one of its pipes, or one of its duplicates. -/
def Refusable (r : Refusal) : Prop :=
  (r.pipe = some 1 ∨ r.pipe = some 2) ∨ r.duplicate = some 1 ∨ r.duplicate = some 2

instance (r : Refusal) : Decidable (Refusable r) := inferInstanceAs (Decidable (_ ∨ _))

variable {a b copyA copyB : Nat} {c : Session}

/-- The descriptors that a capture has opened, once the writing ends of its pipes are closed. -/
def Session.opened (c : Session) (copyA copyB : Nat) : List Nat := [copyA, copyB, c.outRead, c.errRead]

/-- A capture **engages** two descriptors: they refer to the writing ends of its pipes, it has
duplicates of them and the reading ends, and all other descriptors are as before. -/
structure Session.Engages (c : Session) (a b copyA copyB : Nat) (d₀ d : Descriptors) : Prop where
  saved : c.saved = [(a, copyA), (b, copyB)]
  ne : a ≠ b
  targets : (d₀.file? a).isSome ∧ (d₀.file? b).isSome
  nodup : (c.opened copyA copyB).Nodup
  closed : ∀ x ∈ c.opened copyA copyB, d₀.file? x = none
  copies : d.file? copyA = d₀.file? a ∧ d.file? copyB = d₀.file? b
  writing : d.file? a = some (.writeEnd d₀.pipes) ∧ d.file? b = some (.writeEnd (d₀.pipes + 1))
  reading : d.file? c.outRead = some (.readEnd d₀.pipes) ∧
    d.file? c.errRead = some (.readEnd (d₀.pipes + 1))
  others : ∀ x, x ≠ a → x ≠ b → x ∉ c.opened copyA copyB → d.file? x = d₀.file? x

/-- Two descriptors that have been diverted, one after the other, are engaged when the writing ends of
the pipes are closed. -/
theorem engages_of_diverted {e e' : Descriptors} {fa fb : File} (hfresh : pipes.Fresh d₀ d)
    (hne : a ≠ b) (ha : (d₀.file? a).isSome) (hb : (d₀.file? b).isSome)
    (hfirst : Diverted d e a copyA fa (.writeEnd d₀.pipes))
    (hsecond : Diverted e e' b copyB fb (.writeEnd (d₀.pipes + 1))) :
    (⟨[(a, copyA), (b, copyB)], pipes.outRead, pipes.errRead⟩ : Session).Engages a b copyA copyB d₀
      (closeAll e' [pipes.outWrite, pipes.errWrite]) := by
  obtain ⟨haEnd, haFile⟩ := hfresh.of_open ha
  obtain ⟨hbEnd, hbFile⟩ := hfresh.of_open hb
  have hnodup := hfresh.nodup
  simp only [Pipes.ends, List.mem_cons, List.not_mem_nil, or_false, not_or, List.nodup_cons]
    at haEnd hbEnd hnodup
  obtain ⟨haR, haW, haR', haW'⟩ := haEnd
  obtain ⟨hbR, hbW, hbR', hbW'⟩ := hbEnd
  obtain ⟨⟨hRW, hRR', hRW'⟩, ⟨hWR', -⟩, hR'W', -⟩ := hnodup
  have hbA : b ≠ copyA := by
    obtain ⟨f, hf⟩ := Option.isSome_iff_exists.mp hb
    exact hfirst.ne_copy (hbFile.trans hf)
  -- The ends are open all the time, so neither copy is one of them.
  have hcopyA : ∀ {y f}, d.file? y = some f → copyA ≠ y := fun hy => (hfirst.ne_copy hy).symm
  have hcopyB : ∀ {y f}, y ≠ a → d.file? y = some f → copyB ≠ y := fun hya hy =>
    (hsecond.ne_copy (hfirst.file?_of_open hya hy)).symm
  have hoR : d.file? pipes.outRead = some (.readEnd d₀.pipes) := hfresh.laid.reading .out
  have hoW : d.file? pipes.outWrite = some (.writeEnd d₀.pipes) := hfresh.laid.writing .out
  have heR : d.file? pipes.errRead = some (.readEnd (d₀.pipes + 1)) := hfresh.laid.reading .err
  have heW : d.file? pipes.errWrite = some (.writeEnd (d₀.pipes + 1)) := hfresh.laid.writing .err
  have hafter : ∀ {y}, y ≠ pipes.outWrite → y ≠ pipes.errWrite →
      (closeAll e' [pipes.outWrite, pipes.errWrite]).file? y = e'.file? y := by
    intro y hyW hyW'
    rw [file?_closeAll, if_neg (by simp [hyW, hyW'])]
  refine ⟨rfl, hne, ⟨ha, hb⟩, ?_, ?_, ⟨?_, ?_⟩, ⟨?_, ?_⟩, ⟨?_, ?_⟩, ?_⟩
  · have hAB : copyB ≠ copyA := (hsecond.ne_copy hfirst.file?_copy).symm
    simp only [Session.opened, List.nodup_cons, List.mem_cons, List.not_mem_nil, or_false, not_or]
    exact ⟨⟨hAB.symm, hcopyA hoR, hcopyA heR⟩,
      ⟨hcopyB (Ne.symm haR) hoR, hcopyB (Ne.symm haR') heR⟩, hRR', not_false, List.nodup_nil⟩
  · simp only [Session.opened, List.mem_cons, List.not_mem_nil, or_false]
    rintro y (rfl | rfl | rfl | rfl)
    · exact hfresh.of_closed hfirst.new
    · exact hfresh.of_closed (hfirst.closed hsecond.new)
    · exact hfresh.closed _ (by simp [Pipes.ends])
    · exact hfresh.closed _ (by simp [Pipes.ends])
  · rw [hafter (hcopyA hoW) (hcopyA heW), hsecond.file?_of_open hbA.symm hfirst.file?_copy, ← haFile,
      hfirst.old]
  · rw [hafter (hcopyB (Ne.symm haW) hoW) (hcopyB (Ne.symm haW') heW), hsecond.file?_copy, ← hbFile,
      ← hfirst.file?_apart hne.symm hbA, hsecond.old]
  · rw [hafter haW haW', hsecond.file?_of_open hne hfirst.file?_target]
  · rw [hafter hbW hbW', hsecond.file?_target]
  · rw [hafter hRW hRW',
      hsecond.file?_of_open (Ne.symm hbR) (hfirst.file?_of_open (Ne.symm haR) hoR)]
  · rw [hafter (Ne.symm hWR') hR'W',
      hsecond.file?_of_open (Ne.symm hbR') (hfirst.file?_of_open (Ne.symm haR') heR)]
  · intro x hxa hxb hx
    simp only [Session.opened, List.mem_cons, List.not_mem_nil, or_false, not_or] at hx
    obtain ⟨hxA, hxB, hxR, hxR'⟩ := hx
    by_cases hxW : x ∈ [pipes.outWrite, pipes.errWrite]
    · rw [file?_closeAll, if_pos hxW, hfresh.closed]
      rcases List.mem_pair.mp hxW with rfl | rfl <;> simp [Pipes.ends]
    · rw [file?_closeAll, if_neg hxW, hsecond.file?_apart hxb hxB, hfirst.file?_apart hxa hxA,
        hfresh.file?]
      simpa [Pipes.ends, hxR, hxR'] using hxW

/-- A process has **entered** a capture of two descriptors: its streams have been flushed, and the
capture engages the descriptors. -/
structure Session.Entered (c : Session) (a b copyA copyB : Nat) (s t : Stdio) : Prop where
  engages : c.Engages a b copyA copyB s.descriptors t.descriptors
  pipes : t.descriptors.pipes = s.descriptors.pipes + 2
  content : ∀ f, t.descriptors.content f = s.flushAll.descriptors.content f
  held : ∀ c, t.held c = s.flushAll.held c
  usable : ∀ c, t.usable c = s.usable c

/-- **Two open descriptors can be captured** if the system refuses none of the calls. -/
theorem exists_entered (hrefusal : ¬ Refusable s.descriptors.refusal)
    (hopen : ∀ c : Channel, (s.descriptors.file? c.descriptor).isSome) (hne : a ≠ b)
    (ha : (s.descriptors.file? a).isSome) (hb : (s.descriptors.file? b).isSome) :
    ∃ c copyA copyB s', start ⟨a, b⟩ s = (.ok c, s') ∧ c.Entered a b copyA copyB s s' := by
  simp only [Refusable, not_or] at hrefusal
  obtain ⟨⟨hone, htwo⟩, hone', htwo'⟩ := hrefusal
  obtain ⟨outRead, outWrite, d₁, hout, hrefusal₁⟩ := ((openPipe_cases _).resolve_left fun h => hone h.1).2
  have hsecond : d₁.refusal.pipe ≠ some 1 := by
    rw [hrefusal₁]
    exact fun heq => htwo ((countDown_snd _).mp heq)
  obtain ⟨errRead, errWrite, d₂, herr, hrefusal₂⟩ := ((openPipe_cases _).resolve_left fun h => hsecond h.1).2
  obtain ⟨pipes, hends⟩ : ∃ pipes : Pipes, pipes = ⟨outRead, outWrite, errRead, errWrite⟩ := ⟨_, rfl⟩
  have hpipes : openPipes s.descriptors = (.ok pipes, d₂) := by
    simp only [openPipes, hout, herr, hends]
  obtain ⟨hfresh, hcontent⟩ := fresh_of_openPipes hpipes
  obtain ⟨u, hu⟩ : ∃ u : Stdio, u = ({ s with descriptors := d₂ } : Stdio).flushAll := ⟨_, rfl⟩
  have hfresh' : pipes.Fresh s.descriptors u.descriptors :=
    hfresh.congr (fun x => by rw [hu, Stdio.file?_flushAll]) (by rw [hu, Stdio.pipes_flushAll])
  have hrefusal₃ : u.descriptors.refusal.duplicate = s.descriptors.refusal.duplicate := by
    rw [hu, Stdio.refusal_flushAll, hrefusal₂, hrefusal₁]
  obtain ⟨copyA, e, hfirst, hrefusal₄⟩ :=
    ((duplicate_of_open ((hfresh'.of_open ha).2 ▸ ha)).resolve_left fun h =>
      hone' (hrefusal₃ ▸ h.1)).2
  have hwriteA : u.descriptors.file? pipes.outWrite = some _ := hfresh'.laid.writing .out
  obtain ⟨fa, hdivertedA⟩ := diverted_of_duplicate hfirst hwriteA
  rw [Int.toNat_natCast] at hdivertedA
  have hstill : ((e.redirect pipes.outWrite a).file? b).isSome := by
    obtain ⟨f, hf⟩ := Option.isSome_iff_exists.mp ((hfresh'.of_open hb).2 ▸ hb)
    exact Option.isSome_iff_exists.mpr ⟨f, hdivertedA.file?_of_open hne.symm hf⟩
  have hthird : (e.redirect pipes.outWrite a).refusal.duplicate ≠ some 1 := by
    rw [refusal_redirect, hrefusal₄, hrefusal₃]
    exact fun heq => htwo' ((countDown_snd _).mp heq)
  obtain ⟨copyB, e', hsecond, -⟩ := ((duplicate_of_open hstill).resolve_left fun h => hthird h.1).2
  have hwriteB : (e.redirect pipes.outWrite a).file? pipes.errWrite = some _ :=
    hdivertedA.file?_of_open (fun heq => (hfresh'.of_open ha).1 (by simp [← heq, Pipes.ends]))
      (hfresh'.laid.writing .err)
  obtain ⟨fb, hdivertedB⟩ := diverted_of_duplicate hsecond hwriteB
  rw [Int.toNat_natCast] at hdivertedB
  have hengages := engages_of_diverted hfresh' hne ha hb hdivertedA hdivertedB
  refine ⟨_, copyA, copyB,
    { u with descriptors := closeAll (e'.redirect pipes.errWrite b) [pipes.outWrite, pipes.errWrite] },
    ?_, ⟨hengages, ?_, fun f => ?_, fun c => ?_, fun c => ?_⟩⟩
  · simp only [start, hpipes, redirect, ← hu, redirectAll, hfirst, Int.toNat_natCast, hsecond]
    rfl
  · rw [pipes_closeAll, hdivertedB.pipes, hdivertedA.pipes, hfresh'.pipes]
  · rw [content_closeAll, hdivertedB.content, hdivertedA.content, hu,
      hfresh.content_flushAll hcontent hopen]
  · rw [Stdio.held_descriptors, hu, Stdio.held_flushAll, Stdio.held_flushAll,
      Stdio.usable_descriptors, Stdio.held_descriptors]
  · rw [Stdio.usable_descriptors, hu, Stdio.usable_flushAll, Stdio.usable_descriptors]

/-! ### The end of a capture -/

namespace Session.Engages

/-- A capture goes on to engage its descriptors when none is changed. -/
theorem congr (h : c.Engages a b copyA copyB d₀ d) (hfile : ∀ x, d'.file? x = d.file? x) :
    c.Engages a b copyA copyB d₀ d' where
  saved := h.saved
  ne := h.ne
  targets := h.targets
  nodup := h.nodup
  closed := h.closed
  copies := ⟨(hfile _).trans h.copies.1, (hfile _).trans h.copies.2⟩
  writing := ⟨(hfile _).trans h.writing.1, (hfile _).trans h.writing.2⟩
  reading := ⟨(hfile _).trans h.reading.1, (hfile _).trans h.reading.2⟩
  others := fun x hxa hxb hx => (hfile x).trans (h.others x hxa hxb hx)

/-- What the descriptors refer to when the targets have been restored: they and the duplicates are as
before the capture, and only the reading ends are left of it. -/
theorem file?_restore (h : c.Engages a b copyA copyB d₀ d) :
    (∀ x, x ≠ c.outRead → x ≠ c.errRead → (restore d c.saved).file? x = d₀.file? x) ∧
      (restore d c.saved).file? c.outRead = some (.readEnd d₀.pipes) ∧
      (restore d c.saved).file? c.errRead = some (.readEnd (d₀.pipes + 1)) ∧
      (restore d c.saved).pipes = d.pipes ∧ ∀ f, (restore d c.saved).content f = d.content f := by
  obtain ⟨fa, hfa⟩ := Option.isSome_iff_exists.mp h.targets.1
  obtain ⟨fb, hfb⟩ := Option.isSome_iff_exists.mp h.targets.2
  have hnew : ∀ {y f}, d₀.file? y = some f → y ∉ c.opened copyA copyB := by
    intro y f hy hmem
    rw [h.closed y hmem] at hy
    cases hy
  have hnodup := h.nodup
  have haNew := hnew hfa
  have hbNew := hnew hfb
  simp only [Session.opened, List.nodup_cons, List.mem_cons, List.not_mem_nil, or_false,
    not_or] at hnodup haNew hbNew
  have hcopyA : d.file? copyA = some fa := h.copies.1.trans hfa
  let e := (d.redirect copyA a).close copyA
  have he : ∀ {x}, x ≠ copyA → x ≠ a → e.file? x = d.file? x := by
    intro x hxA hxa
    rw [file?_restored hcopyA, if_neg hxA, if_neg hxa]
  have hcopyB : e.file? copyB = some fb := by
    rw [he (Ne.symm hnodup.1.1) (Ne.symm haNew.2.1), h.copies.2, hfb]
  have hrestore : restore d c.saved = (e.redirect copyB b).close copyB := by rw [h.saved]; rfl
  rw [hrestore]
  refine ⟨fun x hxR hxR' => ?_, ?_, ?_, ?_, fun f => ?_⟩
  · refine file?_restored_eq hcopyB hfb (h.closed copyB (by simp [Session.opened])) fun hxb hxB => ?_
    refine file?_restored_eq hcopyA hfa (h.closed copyA (by simp [Session.opened])) fun hxa hxA => ?_
    exact h.others x hxa hxb (by simp [Session.opened, hxA, hxB, hxR, hxR'])
  · rw [file?_restored hcopyB, if_neg (Ne.symm hnodup.2.1.1), if_neg (Ne.symm hbNew.2.2.1),
      he (Ne.symm hnodup.1.2.1) (Ne.symm haNew.2.2.1), h.reading.1]
  · rw [file?_restored hcopyB, if_neg (Ne.symm hnodup.2.1.2), if_neg (Ne.symm hbNew.2.2.2),
      he (Ne.symm hnodup.1.2.2) (Ne.symm haNew.2.2.2), h.reading.2]
  · exact (pipes_redirect ..).trans (pipes_redirect ..)
  · rw [content_close, content_redirect, content_close, content_redirect]

/-- **The end of a capture**: all descriptors are as before, and what has been captured is what the
pipes have when the streams are flushed. -/
theorem finish (h : c.Engages a b copyA copyB d₀ s.descriptors) {captured : Captured}
    (hfinish : Capture.finish c s = (captured, s')) :
    captured = ⟨Utf8.decodeString (s.flushAll.descriptors.content (.writeEnd d₀.pipes)),
        Utf8.decodeString (s.flushAll.descriptors.content (.writeEnd (d₀.pipes + 1)))⟩ ∧
      (∀ x, s'.descriptors.file? x = d₀.file? x) ∧
      s'.descriptors.pipes = s.descriptors.pipes ∧
      (∀ f, s'.descriptors.content f = s.flushAll.descriptors.content f) ∧
      (∀ c, s'.held c = s.flushAll.held c) ∧ ∀ c, s'.usable c = s.usable c := by
  have hflushed := h.congr fun x => Stdio.file?_flushAll s x
  obtain ⟨hothers, hout, herr, hpipes, hcontent⟩ := hflushed.file?_restore
  obtain ⟨rfl, rfl⟩ := Prod.mk.inj hfinish
  refine ⟨?_, fun x => ?_, ?_, fun f => ?_, fun c => ?_, fun c => ?_⟩
  · simp only [readAll, hout, herr, hcontent]
  · rw [Capture.file?_closeAll]
    by_cases hx : x ∈ [c.outRead, c.errRead]
    · rw [if_pos hx, h.closed]
      rcases List.mem_pair.mp hx with rfl | rfl <;> simp [Session.opened]
    · obtain ⟨hxR, hxR'⟩ : x ≠ c.outRead ∧ x ≠ c.errRead := by simpa using hx
      rw [if_neg hx, hothers x hxR hxR']
  · rw [pipes_closeAll, hpipes, Stdio.pipes_flushAll]
  · rw [content_closeAll, hcontent]
  · exact Stdio.held_descriptors ..
  · rw [Stdio.usable_descriptors, Stdio.usable_flushAll]

end Session.Engages

end Capture

end JanetEmbedding
