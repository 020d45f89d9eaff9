import JanetEmbedding.Proofs.Descriptors
import Mathlib.Logic.Function.Basic

/-!
# What a capture does to the descriptors

A capture opens two pipes, redirects both descriptors to their writing ends, and restores them when
it ends. Each of these steps is described by what it leaves behind, also when it fails half way: the
two descriptors refer to what they should, and whatever refers to an end of another pipe goes on to
do so. This is all that captures need to know of each other.

## Conventions

* The **numbers** of a capture are those of its two pipes, one for each channel.
* The **files** of a process are what its two descriptors refer to when nothing is captured.

## Main definitions

* `Descriptors.Refer`: what the descriptors of the two channels refer to.
* `Descriptors.Spares`: one pipe is left alone.
* `Capture.Pipes.Laid`: the pipes are there, but not in use.
* `Capture.Session.Holds`: the capture holds the descriptors.

## Main results

* `Capture.laid_of_openPipes`, `Capture.opening_of_error`: opening the pipes.
* `Capture.holds_of_redirect`, `Capture.redirecting_of_error`: redirecting the descriptors.
* `Capture.finish_spec`: the end of a capture.
-/

namespace JanetEmbedding

namespace Descriptors

/-- What the descriptors of the two channels **refer** to. -/
def Refer (d : Descriptors) (files : Channel → File) : Prop :=
  ∀ c : Channel, d.file? c.descriptor = some (files c)

/-- Flushing the streams of a process does not change what its descriptors refer to. -/
theorem Refer.flushAll {s : Stdio} {files : Channel → File} (h : s.descriptors.Refer files) :
    s.flushAll.descriptors.Refer files :=
  fun c => (Stdio.file?_flushAll ..).trans (h c)

/-- Nor does writing. -/
theorem Refer.applyAll {s : Stdio} {files : Channel → File} (h : s.descriptors.Refer files)
    (ws : List Write) : (s.applyAll ws).descriptors.Refer files :=
  fun c => (Stdio.file?_applyAll ..).trans (h c)

/-- A change that **spares** a pipe: descriptors that refer to one of its ends go on to do so. -/
def Spares (d d' : Descriptors) (k : Nat) : Prop :=
  ∀ x f, f.pipe? = some k → d.file? x = some f → d'.file? x = some f

theorem Spares.trans {d d' d'' : Descriptors} {k : Nat} (h : d.Spares d' k) (h' : d'.Spares d'' k) :
    d.Spares d'' k :=
  fun x f hf hx => h' x f hf (h x f hf hx)

theorem Spares.of_eq {d d' : Descriptors} {k : Nat} (h : ∀ x, d'.file? x = d.file? x) :
    d.Spares d' k :=
  fun x _ _ hx => (h x).trans hx

/-- Descriptors that refer to different files are different. -/
theorem ne_of_file? {d : Descriptors} {x y : Nat} {f g : File} (hx : d.file? x = some f)
    (hy : d.file? y = some g) (hne : f ≠ g) : x ≠ y := by
  rintro rfl
  exact hne (Option.some.inj (hx.symm.trans hy))

/-- A descriptor that refers to something is not a new one. -/
theorem ne_of_file?_eq_none {d : Descriptors} {x y : Nat} {f : File} (hx : d.file? x = some f)
    (hy : d.file? y = none) : x ≠ y := by
  rintro rfl
  cases hx.symm.trans hy

/-- Files of different pipes are different. -/
theorem file_ne {f g : File} {k : Nat} (hf : f.pipe? = some k) (hg : g.pipe? ≠ some k) : f ≠ g := by
  rintro rfl
  exact hg hf

end Descriptors

/-- A process where nothing is held back is not changed by flushing. -/
theorem Stdio.content_flushAll_of_empty {s : Stdio} (hempty : ∀ c, s.usable c = true → s.held c = [])
    (f : File) : s.flushAll.descriptors.content f = s.descriptors.content f := by
  have hnone : ∀ (c : Channel) (P : Prop) [Decidable P],
      (if s.usable c = true ∧ P then s.held c else []) = [] := by
    intro c P _
    split
    next h => exact hempty c h.1
    next => rfl
  rw [content_flushAll, hnone, hnone, List.append_nil, List.append_nil]

namespace Capture

open Descriptors

variable {d d' : Descriptors} {s s' : Stdio} {pipes : Pipes} {numbers : Channel → Nat}
  {files : Channel → File} {f : File} {k x : Nat}

/-! ### Opening the pipes -/

/-- The reading end of a pipe. -/
def Pipes.reading (p : Pipes) : Channel → Nat
  | .out => p.outRead
  | .err => p.errRead

/-- The writing end of a pipe. -/
def Pipes.writing (p : Pipes) : Channel → Nat
  | .out => p.outWrite
  | .err => p.errWrite

/-- The pipes are **laid**: they are there, but not in use. -/
structure Pipes.Laid (p : Pipes) (d : Descriptors) (numbers : Channel → Nat) : Prop where
  reading : ∀ c, d.file? (p.reading c) = some (.readEnd (numbers c))
  writing : ∀ c, d.file? (p.writing c) = some (.writeEnd (numbers c))

/-- Pipes that are laid stay so if they are spared. -/
theorem Pipes.Laid.spared (h : pipes.Laid d numbers) (hspares : ∀ c, d.Spares d' (numbers c)) :
    pipes.Laid d' numbers :=
  ⟨fun c => hspares c _ _ rfl (h.reading c), fun c => hspares c _ _ rfl (h.writing c)⟩

/-- The numbers of the pipes that are opened next. -/
def nextNumbers (d : Descriptors) : Channel → Nat
  | .out => d.pipes
  | .err => d.pipes + 1

/-- **Opening the pipes** adds descriptors for two new pipes. -/
theorem laid_of_openPipes (h : openPipes d = (.ok pipes, d')) :
    pipes.Laid d' (nextNumbers d) ∧ d'.pipes = d.pipes + 2 ∧
      (∀ x f, d.file? x = some f → d'.file? x = some f) ∧ ∀ f, d'.content f = d.content f := by
  unfold openPipes at h
  split at h
  next => cases h
  next outRead outWrite e hout =>
    split at h
    next => cases h
    next errRead errWrite e' herr =>
      obtain ⟨hpipes, rfl⟩ := Prod.mk.inj h
      obtain rfl := Except.ok.inj hpipes
      have hfirst := opened_of_openPipe hout
      have hsecond := opened_of_openPipe herr
      have hkeep : ∀ y g, e.file? y = some g → e'.file? y = some g := by
        intro y g hy
        rw [hsecond.file?, if_neg (ne_of_file?_eq_none hy hsecond.write),
          if_neg (ne_of_file?_eq_none hy hsecond.read), hy]
      have houtRead : e.file? outRead = some (.readEnd d.pipes) := by
        rw [hfirst.file?, if_neg hfirst.ne.symm, if_pos rfl]
      have houtWrite : e.file? outWrite = some (.writeEnd d.pipes) := by
        rw [hfirst.file?, if_pos rfl]
      have hreading : ∀ c, e'.file? ((⟨outRead, outWrite, errRead, errWrite⟩ : Pipes).reading c) =
          some (.readEnd (nextNumbers d c)) := by
        intro c
        cases c with
        | out => exact hkeep _ _ houtRead
        | err =>
            refine (hsecond.file? errRead).trans ?_
            rw [if_neg hsecond.ne.symm, if_pos rfl, hfirst.pipes]
            rfl
      have hwriting : ∀ c, e'.file? ((⟨outRead, outWrite, errRead, errWrite⟩ : Pipes).writing c) =
          some (.writeEnd (nextNumbers d c)) := by
        intro c
        cases c with
        | out => exact hkeep _ _ houtWrite
        | err =>
            refine (hsecond.file? errWrite).trans ?_
            rw [if_pos rfl, hfirst.pipes]
            rfl
      refine ⟨⟨hreading, hwriting⟩, ?_, fun y g hy => ?_, fun g => ?_⟩
      · rw [hsecond.pipes, hfirst.pipes]
      · refine hkeep y g ?_
        rw [hfirst.file?, if_neg (ne_of_file?_eq_none hy hfirst.write),
          if_neg (ne_of_file?_eq_none hy hfirst.read), hy]
      · rw [hsecond.content, hfirst.content]

/-- Pipes that could not be opened leave the descriptors as they were. -/
theorem opening_of_error {fault : Fault} (h : openPipes d = (.error fault, d')) :
    (∀ x, d'.file? x = d.file? x) ∧ d.pipes ≤ d'.pipes ∧ ∀ f, d'.content f = d.content f := by
  unfold openPipes at h
  split at h
  next =>
    obtain ⟨-, rfl⟩ := Prod.mk.inj h
    exact ⟨fun _ => rfl, Nat.le_refl _, fun _ => rfl⟩
  next outRead outWrite e hout =>
    split at h
    next =>
      obtain ⟨-, rfl⟩ := Prod.mk.inj h
      have hfirst := opened_of_openPipe hout
      refine ⟨fun y => ?_, ?_, fun g => ?_⟩
      · rw [file?_closeAll]
        split
        next hy =>
          rcases List.mem_pair.mp hy with rfl | rfl
          · exact hfirst.read.symm
          · exact hfirst.write.symm
        next hy =>
          obtain ⟨hread, hwrite⟩ : y ≠ outRead ∧ y ≠ outWrite := by simpa using hy
          rw [hfirst.file?, if_neg hwrite, if_neg hread]
      · rw [pipes_closeAll, hfirst.pipes]
        omega
      · rw [content_closeAll, hfirst.content]
    next => cases h

/-! ### Restoring -/

/-- A descriptor that is **restored** refers to what its copy did, and the copy is gone. -/
theorem file?_restored {copy : Nat} (hcopy : d.file? copy = some f) (target x : Nat) :
    ((d.redirect copy target).close copy).file? x =
      if x = copy then none else if x = target then some f else d.file? x := by
  rw [file?_close, file?_redirect hcopy]

/-- What a capture has saved of some channels. -/
def savedOf (channels : List Channel) (copy : Channel → Nat) : List (Nat × Nat) :=
  channels.map fun c => (c.descriptor, copy c)

theorem descriptor_injective : Function.Injective Channel.descriptor := by
  intro c c' heq
  cases c <;> cases c' <;> first | rfl | cases heq

theorem mem_channels (c : Channel) : c ∈ [Channel.out, Channel.err] := by
  cases c <;> simp

/-- The copies of what the descriptors of some channels referred to. -/
structure Copied (d : Descriptors) (files : Channel → File) (channels : List Channel)
    (copy : Channel → Nat) : Prop where
  nodup : channels.Nodup
  file? : ∀ c ∈ channels, d.file? (copy c) = some (files c)
  ne : ∀ c ∈ channels, ∀ c' : Channel, copy c ≠ c'.descriptor
  inj : ∀ c ∈ channels, ∀ c' ∈ channels, copy c = copy c' → c = c'

/-- **Restoring** some channels makes their descriptors refer to what they referred to, and changes
nothing but these and the copies. -/
theorem Copied.restore {channels : List Channel} {copy : Channel → Nat}
    (h : Copied d files channels copy) :
    (∀ c ∈ channels, (restore d (savedOf channels copy)).file? c.descriptor = some (files c)) ∧
      (∀ x, (∀ c ∈ channels, x ≠ c.descriptor ∧ x ≠ copy c) →
        (restore d (savedOf channels copy)).file? x = d.file? x) ∧
      (restore d (savedOf channels copy)).pipes = d.pipes ∧
      ∀ f, (restore d (savedOf channels copy)).content f = d.content f := by
  induction channels generalizing d with
  | nil => exact ⟨by simp, fun _ _ => rfl, rfl, fun _ => rfl⟩
  | cons c channels ih =>
      obtain ⟨hc, hnodup⟩ := List.nodup_cons.mp h.nodup
      let next := (d.redirect (copy c) c.descriptor).close (copy c)
      have hnext : ∀ x, next.file? x =
          if x = copy c then none else if x = c.descriptor then some (files c) else d.file? x :=
        file?_restored (h.file? c List.mem_cons_self) _
      have hcopied : Copied next files channels copy := by
        refine ⟨hnodup, fun c' hc' => ?_, fun c' hc' => h.ne c' (List.mem_cons_of_mem _ hc'),
          fun c' hc' c'' hc'' => h.inj c' (List.mem_cons_of_mem _ hc') c'' (List.mem_cons_of_mem _ hc'')⟩
        have hne : copy c' ≠ copy c := by
          intro heq
          have hsame := h.inj c' (List.mem_cons_of_mem _ hc') c List.mem_cons_self heq
          exact hc (hsame ▸ hc')
        rw [hnext, if_neg hne, if_neg (h.ne c' (List.mem_cons_of_mem _ hc') c),
          h.file? c' (List.mem_cons_of_mem _ hc')]
      obtain ⟨hrefer, hothers, hpipes, hcontent⟩ := ih hcopied
      refine ⟨fun c' hc' => ?_, fun x hx => ?_, ?_, fun f => ?_⟩
      · rcases List.mem_cons.mp hc' with rfl | hc'
        · have hfree : ∀ c'' ∈ channels, c'.descriptor ≠ c''.descriptor ∧ c'.descriptor ≠ copy c'' := by
            refine fun c'' hc'' => ⟨fun heq => hc ?_, (h.ne c'' (List.mem_cons_of_mem _ hc'') c').symm⟩
            exact descriptor_injective heq ▸ hc''
          refine (hothers _ hfree).trans ?_
          rw [hnext, if_neg (h.ne c' List.mem_cons_self c').symm, if_pos rfl]
        · exact hrefer c' hc'
      · obtain ⟨hdescriptor, hcopy⟩ := hx c List.mem_cons_self
        refine (hothers x fun c' hc' => hx c' (List.mem_cons_of_mem _ hc')).trans ?_
        rw [hnext, if_neg hcopy, if_neg hdescriptor]
      · exact hpipes.trans (pipes_redirect ..)
      · exact (hcontent f).trans (content_redirect ..)

/-- Restoring keeps whatever refers to neither the pipes of a capture nor what has been saved. -/
theorem Copied.file?_restore {channels : List Channel} {copy : Channel → Nat}
    (h : Copied d files channels copy)
    (hrefer : ∀ c ∈ channels, d.file? c.descriptor = some (.writeEnd (numbers c)))
    (hfiles : ∀ c, f ≠ files c) (hnumbers : ∀ c, f ≠ .writeEnd (numbers c))
    (hx : d.file? x = some f) : (Capture.restore d (savedOf channels copy)).file? x = some f := by
  obtain ⟨-, hothers, -, -⟩ := h.restore
  refine (hothers x fun c hc => ⟨?_, ?_⟩).trans hx
  · exact ne_of_file? hx (hrefer c hc) (hnumbers c)
  · exact ne_of_file? hx (h.file? c hc) (hfiles c)

/-! ### Redirecting -/

/-- Some channels have been **redirected** to the pipes, from descriptors as they were before. -/
structure Redirected (pipes : Pipes) (before d : Descriptors) (numbers : Channel → Nat)
    (files : Channel → File) (channels : List Channel) (copy : Channel → Nat) : Prop
    extends Copied d files channels copy where
  laid : pipes.Laid d numbers
  refer : ∀ c, d.file? c.descriptor =
    some (if c ∈ channels then .writeEnd (numbers c) else files c)
  keeps : ∀ x f, (∀ c, f ≠ files c) → before.file? x = some f → d.file? x = some f
  pipes : d.pipes = before.pipes
  content : ∀ f, d.content f = before.content f

variable {before : Descriptors} {channels : List Channel} {copy : Channel → Nat}

/-- Redirecting one more channel. -/
theorem Redirected.next {c : Channel} {a : Nat}
    (h : Redirected pipes before d numbers files channels copy) (hc : c ∉ channels)
    (hreal : ∀ c c', (files c).pipe? ≠ some (numbers c'))
    (hduplicate : d.duplicate c.descriptor = .ok (a, d')) :
    Redirected pipes before (d'.redirect (pipes.writing c) c.descriptor) numbers files
      (channels ++ [c]) (Function.update copy c a) := by
  obtain ⟨f, hf, hnew, hd', hpipes, hcontent⟩ := duplicate_eq_ok hduplicate
  rw [Int.toNat_natCast, h.refer c, if_neg hc] at hf
  obtain rfl := Option.some.inj hf
  have hwriting : d'.file? (pipes.writing c) = some (.writeEnd (numbers c)) := by
    rw [hd', if_neg (ne_of_file?_eq_none (h.laid.writing c) hnew), h.laid.writing c]
  have hafter : ∀ x, (d'.redirect (pipes.writing c) c.descriptor).file? x =
      if x = c.descriptor then some (.writeEnd (numbers c))
      else if x = a then some (files c) else d.file? x := by
    intro x
    rw [file?_redirect hwriting, hd']
  have hstays : ∀ x g, g ≠ files c → d.file? x = some g →
      (d'.redirect (pipes.writing c) c.descriptor).file? x = some g := by
    intro x g hg hx
    have hdescriptor : x ≠ c.descriptor := by
      refine ne_of_file? hx ((h.refer c).trans ?_) hg
      rw [if_neg hc]
    rw [hafter, if_neg hdescriptor, if_neg (ne_of_file?_eq_none hx hnew), hx]
  have hopen : ∀ c' : Channel, a ≠ c'.descriptor := fun c' =>
    (ne_of_file?_eq_none (h.refer c') hnew).symm
  have hold : ∀ c' ∈ channels, Function.update copy c a c' = copy c' := by
    intro c' hc'
    refine Function.update_of_ne ?_ ..
    rintro rfl
    exact hc hc'
  have hcopies : ∀ c' ∈ channels ++ [c], c' ∈ channels ∨ c' = c := by simp
  refine ⟨⟨?_, fun c' hc' => ?_, fun c' hc' => ?_, fun c' hc' c'' hc'' => ?_⟩, ⟨fun c' => ?_, fun c' => ?_⟩,
    fun c' => ?_, fun x g hg hx => ?_, ?_, fun g => ?_⟩
  · exact List.nodup_append.mpr ⟨h.nodup, by simp, by rintro c' hc' c'' hc'' rfl; simp_all⟩
  · rcases hcopies c' hc' with hc' | rfl
    · have hcopy := h.file? c' hc'
      rw [hold c' hc', hafter, if_neg (h.ne c' hc' c), if_neg (ne_of_file?_eq_none hcopy hnew), hcopy]
    · rw [Function.update_self, hafter, if_neg (hopen c'), if_pos rfl]
  · rcases hcopies c' hc' with hc' | rfl
    · rw [hold c' hc']
      exact h.ne c' hc'
    · rw [Function.update_self]
      exact hopen
  · rcases hcopies c' hc' with hmem | rfl <;> rcases hcopies c'' hc'' with hmem' | rfl
    · rw [hold c' hmem, hold c'' hmem']
      exact h.inj c' hmem c'' hmem'
    · rw [hold c' hmem, Function.update_self]
      exact fun heq => absurd heq (ne_of_file?_eq_none (h.file? c' hmem) hnew)
    · rw [hold c'' hmem', Function.update_self]
      exact fun heq => absurd heq.symm (ne_of_file?_eq_none (h.file? c'' hmem') hnew)
    · exact fun _ => rfl
  · exact hstays _ _ (file_ne rfl (hreal c c')) (h.laid.reading c')
  · exact hstays _ _ (file_ne rfl (hreal c c')) (h.laid.writing c')
  · by_cases hc' : c' = c
    · subst hc'
      simp [hafter]
    · have hdescriptor : c'.descriptor ≠ c.descriptor := fun heq =>
        hc' (descriptor_injective heq)
      rw [hafter, if_neg hdescriptor, if_neg (hopen c').symm, h.refer c']
      simp [hc']
  · exact hstays x g (hg c) (h.keeps x g hg hx)
  · rw [pipes_redirect, hpipes, h.pipes]
  · rw [content_redirect, hcontent, h.content]

/-- **Redirecting** several channels, one after the other: if it fails, some of them have been. -/
theorem redirectAll_spec (todo : List Channel) {fault : Option SystemFault} {saved : List (Nat × Nat)}
    (h : Redirected pipes before d numbers files channels copy)
    (hreal : ∀ c c', (files c).pipe? ≠ some (numbers c')) (hnodup : (channels ++ todo).Nodup)
    (hall : redirectAll d (savedOf channels copy)
      (todo.map fun c => ((c.descriptor : Int), pipes.writing c)) = (fault, saved, d')) :
    ∃ channels' copy', saved = savedOf channels' copy' ∧
      Redirected pipes before d' numbers files channels' copy' ∧
      (fault = none → channels' = channels ++ todo) := by
  induction todo generalizing d channels copy with
  | nil =>
      simp only [List.map_nil, redirectAll] at hall
      obtain ⟨-, hrest⟩ := Prod.mk.inj hall
      obtain ⟨rfl, rfl⟩ := Prod.mk.inj hrest
      exact ⟨channels, copy, rfl, h, fun _ => (List.append_nil _).symm⟩
  | cons c todo ih =>
      simp only [List.map_cons, redirectAll] at hall
      split at hall
      next cause hduplicate =>
        obtain ⟨rfl, hrest⟩ := Prod.mk.inj hall
        obtain ⟨rfl, rfl⟩ := Prod.mk.inj hrest
        exact ⟨channels, copy, rfl, h, by simp⟩
      next a e hduplicate =>
        have hc : c ∉ channels := fun hc => (List.nodup_append.mp hnodup).2.2 c hc c List.mem_cons_self rfl
        have hnext := h.next hc hreal hduplicate
        have hsaved : savedOf channels copy ++ [(((c.descriptor : Int)).toNat, a)] =
            savedOf (channels ++ [c]) (Function.update copy c a) := by
          simp only [savedOf, List.map_append, List.map_cons, List.map_nil, Function.update_self,
            Int.toNat_natCast]
          congr 1
          refine List.map_congr_left fun c' hc' => ?_
          rw [Function.update_of_ne]
          rintro rfl
          exact hc hc'
        rw [hsaved] at hall
        obtain ⟨channels', copy', hsaved', hredirected, hdone⟩ := ih hnext (by simpa using hnodup) hall
        exact ⟨channels', copy', hsaved', hredirected, by simpa using hdone⟩

/-! ### Captures -/

/-- The reading end of the pipe of a channel. -/
def Session.reading (session : Session) : Channel → Nat
  | .out => session.outRead
  | .err => session.errRead

/-- The capture **holds** the descriptors: they refer to its pipes, and there are copies of what they
referred to. -/
structure Session.Holds (session : Session) (d : Descriptors) (numbers : Channel → Nat)
    (files : Channel → File) : Prop where
  saved : ∃ copy, session.saved = savedOf [.out, .err] copy ∧ Copied d files [.out, .err] copy
  refer : d.Refer fun c => .writeEnd (numbers c)
  reading : ∀ c, d.file? (session.reading c) = some (.readEnd (numbers c))

/-- A capture goes on to hold the descriptors when others are opened. -/
theorem Session.Holds.mono {session : Session} (h : session.Holds d numbers files)
    (hkeep : ∀ x f, d.file? x = some f → d'.file? x = some f) : session.Holds d' numbers files := by
  obtain ⟨copy, hsaved, hcopied⟩ := h.saved
  refine ⟨⟨copy, hsaved, hcopied.nodup, fun c hc => hkeep _ _ (hcopied.file? c hc), hcopied.ne,
    hcopied.inj⟩, fun c => hkeep _ _ (h.refer c), fun c => hkeep _ _ (h.reading c)⟩

/-- What both ends of a capture do: the streams are flushed to where the descriptors refer then, and
all other pipes are spared. -/
structure Flushed (s s' : Stdio) (numbers : Channel → Nat) (files : Channel → File) : Prop where
  spares : ∀ k, (∀ c, (files c).pipe? ≠ some k) → (∀ c, numbers c ≠ k) →
    s.descriptors.Spares s'.descriptors k
  pipes : s'.descriptors.pipes = s.descriptors.pipes
  content : ∀ f, s'.descriptors.content f = s.flushAll.descriptors.content f
  held : ∀ c, s'.held c = s.flushAll.held c
  usable : ∀ c, s'.usable c = s.usable c

/-- One end of a capture right after the other: nothing is held back that could be flushed. -/
theorem Flushed.trans {s'' : Stdio} (h : Flushed s s' numbers files)
    (h' : Flushed s' s'' numbers files) : Flushed s s'' numbers files := by
  have hempty : ∀ c, s'.usable c = true → s'.held c = [] := by
    intro c hc
    rw [h.usable] at hc
    rw [h.held, Stdio.held_flushAll, if_pos hc]
  refine ⟨fun k hk hnumbers => (h.spares k hk hnumbers).trans (h'.spares k hk hnumbers),
    h'.pipes.trans h.pipes, fun f => ?_, fun c => ?_, fun c => (h'.usable c).trans (h.usable c)⟩
  · rw [h'.content, Stdio.content_flushAll_of_empty hempty, h.content]
  · rw [h'.held, Stdio.held_flushAll, ← h.held]
    split
    next hc => rw [hempty c hc]
    next => rfl

/-- It is the descriptors of the flushed process that either end of a capture changes, and nothing
else of it. -/
theorem Flushed.of_descriptors
    (hspares : ∀ k, (∀ c, (files c).pipe? ≠ some k) → (∀ c, numbers c ≠ k) →
      s.flushAll.descriptors.Spares d k)
    (hpipes : d.pipes = s.flushAll.descriptors.pipes)
    (hcontent : ∀ f, d.content f = s.flushAll.descriptors.content f) :
    Flushed s { s.flushAll with descriptors := d } numbers files where
  spares k hk hnumbers x f hf hx := hspares k hk hnumbers x f hf ((Stdio.file?_flushAll ..).trans hx)
  pipes := hpipes.trans (Stdio.pipes_flushAll s)
  content := hcontent
  held _ := Stdio.held_descriptors ..
  usable c := (Stdio.usable_descriptors ..).trans (Stdio.usable_flushAll s c)

/-- Closing one descriptor of each channel leaves the others. -/
theorem file?_closeAll_of_ne (p : Channel → Nat) (hx : ∀ c, x ≠ p c) :
    (closeAll d [p .out, p .err]).file? x = d.file? x := by
  rw [file?_closeAll, if_neg]
  intro hclosed
  rcases List.mem_pair.mp hclosed with heq | heq
  · exact hx .out heq
  · exact hx .err heq

variable {session : Session}

/-- What redirecting both channels comes to. -/
theorem redirected_of_redirectAll {fault : Option SystemFault} {saved : List (Nat × Nat)}
    (hlaid : pipes.Laid d numbers) (hrefer : d.Refer files)
    (hreal : ∀ c c', (files c).pipe? ≠ some (numbers c'))
    (hall : redirectAll d [] [(1, pipes.outWrite), (2, pipes.errWrite)] = (fault, saved, d')) :
    ∃ channels copy, saved = savedOf channels copy ∧
      Redirected pipes d d' numbers files channels copy ∧
      (fault = none → channels = [.out, .err]) := by
  have hstart : Redirected pipes d d numbers files [] (fun _ => 0) :=
    ⟨⟨List.nodup_nil, by simp, by simp, by simp⟩, hlaid, fun c => by simpa using hrefer c,
      fun _ _ _ hx => hx, rfl, fun _ => rfl⟩
  exact redirectAll_spec [.out, .err] hstart hreal (by decide) hall

/-- **Redirecting** the descriptors: the capture holds them. -/
theorem holds_of_redirect (hlaid : pipes.Laid s.descriptors numbers) (hrefer : s.descriptors.Refer files)
    (hreal : ∀ c c', (files c).pipe? ≠ some (numbers c'))
    (h : redirect {} pipes s = (.ok session, s')) :
    session.Holds s'.descriptors numbers files ∧ Flushed s s' numbers files := by
  have hlaid' : pipes.Laid s.flushAll.descriptors numbers :=
    hlaid.spared fun _ => .of_eq fun _ => Stdio.file?_flushAll ..
  have hrefer' := hrefer.flushAll
  unfold redirect at h
  dsimp only at h
  split at h
  next => cases h
  next saved d hall =>
    obtain ⟨hsession, rfl⟩ := Prod.mk.inj h
    obtain rfl := Except.ok.inj hsession
    obtain ⟨channels, copy, rfl, hredirected, hdone⟩ :=
      redirected_of_redirectAll hlaid' hrefer' hreal hall
    obtain rfl := hdone rfl
    have hstays : ∀ x f, (∀ c, f ≠ .writeEnd (numbers c)) → d.file? x = some f →
        (closeAll d [pipes.outWrite, pipes.errWrite]).file? x = some f := by
      intro x f hf hx
      have hopen : ∀ c, x ≠ pipes.writing c := fun c => ne_of_file? hx (hredirected.laid.writing c) (hf c)
      exact (file?_closeAll_of_ne pipes.writing hopen).trans hx
    refine ⟨⟨⟨copy, rfl, hredirected.nodup, fun c hc => hstays _ _ ?_ (hredirected.file? c hc),
      hredirected.ne, hredirected.inj⟩, fun c => ?_, fun c => ?_⟩,
      .of_descriptors (fun k hk hnumbers x f hf hx => ?_) ?_ fun f => ?_⟩
    · exact fun c' => (file_ne rfl (hreal c c')).symm
    · have hopen : ∀ c', c.descriptor ≠ pipes.writing c' := fun c' =>
        ne_of_file? (hrefer' c) (hlaid'.writing c') (file_ne rfl (hreal c c')).symm
      refine (file?_closeAll_of_ne pipes.writing hopen).trans ?_
      rw [hredirected.refer c, if_pos (mem_channels c)]
    · refine hstays _ _ (fun c' => by simp) ?_
      have hreading := hredirected.laid.reading c
      cases c <;> exact hreading
    · refine hstays x f (fun c => ?_) (hredirected.keeps x f (fun c => file_ne hf (hk c)) hx)
      exact file_ne hf fun heq => hnumbers c (Option.some.inj heq)
    · rw [pipes_closeAll, hredirected.pipes]
    · rw [content_closeAll, hredirected.content]

/-- Descriptors that could not be redirected are restored. -/
theorem redirecting_of_error {fault : Fault} (hlaid : pipes.Laid s.descriptors numbers)
    (hrefer : s.descriptors.Refer files) (hreal : ∀ c c', (files c).pipe? ≠ some (numbers c'))
    (h : redirect {} pipes s = (.error fault, s')) :
    s'.descriptors.Refer files ∧ Flushed s s' numbers files := by
  have hlaid' : pipes.Laid s.flushAll.descriptors numbers :=
    hlaid.spared fun _ => .of_eq fun _ => Stdio.file?_flushAll ..
  have hrefer' := hrefer.flushAll
  unfold redirect at h
  dsimp only at h
  split at h
  next cause saved d hall =>
    obtain ⟨-, rfl⟩ := Prod.mk.inj h
    obtain ⟨channels, copy, rfl, hredirected, -⟩ :=
      redirected_of_redirectAll hlaid' hrefer' hreal hall
    obtain ⟨hback, hothers, hpipes, hcontent⟩ := hredirected.restore
    have hends : ∀ x ∈ [pipes.outRead, pipes.outWrite, pipes.errRead, pipes.errWrite],
        ∃ f c, f.pipe? = some (numbers c) ∧ s.flushAll.descriptors.file? x = some f ∧
          d.file? x = some f := by
      intro x hx
      simp only [List.mem_cons, List.not_mem_nil, or_false] at hx
      rcases hx with rfl | rfl | rfl | rfl
      · exact ⟨_, .out, rfl, hlaid'.reading .out, hredirected.laid.reading .out⟩
      · exact ⟨_, .out, rfl, hlaid'.writing .out, hredirected.laid.writing .out⟩
      · exact ⟨_, .err, rfl, hlaid'.reading .err, hredirected.laid.reading .err⟩
      · exact ⟨_, .err, rfl, hlaid'.writing .err, hredirected.laid.writing .err⟩
    refine ⟨fun c => ?_, .of_descriptors (fun k hk hnumbers x f hf hx => ?_) ?_ fun f => ?_⟩
    · rw [file?_closeAll, if_neg]
      · by_cases hc : c ∈ channels
        · exact hback c hc
        · refine (hothers _ fun c' hc' => ⟨fun heq => hc ?_, (hredirected.ne c' hc' c).symm⟩).trans ?_
          · exact descriptor_injective heq ▸ hc'
          · rw [hredirected.refer c, if_neg hc]
      · intro hclosed
        obtain ⟨f, c', hf, hx, -⟩ := hends _ hclosed
        exact hreal c c' (Option.some.inj (hx.symm.trans (hrefer' c)) ▸ hf)
    · have hfiles : ∀ c, f ≠ files c := fun c => file_ne hf (hk c)
      have hwritten : ∀ c ∈ channels, d.file? c.descriptor = some (.writeEnd (numbers c)) := by
        intro c hc
        rw [hredirected.refer c, if_pos hc]
      have hkept : d.file? x = some f := hredirected.keeps x f hfiles hx
      rw [file?_closeAll, if_neg]
      · refine hredirected.file?_restore hwritten hfiles (fun c => ?_) hkept
        exact file_ne hf fun heq => hnumbers c (Option.some.inj heq)
      · intro hclosed
        obtain ⟨g, c, hg, -, hx'⟩ := hends _ hclosed
        obtain rfl := Option.some.inj (hkept.symm.trans hx')
        exact hnumbers c (Option.some.inj (hg.symm.trans hf))
    · rw [pipes_closeAll, hpipes, hredirected.pipes]
    · rw [content_closeAll, hcontent, hredirected.content]
  next => cases h

/-- The text that was captured from a channel. -/
def Captured.text (captured : Captured) : Channel → String
  | .out => captured.stdout
  | .err => captured.stderr

/-- **The end of a capture**: the descriptors are restored, and the text is what has been written to
the pipes, after the streams have been flushed. -/
theorem finish_spec {captured : Captured} (hholds : session.Holds s.descriptors numbers files)
    (hreal : ∀ c c', (files c).pipe? ≠ some (numbers c'))
    (h : finish session s = (captured, s')) :
    s'.descriptors.Refer files ∧ Flushed s s' numbers files ∧
      ∀ c, captured.text c =
        Utf8.decodeString (s.flushAll.descriptors.content (.writeEnd (numbers c))) := by
  have hholds' : session.Holds s.flushAll.descriptors numbers files :=
    hholds.mono fun _ _ hx => (Stdio.file?_flushAll ..).trans hx
  obtain ⟨copy, hsaved, hcopied⟩ := hholds'.saved
  obtain ⟨hback, -, hpipes, hcontent⟩ := hcopied.restore
  have hrestored : ∀ x f, (∀ c, f ≠ files c) → (∀ c, f ≠ .writeEnd (numbers c)) →
      s.flushAll.descriptors.file? x = some f →
      (restore s.flushAll.descriptors session.saved).file? x = some f := by
    intro x f hfiles hnumbers hx
    rw [hsaved]
    exact hcopied.file?_restore (fun c _ => hholds'.refer c) hfiles hnumbers hx
  have hreading : ∀ c, (restore s.flushAll.descriptors session.saved).file? (session.reading c) =
      some (.readEnd (numbers c)) := fun c =>
    hrestored _ _ (fun c' => file_ne rfl (hreal c' c)) (fun c' => by simp) (hholds'.reading c)
  rw [← hsaved] at hback hpipes hcontent
  obtain ⟨rfl, rfl⟩ := Prod.mk.inj h
  refine ⟨fun c => ?_, .of_descriptors (fun k hk hnumbers x f hf hx => ?_) ?_ fun f => ?_, fun c => ?_⟩
  · have hopen : ∀ c', c.descriptor ≠ session.reading c' := fun c' =>
      ne_of_file? (hback c (mem_channels c)) (hreading c') (file_ne rfl (hreal c c')).symm
    exact (file?_closeAll_of_ne session.reading hopen).trans (hback c (mem_channels c))
  · have hpipe : ∀ c, some k ≠ some (numbers c) := fun c heq =>
      hnumbers c (Option.some.inj heq).symm
    have hkept := hrestored x f (fun c => file_ne hf (hk c)) (fun c => file_ne hf (hpipe c).symm) hx
    have hopen : ∀ c, x ≠ session.reading c := fun c =>
      ne_of_file? hkept (hreading c) (file_ne hf (hpipe c).symm)
    exact (file?_closeAll_of_ne session.reading hopen).trans hkept
  · rw [pipes_closeAll, hpipes]
  · rw [content_closeAll, hcontent]
  · have hread : (restore s.flushAll.descriptors session.saved).readAll (session.reading c) =
        s.flushAll.descriptors.content (.writeEnd (numbers c)) := by
      rw [readAll, hreading c]
      exact hcontent _
    cases c <;> exact congrArg Utf8.decodeString hread

end Capture

end JanetEmbedding
