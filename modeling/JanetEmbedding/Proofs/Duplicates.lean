import JanetEmbedding.Proofs.Plumbing

/-!
# Duplicates of the descriptors

Whoever has something to say while an evaluation holds the descriptors says it through duplicates of
them that were made before. A duplicate refers to the very file that a capture saves and restores, so
the laws of pipes do not tell it apart. It stands apart by its number: a capture touches the two
descriptors, the ends of its pipes and the copies that it makes itself, and a copy is never made under a
number that is in use.

## Main definitions

* `Descriptors.Doubled`: descriptors with a duplicate of each.
* `Phase.Avoids`: what a worker is going to redirect or close is not a given descriptor.
* `Host.Apart`: a descriptor that no worker touches.

## Main results

* `Descriptors.exists_doubled`: descriptors can be doubled.
* `Host.Does.apart`: whatever a worker does, a descriptor that stands apart refers to the same file.
-/

namespace JanetEmbedding

open Interpreter (Program)
open Capture (Pipes Session)

namespace Descriptors

theorem file?_redirect_of_ne (d : Descriptors) {source target x : Nat} (hne : x ≠ target) :
    (d.redirect source target).file? x = d.file? x := by
  unfold redirect
  split
  · rw [file?_assign, if_neg hne]
  · rfl

/-- There is another descriptor for the file of one that is open, if the system does not refuse it. -/
theorem exists_duplicate {d : Descriptors} {fd : Nat} {f : File} (hopen : d.file? fd = some f)
    (hwilling : d.refusal.duplicate = none) :
    ∃ copy d', d.duplicate fd = .ok (copy, d') ∧ d'.refusal.duplicate = none := by
  have hcount : countDown d.refusal.duplicate = (false, none) := by rw [hwilling]; rfl
  have hnatural : ¬ ((fd : Int) < 0) := by omega
  simp only [duplicate, hcount, Bool.false_eq_true, if_false, hnatural, Int.toNat_natCast, hopen]
  exact ⟨_, _, rfl, rfl⟩

/-- The descriptors of the two channels **doubled**: there is a duplicate of each, and nothing else has
changed. -/
structure Doubled (d d' : Descriptors) (files : Channel → File) (duplicates : Channel → Nat) : Prop where
  refer : d'.Refer files
  copies : ∀ c, d'.file? (duplicates c) = some (files c)
  ne : ∀ c c' : Channel, duplicates c ≠ c'.descriptor
  pipes : d'.pipes = d.pipes
  content : ∀ f, d'.content f = d.content f

/-- They can be doubled, if the system does not refuse it. -/
theorem exists_doubled {d : Descriptors} {files : Channel → File} (hrefer : d.Refer files)
    (hwilling : d.refusal.duplicate = none) :
    ∃ out err d₁ d₂, d.duplicate (Channel.out.descriptor : Nat) = .ok (out, d₁) ∧
      d₁.duplicate (Channel.err.descriptor : Nat) = .ok (err, d₂) ∧
      d.Doubled d₂ files fun | .out => out | .err => err := by
  obtain ⟨out, d₁, hout, hwilling₁⟩ := exists_duplicate (hrefer .out) hwilling
  obtain ⟨f, hf, hnew, hfile, hpipes, hcontent⟩ := duplicate_eq_ok hout
  obtain rfl : f = files .out := Option.some.inj (hf.symm.trans (hrefer .out))
  have hrefer₁ : d₁.Refer files := fun c => by
    rw [hfile, if_neg (ne_of_file?_eq_none (hrefer c) hnew), hrefer c]
  have hcopy : d₁.file? out = some (files .out) := by rw [hfile, if_pos rfl]
  obtain ⟨err, d₂, herr, -⟩ := exists_duplicate (hrefer₁ .err) hwilling₁
  obtain ⟨g, hg, hnew', hfile', hpipes', hcontent'⟩ := duplicate_eq_ok herr
  obtain rfl : g = files .err := Option.some.inj (hg.symm.trans (hrefer₁ .err))
  refine ⟨out, err, d₁, d₂, hout, herr, fun c => ?_, fun c => ?_, fun c c' => ?_,
    hpipes'.trans hpipes, fun f => (hcontent' f).trans (hcontent f)⟩
  · rw [hfile', if_neg (ne_of_file?_eq_none (hrefer₁ c) hnew'), hrefer₁ c]
  · cases c with
    | out => rw [hfile', if_neg (ne_of_file?_eq_none hcopy hnew'), hcopy]
    | err => rw [hfile', if_pos rfl]
  · cases c with
    | out => exact (ne_of_file?_eq_none (hrefer c') hnew).symm
    | err => exact (ne_of_file?_eq_none (hrefer₁ c') hnew').symm

end Descriptors

/-! ### Captures -/

namespace Capture

open Descriptors

variable {d d' : Descriptors} {s s' : Stdio} {saved saved' : List (Nat × Nat)} {f : File} {x : Nat}

/-- What has been saved **avoids** a descriptor: it is none of those that are redirected, and no copy. -/
def Avoiding (saved : List (Nat × Nat)) (x : Nat) : Prop := ∀ entry ∈ saved, x ≠ entry.1 ∧ x ≠ entry.2

/-- Redirecting changes nothing but the targets, and makes copies under new numbers. -/
theorem redirectAll_apart {todo : List (Int × Nat)} {fault : Option SystemFault}
    (hx : d.file? x = some f) (htargets : ∀ entry ∈ todo, x ≠ entry.1.toNat) (hsaved : Avoiding saved x)
    (hall : redirectAll d saved todo = (fault, saved', d')) :
    d'.file? x = some f ∧ Avoiding saved' x := by
  induction todo generalizing d saved with
  | nil =>
      obtain ⟨-, hrest⟩ := Prod.mk.inj hall
      obtain ⟨rfl, rfl⟩ := Prod.mk.inj hrest
      exact ⟨hx, hsaved⟩
  | cons entry todo ih =>
      obtain ⟨target, writing⟩ := entry
      have htarget : x ≠ target.toNat := htargets (target, writing) List.mem_cons_self
      simp only [redirectAll] at hall
      split at hall
      next cause hduplicate =>
        obtain ⟨-, hrest⟩ := Prod.mk.inj hall
        obtain ⟨rfl, rfl⟩ := Prod.mk.inj hrest
        exact ⟨hx, hsaved⟩
      next copy e hduplicate =>
        obtain ⟨g, -, hnew, hafter, -⟩ := duplicate_eq_ok hduplicate
        have hcopy : x ≠ copy := ne_of_file?_eq_none hx hnew
        refine ih ?_ (fun entry hentry => htargets entry (List.mem_cons_of_mem _ hentry)) ?_ hall
        · rw [file?_redirect_of_ne _ htarget, hafter, if_neg hcopy, hx]
        · intro entry hentry
          rcases List.mem_append.mp hentry with hentry | hentry
          · exact hsaved entry hentry
          · obtain rfl := List.mem_singleton.mp hentry
            exact ⟨htarget, hcopy⟩

/-- Restoring changes nothing but what has been saved. -/
theorem file?_restore_apart (hsaved : Avoiding saved x) : (restore d saved).file? x = d.file? x := by
  induction saved generalizing d with
  | nil => rfl
  | cons entry saved ih =>
      obtain ⟨target, copy⟩ := entry
      obtain ⟨htarget, hcopy⟩ := hsaved (target, copy) List.mem_cons_self
      have hrest := ih (d := (d.redirect copy target).close copy) fun entry hentry =>
        hsaved entry (List.mem_cons_of_mem _ hentry)
      rw [file?_close, if_neg hcopy, file?_redirect_of_ne _ htarget] at hrest
      exact hrest

theorem file?_closeAll_apart {fds : List Nat} (hfds : x ∉ fds) :
    (closeAll d fds).file? x = d.file? x := by
  rw [file?_closeAll, if_neg hfds]

/-- Redirecting the descriptors, whether or not it succeeds. -/
theorem redirect_apart {pipes : Pipes} {result : Except Fault Session}
    (hx : s.descriptors.file? x = some f) (hne : ∀ c : Channel, x ≠ c.descriptor)
    (hpipes : x ∉ [pipes.outRead, pipes.outWrite, pipes.errRead, pipes.errWrite])
    (h : redirect {} pipes s = (result, s')) :
    s'.descriptors.file? x = some f ∧ ∀ session, result = .ok session →
      Avoiding session.saved x ∧ x ∉ [session.outRead, session.errRead] := by
  have htargets : ∀ entry ∈ [((1 : Int), pipes.outWrite), (2, pipes.errWrite)], x ≠ entry.1.toNat := by
    intro entry hentry
    rcases List.mem_pair.mp hentry with rfl | rfl
    · exact hne .out
    · exact hne .err
  have hstart : s.flushAll.descriptors.file? x = some f := (Stdio.file?_flushAll ..).trans hx
  unfold redirect at h
  dsimp only at h
  split at h
  next cause saved d hall =>
    obtain ⟨rfl, rfl⟩ := Prod.mk.inj h
    obtain ⟨hd, hsaved⟩ := redirectAll_apart hstart htargets (by simp [Avoiding]) hall
    refine ⟨?_, by simp⟩
    rw [file?_closeAll_apart hpipes, file?_restore_apart hsaved, hd]
  next saved d hall =>
    obtain ⟨rfl, rfl⟩ := Prod.mk.inj h
    obtain ⟨hd, hsaved⟩ := redirectAll_apart hstart htargets (by simp [Avoiding]) hall
    refine ⟨?_, ?_⟩
    · rw [file?_closeAll_apart (by simp_all), hd]
    · rintro session ⟨⟩
      exact ⟨hsaved, by simp_all⟩

/-- The end of a capture. -/
theorem finish_apart {session : Session} {captured : Captured} (hx : s.descriptors.file? x = some f)
    (hsaved : Avoiding session.saved x) (hread : x ∉ [session.outRead, session.errRead])
    (h : finish session s = (captured, s')) : s'.descriptors.file? x = some f := by
  obtain ⟨-, rfl⟩ := Prod.mk.inj h
  exact (file?_closeAll_apart hread).trans
    ((file?_restore_apart hsaved).trans ((Stdio.file?_flushAll ..).trans hx))

end Capture

/-! ### Workers -/

/-- What a worker is going to redirect or to close **avoids** a descriptor. -/
def Phase.Avoids (x : Nat) : Phase → Prop
  | waiting _ pipes _ => x ∉ [pipes.outRead, pipes.outWrite, pipes.errRead, pipes.errWrite]
  | evaluating _ session _ =>
      Capture.Avoiding session.saved x ∧ x ∉ [session.outRead, session.errRead]
  | _ => True

/-- A worker that handles nothing redirects and closes nothing. -/
theorem Phase.avoids_of_idle {p : Phase} (hidle : p.request? = none) (x : Nat) : p.Avoids x := by
  cases p with
  | waiting | evaluating => cases hidle
  | created | serving | stopped | failed => trivial

namespace Host

variable {h h' : Host} {x w : Nat} {f : File} {worker : Worker}

/-- A descriptor stands **apart**: it refers to a file, and no worker is going to touch it. -/
structure Apart (h : Host) (x : Nat) (f : File) : Prop where
  file? : h.stdio.descriptors.file? x = some f
  ne : ∀ c : Channel, x ≠ c.descriptor
  avoided : ∀ w p, h.phase? w = some p → p.Avoids x

namespace Apart

/-- It goes on to do so when others begin to handle nothing. -/
theorem idle (hapart : Apart h x f) (hfile : h'.stdio.descriptors.file? x = h.stdio.descriptors.file? x)
    (hphases : ∀ v, h'.phase? v = h.phase? v ∨ ∃ p, h'.phase? v = some p ∧ p.request? = none) :
    Apart h' x f := by
  refine ⟨hfile.trans hapart.file?, hapart.ne, fun v p hp => ?_⟩
  rcases hphases v with hsame | ⟨q, hq, hidle⟩
  · exact hapart.avoided v p (hsame.symm.trans hp)
  · obtain rfl := Option.some.inj (hq.symm.trans hp)
    exact Phase.avoids_of_idle hidle x

/-- It goes on to do so when one worker avoids it in what that worker does next. -/
theorem step {p : Phase} (hapart : Apart h x f) (hfile : h'.stdio.descriptors.file? x = some f)
    (hothers : ∀ v, v ≠ w → h'.phase? v = h.phase? v) (hp : h'.phase? w = some p) (hp' : p.Avoids x) :
    Apart h' x f := by
  refine ⟨hfile, hapart.ne, fun v q hq => ?_⟩
  by_cases hv : v = w
  · subst hv
    obtain rfl := Option.some.inj (hp.symm.trans hq)
    exact hp'
  · exact hapart.avoided v q ((hothers v hv).symm.trans hq)

end Apart

/-- How a request comes to its result leaves what stands apart alone. -/
theorem Ends.file?_apart {r : Nat} {path : Option Text} {request : Request} {p : Phase} {y : Result}
    {stdio : Stdio} {calls : List Interpreter.Call} (hapart : Apart h x f) (hp : p.Avoids x)
    (hr : p.request? = some r) (hends : Ends h path request p y stdio calls) :
    stdio.descriptors.file? x = some f := by
  cases hends with
  | @unredirected r pipes refusal g stdio hholder hredirect =>
      exact (Capture.redirect_apart (s := h.stdio.refusing refusal) hapart.file? hapart.ne hp hredirect).1
  | @unencoded r pipes refusal session stdio g hholder hredirect =>
      obtain ⟨hfile, hsession⟩ :=
        Capture.redirect_apart (s := h.stdio.refusing refusal) hapart.file? hapart.ne hp hredirect
      obtain ⟨hsaved, hread⟩ := hsession session rfl
      exact Capture.finish_apart (s := stdio.refusing {}) hfile hsaved hread rfl
  | @concluded r session p captured stdio hfinish =>
      exact Capture.finish_apart ((Stdio.file?_applyAll ..).trans hapart.file?) hp.1 hp.2 hfinish

/-- **Whatever a worker does, a descriptor that stands apart goes on to do so**, provided that it refers
to no end of a pipe. -/
theorem Does.apart (hdoes : Does h w worker h') (hworker : h.workers[w]? = some worker)
    (hapart : Apart h x f) (hf : f.pipe? = none) : Apart h' x f := by
  have hmine : worker.phase.Avoids x := hapart.avoided w _ (by simp [phase?, hworker])
  have hothers : ∀ v, v ≠ w → h'.phase? v = h.phase? v := by
    obtain ⟨g, hworkers⟩ := hdoes.workers_eq
    exact fun v hne => phase?_modify_of_ne hne hworkers
  cases hdoes with
  | leave => exact hapart.step hapart.file? hothers (w := w) (p := .stopped) (by simp [phase?, hworker]) trivial
  | pass log hphase =>
      exact hapart.step hapart.file? hothers (w := w) (p := .serving) (by simp [phase?, hworker, hphase]) trivial
  | @refuse r rest fault d log hphase hqueue hprogress hpipes =>
      obtain ⟨hfile, -⟩ := Capture.opening_of_error hpipes
      exact hapart.step ((hfile x).trans hapart.file?) hothers (w := w) (p := .serving)
        (by simp [phase?, hworker]) trivial
  | @pickUp r rest pipes d hphase hqueue hprogress hpipes =>
      obtain ⟨hlaid, -, hkeep, -⟩ := Capture.laid_of_openPipes hpipes
      have hx : d.file? x = some f := hkeep x f hapart.file?
      have hends : ∀ {y : Nat} {g : File} {n : Nat}, d.file? y = some g → g.pipe? = some n → x ≠ y := by
        intro y g n hy hg
        refine Descriptors.ne_of_file? hx hy ?_
        rintro rfl
        cases hf.symm.trans hg
      refine hapart.step hx hothers (w := w) (p := .waiting r pipes d.refusal) (by simp [phase?, hworker]) ?_
      simp only [Phase.Avoids, List.mem_cons, List.not_mem_nil, or_false, not_or]
      exact ⟨hends (hlaid.reading .out) rfl, hends (hlaid.writing .out) rfl,
        hends (hlaid.reading .err) rfl, hends (hlaid.writing .err) rfl⟩
  | @evaluate r pipes refusal request session stdio source path p hphase hrequest hholder hredirect =>
      rw [hphase] at hmine
      obtain ⟨hfile, hsession⟩ :=
        Capture.redirect_apart (s := h.stdio.refusing refusal) hapart.file? hapart.ne hmine hredirect
      exact hapart.step ((Stdio.file?_applyAll ..).trans hfile) hothers (w := w)
        (p := .evaluating r session p) (by simp [phase?, hworker]) (hsession session rfl)
  | @finish r request y stdio calls log hr hrequest hends =>
      exact hapart.step (hends.file?_apart hapart hmine hr) hothers (w := w) (p := .serving)
        (by simp [phase?, hworker]) trivial

end Host

end JanetEmbedding
