import JanetEmbedding.Capture.Session
import Mathlib.Data.List.Perm.Subperm

/-!
# The laws of descriptors and streams

What the calls of the system and the writes of a process do, said of two views of it: what each
descriptor refers to, and what has been written to each file. A stream has a third one, which is
what it holds back.

## Conventions

* The **pipe** of a file is the one that it is an end of. Two files of different pipes are different,
  so most descriptors are told apart by what they refer to.

## Main definitions

* `File.pipe?`: the pipe of a file.
* `Descriptors.Opened`: what opening a pipe comes to.
* `Write.direct`, `Write.held`: the part of a write that reaches its descriptor at once, and the part
  that does not.

## Main results

* `Descriptors.file?_free`: a new descriptor is none that is open.
* `Stdio.content_applyAll`, `Stdio.held_applyAll`: writing.
* `Stdio.content_flushAll`, `Stdio.held_flushAll`: flushing.
-/

namespace JanetEmbedding

/-- The **pipe** that a file is an end of. -/
def File.pipe? : File → Option Nat
  | readEnd n => some n
  | writeEnd n => some n
  | _ => none

namespace Descriptors

/-! ### What descriptors refer to -/

/-- Looking a number up in a table with one more entry. -/
theorem lookup_cons (x y : Nat) (f : File) (table : List (Nat × File)) :
    ((y, f) :: table).lookup x = if x = y then some f else table.lookup x := by
  rw [List.lookup_cons]
  by_cases hx : x = y
  · rw [beq_iff_eq.mpr hx, if_pos hx]
  · rw [beq_eq_false_iff_ne.mpr hx, if_neg hx]

/-- Looking up what is left when one number has been taken out. -/
theorem lookup_filter_ne (table : List (Nat × File)) (fd x : Nat) :
    (table.filter (·.1 != fd)).lookup x = if x = fd then none else table.lookup x := by
  induction table with
  | nil => simp
  | cons entry table ih =>
      obtain ⟨y, f⟩ := entry
      by_cases hy : y = fd
      · subst hy
        rw [List.filter_cons_of_neg (by simp), ih, lookup_cons]
        by_cases hx : x = y <;> simp [hx]
      · rw [List.filter_cons_of_pos (by simpa using hy), lookup_cons, lookup_cons, ih]
        by_cases hx : x = y
        · subst hx
          simp [hy]
        · simp [hx]

@[simp] theorem file?_assign (d : Descriptors) (fd : Nat) (f : File) (x : Nat) :
    (d.assign fd f).file? x = if x = fd then some f else d.file? x := by
  simp only [file?, assign, lookup_cons, lookup_filter_ne]
  by_cases hx : x = fd <;> simp [hx]

@[simp] theorem file?_close (d : Descriptors) (fd x : Nat) :
    (d.close fd).file? x = if x = fd then none else d.file? x :=
  lookup_filter_ne d.table fd x

@[simp] theorem file?_write (d : Descriptors) (fd : Nat) (bytes : List UInt8) (x : Nat) :
    (d.write fd bytes).file? x = d.file? x := by
  unfold write
  split <;> rfl

theorem file?_redirect {d : Descriptors} {source : Nat} {f : File} (hsource : d.file? source = some f)
    (target x : Nat) :
    (d.redirect source target).file? x = if x = target then some f else d.file? x := by
  simp [redirect, hsource]

@[simp] theorem pipes_redirect (d : Descriptors) (source target : Nat) :
    (d.redirect source target).pipes = d.pipes := by
  unfold redirect
  split <;> rfl

@[simp] theorem pipes_write (d : Descriptors) (fd : Nat) (bytes : List UInt8) :
    (d.write fd bytes).pipes = d.pipes := by
  unfold write
  split <;> rfl

/-! ### New descriptors -/

/-- The search for a number that is free finds one, or has met open descriptors all the way. -/
theorem freeFrom_spec (table : List (Nat × File)) (fuel n : Nat) :
    table.lookup (freeFrom table fuel n) = none ∨
      freeFrom table fuel n = n + fuel ∧ ∀ k < fuel, (table.lookup (n + k)).isSome := by
  induction fuel generalizing n with
  | zero => exact .inr ⟨rfl, by simp⟩
  | succ fuel ih =>
      unfold freeFrom
      cases hopen : table.lookup n with
      | none => simp [hopen]
      | some f =>
          rw [if_pos (by simp)]
          rcases ih (n + 1) with hfree | ⟨heq, hall⟩
          · exact .inl hfree
          · refine .inr ⟨by omega, fun k hk => ?_⟩
            rcases k with _ | k
            · simp [hopen]
            · have hnext := hall k (by omega)
              rwa [Nat.add_assoc, Nat.add_comm 1 k] at hnext

/-- A number that is looked up with success is one of the table. -/
theorem mem_of_isSome_lookup {table : List (Nat × File)} {x : Nat} (h : (table.lookup x).isSome) :
    x ∈ table.map (·.1) := by
  induction table with
  | nil => simp at h
  | cons entry table ih =>
      obtain ⟨y, f⟩ := entry
      rw [List.map_cons, List.mem_cons]
      rw [lookup_cons] at h
      split at h
      next hx => exact .inl hx
      next => exact .inr (ih h)

/-- **A new descriptor is none that is open.** A table of so many entries cannot have all the numbers
up to there. -/
theorem file?_free (d : Descriptors) : d.file? d.free = none := by
  rcases freeFrom_spec d.table d.table.length 0 with hfree | ⟨heq, hall⟩
  · exact hfree
  · by_contra hopen
    have hlast : (d.table.lookup d.table.length).isSome := by
      have heq' : d.free = d.table.length := by simpa [free] using heq
      rw [← heq']
      exact Option.isSome_iff_ne_none.mpr hopen
    have hsubset : List.range (d.table.length + 1) ⊆ d.table.map (·.1) := by
      intro k hk
      refine mem_of_isSome_lookup ?_
      rcases Nat.lt_or_ge k d.table.length with hlt | hge
      · simpa using hall k hlt
      · obtain rfl : k = d.table.length := by
          have := List.mem_range.mp hk
          omega
        exact hlast
    have hlength := (List.subperm_of_subset List.nodup_range hsubset).length_le
    simp only [List.length_range, List.length_map] at hlength
    omega

/-! ### What has been written -/

/-- The pieces that have been written to a file are put together in their order. -/
theorem foldl_content (f : File) (written : List (File × List UInt8)) (out : List UInt8) :
    written.foldl (fun out (g, bytes) => if g = f then bytes ++ out else out) out =
      written.foldl (fun out (g, bytes) => if g = f then bytes ++ out else out) [] ++ out := by
  induction written generalizing out with
  | nil => rfl
  | cons piece written ih =>
      obtain ⟨g, bytes⟩ := piece
      simp only [List.foldl_cons]
      by_cases hg : g = f
      · rw [if_pos hg, if_pos hg, ih (bytes ++ out), ih (bytes ++ []), List.append_nil,
          List.append_assoc]
      · rw [if_neg hg, if_neg hg, ih out]

theorem content_write (d : Descriptors) (fd : Nat) (bytes : List UInt8) (f : File) :
    (d.write fd bytes).content f = d.content f ++ if d.file? fd = some f then bytes else [] := by
  unfold write
  cases hfile : d.file? fd with
  | none => simp
  | some g =>
      simp only [content, List.foldl_cons, Option.some.injEq]
      by_cases hg : g = f
      · rw [if_pos hg, if_pos hg, foldl_content, List.append_nil]
      · rw [if_neg hg, if_neg hg, List.append_nil]

@[simp] theorem content_assign (d : Descriptors) (fd : Nat) (f g : File) :
    (d.assign fd f).content g = d.content g := rfl

@[simp] theorem content_close (d : Descriptors) (fd : Nat) (f : File) :
    (d.close fd).content f = d.content f := rfl

@[simp] theorem content_redirect (d : Descriptors) (source target : Nat) (f : File) :
    (d.redirect source target).content f = d.content f := by
  unfold redirect
  split <;> rfl

/-! ### Opening and duplicating -/

/-- What opening a pipe **comes to**: two new descriptors, for the ends of a new pipe. -/
structure Opened (d : Descriptors) (readFd writeFd : Nat) (d' : Descriptors) : Prop where
  read : d.file? readFd = none
  write : d.file? writeFd = none
  ne : writeFd ≠ readFd
  file? : ∀ x, d'.file? x = if x = writeFd then some (.writeEnd d.pipes)
    else if x = readFd then some (.readEnd d.pipes) else d.file? x
  pipes : d'.pipes = d.pipes + 1
  content : ∀ f, d'.content f = d.content f

theorem opened_of_openPipe {d d' : Descriptors} {readFd writeFd : Nat}
    (h : d.openPipe = .ok ((readFd, writeFd), d')) : Opened d readFd writeFd d' := by
  rcases hcount : countDown d.refusal.pipe with ⟨refused, next⟩
  cases refused with
  | true => simp [openPipe, hcount] at h
  | false =>
      let more : Descriptors :=
        { d with pipes := d.pipes + 1, refusal := { d.refusal with pipe := next } }
      have hread : more.file? more.free = none := more.file?_free
      let half := more.assign more.free (.readEnd d.pipes)
      have hhalf : (if half.free = more.free then some (File.readEnd d.pipes)
          else more.file? half.free) = none :=
        (file?_assign more more.free (.readEnd d.pipes) half.free).symm.trans half.file?_free
      have hne : half.free ≠ more.free := fun heq => by simp [heq] at hhalf
      have hwrite : more.file? half.free = none := by simpa [hne] using hhalf
      simp only [openPipe, hcount, Bool.false_eq_true, if_false] at h
      obtain ⟨hends, rfl⟩ := Prod.mk.inj (Except.ok.inj h)
      obtain ⟨rfl, rfl⟩ := Prod.mk.inj hends
      exact ⟨hread, hwrite, hne, fun x => by rw [file?_assign, file?_assign]; rfl, rfl, fun _ => rfl⟩

/-- Duplicating a descriptor gives a new one for the same file. -/
theorem duplicate_eq_ok {d d' : Descriptors} {fd : Int} {copy : Nat}
    (h : d.duplicate fd = .ok (copy, d')) :
    ∃ f, d.file? fd.toNat = some f ∧ d.file? copy = none ∧
      (∀ x, d'.file? x = if x = copy then some f else d.file? x) ∧ d'.pipes = d.pipes ∧
      ∀ g, d'.content g = d.content g := by
  rcases hcount : countDown d.refusal.duplicate with ⟨refused, next⟩
  cases refused with
  | true => simp [duplicate, hcount] at h
  | false =>
      simp only [duplicate, hcount, Bool.false_eq_true, if_false] at h
      split at h
      next => cases h
      next f hfile =>
        obtain ⟨rfl, rfl⟩ := Prod.mk.inj (Except.ok.inj h)
        have hsource : d.file? fd.toNat = some f := by
          split at hfile
          · cases hfile
          · exact hfile
        exact ⟨f, hsource, file?_free _, fun x => file?_assign .., rfl, fun _ => rfl⟩

end Descriptors

/-- Closing several descriptors. -/
theorem Capture.file?_closeAll (d : Descriptors) (fds : List Nat) (x : Nat) :
    (closeAll d fds).file? x = if x ∈ fds then none else d.file? x := by
  induction fds generalizing d with
  | nil => simp [closeAll]
  | cons fd fds ih =>
      have hstep : closeAll d (fd :: fds) = closeAll (d.close fd) fds := rfl
      rw [hstep, ih, Descriptors.file?_close]
      by_cases hx : x = fd <;> by_cases hmem : x ∈ fds <;> simp [hx, hmem]

@[simp] theorem Capture.content_closeAll (d : Descriptors) (fds : List Nat) (f : File) :
    (closeAll d fds).content f = d.content f := by
  induction fds generalizing d with
  | nil => rfl
  | cons fd fds ih => exact ih (d.close fd)

@[simp] theorem Capture.pipes_closeAll (d : Descriptors) (fds : List Nat) :
    (closeAll d fds).pipes = d.pipes := by
  induction fds generalizing d with
  | nil => rfl
  | cons fd fds ih => exact ih (d.close fd)

/-! ### Writing -/

namespace Write

/-- The part of a write that reaches the descriptor of a stream at once. -/
def direct (c : Channel) (w : Write) : List UInt8 :=
  if w.buffered then [] else if w.channel = c then w.bytes else []

/-- The part of a write that a stream holds back. -/
def held (c : Channel) (w : Write) : List UInt8 :=
  if w.buffered then if w.channel = c then w.bytes else [] else []

end Write

namespace Stdio

@[simp] theorem descriptors_setHeld (s : Stdio) (c : Channel) (bytes : List UInt8) :
    (s.setHeld c bytes).descriptors = s.descriptors := by
  cases c <;> rfl

theorem held_setHeld (s : Stdio) (c c' : Channel) (bytes : List UInt8) :
    (s.setHeld c bytes).held c' = if c' = c then bytes else s.held c' := by
  cases c <;> cases c' <;> rfl

@[simp] theorem usable_setHeld (s : Stdio) (c c' : Channel) (bytes : List UInt8) :
    (s.setHeld c bytes).usable c' = s.usable c' := by
  cases c <;> cases c' <;> rfl

@[simp] theorem held_descriptors (s : Stdio) (d : Descriptors) (c : Channel) :
    ({ s with descriptors := d } : Stdio).held c = s.held c := by
  cases c <;> rfl

@[simp] theorem usable_descriptors (s : Stdio) (d : Descriptors) (c : Channel) :
    ({ s with descriptors := d } : Stdio).usable c = s.usable c := by
  cases c <;> rfl

@[simp] theorem file?_apply (s : Stdio) (w : Write) (x : Nat) :
    (s.apply w).descriptors.file? x = s.descriptors.file? x := by
  unfold apply
  split <;> simp

@[simp] theorem pipes_apply (s : Stdio) (w : Write) :
    (s.apply w).descriptors.pipes = s.descriptors.pipes := by
  unfold apply
  split <;> simp

@[simp] theorem usable_apply (s : Stdio) (w : Write) (c : Channel) :
    (s.apply w).usable c = s.usable c := by
  unfold apply
  split <;> simp

theorem held_apply (s : Stdio) (w : Write) (c : Channel) :
    (s.apply w).held c = s.held c ++ w.held c := by
  unfold apply Write.held
  by_cases hbuffered : w.buffered
  · rw [if_pos hbuffered, if_pos hbuffered, held_setHeld]
    by_cases hc : w.channel = c
    · simp [hc]
    · simp [hc, Ne.symm hc]
  · rw [if_neg hbuffered, if_neg hbuffered, held_descriptors, List.append_nil]

/-- A write reaches a file if the descriptor of its stream refers to it. -/
theorem content_apply (s : Stdio) (w : Write) (f : File) :
    (s.apply w).descriptors.content f = s.descriptors.content f ++
      if s.descriptors.file? w.channel.descriptor = some f then w.direct w.channel else [] := by
  unfold apply Write.direct
  by_cases hbuffered : w.buffered
  · simp [hbuffered]
  · simp [hbuffered, Descriptors.content_write]

variable (s : Stdio) (ws : List Write)

@[simp] theorem file?_applyAll (x : Nat) :
    (s.applyAll ws).descriptors.file? x = s.descriptors.file? x := by
  induction ws generalizing s with
  | nil => rfl
  | cons w ws ih => exact (ih (s.apply w)).trans (file?_apply ..)

@[simp] theorem pipes_applyAll :
    (s.applyAll ws).descriptors.pipes = s.descriptors.pipes := by
  induction ws generalizing s with
  | nil => rfl
  | cons w ws ih => exact (ih (s.apply w)).trans (pipes_apply ..)

@[simp] theorem usable_applyAll (c : Channel) : (s.applyAll ws).usable c = s.usable c := by
  induction ws generalizing s with
  | nil => rfl
  | cons w ws ih => exact (ih (s.apply w)).trans (usable_apply ..)

/-- **Holding back.** A stream holds back what is written to it, in order. -/
theorem held_applyAll (c : Channel) : (s.applyAll ws).held c = s.held c ++ ws.flatMap (·.held c) := by
  induction ws generalizing s with
  | nil => simp [applyAll]
  | cons w ws ih =>
      have hstep : s.applyAll (w :: ws) = (s.apply w).applyAll ws := rfl
      rw [hstep, ih, held_apply, List.flatMap_cons, List.append_assoc]

/-- **Writing.** What is written straight to a descriptor reaches the file that it refers to, in
order, provided that the other descriptor refers to another file. -/
theorem content_applyAll {f : File} (c : Channel)
    (hfile : ∀ c', s.descriptors.file? c'.descriptor = some f ↔ c' = c) :
    (s.applyAll ws).descriptors.content f = s.descriptors.content f ++ ws.flatMap (·.direct c) := by
  induction ws generalizing s with
  | nil => simp [applyAll]
  | cons w ws ih =>
      have hstep : s.applyAll (w :: ws) = (s.apply w).applyAll ws := rfl
      have hwrite : (if s.descriptors.file? w.channel.descriptor = some f then w.direct w.channel
          else []) = w.direct c := by
        by_cases hc : w.channel = c
        · rw [if_pos ((hfile _).mpr hc), hc]
        · rw [if_neg (fun h => hc ((hfile _).mp h))]
          simp [Write.direct, hc]
      rw [hstep, ih _ (fun c' => by rw [file?_apply]; exact hfile c'), content_apply, hwrite,
        List.flatMap_cons, List.append_assoc]

/-- Nothing reaches a file that neither descriptor refers to. -/
theorem content_applyAll_of_ne {f : File}
    (hfile : ∀ c : Channel, s.descriptors.file? c.descriptor ≠ some f) :
    (s.applyAll ws).descriptors.content f = s.descriptors.content f := by
  induction ws generalizing s with
  | nil => rfl
  | cons w ws ih =>
      have hstep : s.applyAll (w :: ws) = (s.apply w).applyAll ws := rfl
      rw [hstep, ih _ (fun c => by rw [file?_apply]; exact hfile c), content_apply, if_neg (hfile _),
        List.append_nil]

/-! ### Flushing -/

@[simp] theorem file?_flush (c : Channel) (x : Nat) :
    (s.flush c).descriptors.file? x = s.descriptors.file? x := by
  unfold flush
  split <;> simp

@[simp] theorem pipes_flush (c : Channel) :
    (s.flush c).descriptors.pipes = s.descriptors.pipes := by
  unfold flush
  split <;> simp

@[simp] theorem usable_flush (c c' : Channel) : (s.flush c).usable c' = s.usable c' := by
  unfold flush
  split <;> simp

theorem held_flush (c c' : Channel) :
    (s.flush c).held c' = if c' = c ∧ s.usable c = true then [] else s.held c' := by
  unfold flush
  by_cases husable : s.usable c
  · by_cases hempty : s.held c = []
    · by_cases hc : c' = c <;> simp [husable, hempty, hc]
    · by_cases hc : c' = c <;> simp [husable, hempty, held_setHeld, hc]
  · simp [husable]

theorem content_flush (c : Channel) (f : File) :
    (s.flush c).descriptors.content f = s.descriptors.content f ++
      if s.usable c = true ∧ s.descriptors.file? c.descriptor = some f then s.held c else [] := by
  unfold flush
  by_cases husable : s.usable c
  · by_cases hempty : s.held c = []
    · simp [husable, hempty]
    · simp [husable, hempty, Descriptors.content_write]
  · simp [husable]

@[simp] theorem file?_flushAll (x : Nat) :
    s.flushAll.descriptors.file? x = s.descriptors.file? x := by
  simp [flushAll]

@[simp] theorem pipes_flushAll : s.flushAll.descriptors.pipes = s.descriptors.pipes := by
  simp [flushAll]

@[simp] theorem usable_flushAll (c : Channel) : s.flushAll.usable c = s.usable c := by
  simp [flushAll]

/-- A stream that has been flushed holds nothing back. -/
theorem held_flushAll (c : Channel) :
    s.flushAll.held c = if s.usable c = true then [] else s.held c := by
  simp only [flushAll, held_flush, usable_flush]
  cases c <;> simp

/-- **Flushing.** What a stream holds back reaches the file that its descriptor refers to. -/
theorem content_flushAll (f : File) :
    s.flushAll.descriptors.content f = s.descriptors.content f ++
      (if s.usable .out = true ∧ s.descriptors.file? Channel.out.descriptor = some f
        then s.held .out else []) ++
      if s.usable .err = true ∧ s.descriptors.file? Channel.err.descriptor = some f
        then s.held .err else [] := by
  simp [flushAll, content_flush, held_flush]

end Stdio

end JanetEmbedding
