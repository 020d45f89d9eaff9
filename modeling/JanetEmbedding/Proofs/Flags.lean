import JanetEmbedding.CommandLine.Arguments
import JanetEmbedding.Proofs.ErrorKinds

/-!
# Flags in front of a command line

The words of a command line are taken one after the other. What is given in front, here a time limit, counts
unless it is given again, and changes nothing of what becomes of the words behind it: neither what they ask
for, nor which of them something is wrong with.

## Main definitions

* `Text.Denotes`: a text is read as a number.
* `CommandLine.Arguments.timed`: arguments with a time limit that was given in front.
* `CommandLine.Flag`: the words that give a time limit.

## Main results

* `CommandLine.Arguments.takeWords_timed`: what becomes of the words behind a time limit.
* `CommandLine.Invocation.read_flag`: a command line with a time limit in front.
-/

namespace JanetEmbedding

/-- A text **denotes** a number if it is read as one. -/
def Text.Denotes (t : Text) (x : Double) : Prop := t.toString?.bind Number.readDouble? = some x

namespace CommandLine

variable {a : Arguments} {t : Text} {x : Double}

/-! ### Failures -/

/-- Nothing is asked for: there is help to be given, or something wrong. -/
inductive Invocation.Stops : Invocation → Prop
  | help : Stops .help
  | misused (f : UsageFault) : Stops (.misused f)

namespace Arguments

theorem failsOnly_switch (a : Arguments) (o : Opt) : FailsOnly Invocation.Stops (a.switch o) := by
  cases o with
  | help => exact failsOnly_error.mpr .help
  | parse | format | config | timeout | library | verbose => exact failsOnly_ok _

theorem failsOnly_assign (a : Arguments) (o : Opt) (value : Text) :
    FailsOnly Invocation.Stops (a.assign o value) := by
  cases o with
  | timeout | format =>
      simp only [assign]
      split
      all_goals first | exact failsOnly_ok _ | exact failsOnly_error.mpr (.misused _)
  | help | parse | config | library | verbose => exact failsOnly_ok _

theorem failsOnly_letters (o : Opt) (ps : List Text.Point) :
    FailsOnly Invocation.Stops (letters o ps) := by
  induction ps generalizing o with
  | nil => exact failsOnly_ok _
  | cons p ps ih =>
      simp only [letters]
      split
      · exact (ih _).bind fun _ => failsOnly_pure _
      · exact failsOnly_error.mpr (.misused _)

theorem failsOnly_switchAll (a : Arguments) (o : Opt) (short : Bool) (value : Option Text) :
    FailsOnly Invocation.Stops (a.switchAll o short value) := by
  cases value with
  | none => exact failsOnly_switch a o
  | some value =>
      simp only [switchAll]
      split
      · refine (failsOnly_letters o value.points).bind fun os => ?_
        induction os generalizing a with
        | nil => exact failsOnly_pure a
        | cons o os ih => exact (failsOnly_switch a o).bind fun a' => ih a'
      · exact failsOnly_error.mpr (.misused _)

/-- **Where the taking of words ends early**, nothing is asked for. -/
theorem failsOnly_takeWords (a : Arguments) (place : Place) (left : List Text) (ws : List Word) :
    FailsOnly Invocation.Stops (takeWords a place left ws) := by
  induction a, place, left, ws using takeWords.induct with
  | case1 => exact failsOnly_ok _
  | case2 a left s ws ih | case4 a left ws ih =>
      rw [takeWords, if_pos rfl]
      exact ih
  | case3 a place left s ws hplace ih | case5 a place left ws hplace ih =>
      rw [takeWords, if_neg hplace]
      exact ih
  | case6 a place left s ws ih => exact ih
  | case7 a place left o short hvalue ws ih =>
      simp only [takeWords, hvalue, if_true]
      exact ih
  | case8 a place left o short hvalue value ws hdashes ih =>
      simp only [takeWords, hvalue, if_true, hdashes, if_false]
      exact (failsOnly_assign a o value).bind ih
  | case9 a place left o short hvalue value ws ih =>
      simp only [takeWords, hvalue, if_true]
      exact (failsOnly_assign a o value).bind ih
  | case10 a place left o short ws hvalue hother =>
      unfold takeWords
      simp only [hvalue, if_true]
      exact failsOnly_error.mpr (.misused _)
  | case11 a place left o short value ws hvalue ih =>
      unfold takeWords
      simp only [hvalue]
      exact (failsOnly_switchAll a o short value).bind ih

end Arguments

/-- **A command line asks for something** if all its words are taken and none is left. -/
theorem Invocation.read_eq_run_iff {args : List Text} : read args = .run a ↔
    ∃ ws, words args = .ok ws ∧ Arguments.takeWords {} .start [] ws = .ok (a, []) := by
  unfold read
  cases words args with
  | error f => simp
  | ok ws =>
      cases htaken : Arguments.takeWords {} .start [] ws with
      | error i =>
          cases Arguments.failsOnly_takeWords {} .start [] ws i htaken <;> simp [htaken]
      | ok taken =>
          obtain ⟨a', left⟩ := taken
          cases left with
          | nil => simp [htaken]
          | cons t left => simp [htaken]

/-! ### Time limits in front -/

namespace Arguments

/-- The arguments with a time limit, which counts unless they have one already. -/
def timed (a : Arguments) (g : Given Double) : Arguments := { a with timeout := a.timeout.or (some g) }

theorem switch_timed (a : Arguments) (g : Given Double) (o : Opt) :
    (a.timed g).switch o = (a.switch o).map (·.timed g) := by
  cases o <;> rfl

theorem assignNothing_timed (a : Arguments) (g : Given Double) (o : Opt) :
    (a.timed g).assignNothing o = (a.assignNothing o).timed g := by
  cases o <;> rfl

theorem assign_timed (a : Arguments) (g : Given Double) (o : Opt) (value : Text) :
    (a.timed g).assign o value = (a.assign o value).map (·.timed g) := by
  cases o with
  | timeout =>
      simp only [assign]
      cases value.toString?.bind Number.readDouble? <;> rfl
  | format =>
      simp only [assign]
      split <;> rfl
  | help | parse | config | library | verbose => rfl

/-- Doing something first comes to the same if it makes no difference to what comes next. -/
theorem map_bind_of_comm {ε α β : Type} {x : Except ε α} {f : α → α} {h : β → β} {next : α → Except ε β}
    (hnext : ∀ a, next (f a) = (next a).map h) : (x.map f >>= next) = (x >>= next).map h := by
  cases x with
  | error e => rfl
  | ok a => exact hnext a

theorem foldlM_switch_timed (a : Arguments) (g : Given Double) (os : List Opt) :
    os.foldlM switch (a.timed g) = (os.foldlM switch a).map (·.timed g) := by
  induction os generalizing a with
  | nil => rfl
  | cons o os ih =>
      rw [List.foldlM_cons, List.foldlM_cons, switch_timed]
      exact map_bind_of_comm ih

theorem switchAll_timed (a : Arguments) (g : Given Double) (o : Opt) (short : Bool) (value : Option Text) :
    (a.timed g).switchAll o short value = (a.switchAll o short value).map (·.timed g) := by
  cases value with
  | none => exact switch_timed a g o
  | some value =>
      simp only [switchAll]
      split
      · cases letters o value.points with
        | error i => rfl
        | ok os => exact foldlM_switch_timed a g os
      · rfl

/-- **A time limit that is given in front** changes nothing of what becomes of the words behind it, by
induction on these. -/
theorem takeWords_timed (a : Arguments) (g : Given Double) (place : Place) (left : List Text)
    (ws : List Word) :
    takeWords (a.timed g) place left ws =
      (takeWords a place left ws).map fun (a, left) => (a.timed g, left) := by
  induction a, place, left, ws using takeWords.induct with
  | case1 => rfl
  | case2 a left s ws ih | case4 a left ws ih =>
      rw [takeWords, takeWords, if_pos rfl, if_pos rfl]
      exact ih
  | case3 a place left s ws hplace ih | case5 a place left ws hplace ih =>
      rw [takeWords, takeWords, if_neg hplace, if_neg hplace]
      exact ih
  | case6 a place left s ws ih => exact ih
  | case7 a place left o short hvalue ws ih =>
      simp only [takeWords, hvalue, if_true, assignNothing_timed]
      exact ih
  | case8 a place left o short hvalue value ws hdashes ih =>
      simp only [takeWords, hvalue, if_true, hdashes, if_false, assign_timed]
      exact map_bind_of_comm ih
  | case9 a place left o short hvalue value ws ih =>
      simp only [takeWords, hvalue, if_true, assign_timed]
      exact map_bind_of_comm ih
  | case10 a place left o short ws hvalue hother =>
      unfold takeWords
      simp only [hvalue, if_true]
      rfl
  | case11 a place left o short value ws hvalue ih =>
      unfold takeWords
      simp only [hvalue, switchAll_timed]
      exact map_bind_of_comm ih

end Arguments

/-! ### The words of a flag -/

/-- A **flag** for the time limit, with a value that is a word of its own or attached to it. A word of its
own must not look like an option. -/
inductive Flag (t : Text) : List Text → Prop
  | apart (hplain : Word.ofText t = .ok (.plain t)) : Flag t ["--timeout", t]
  | attached : Flag t ["--timeout=" ++ t]

/-- No option is spelled with an equals sign. -/
theorem ofSpelling?_eq_none (ht : .char '=' ∈ t.points) : Opt.ofSpelling? t = none := by
  have hno : ∀ p ∈ Opt.spelled, Text.Point.char '=' ∉ (Text.ofString p.1).points := by decide +kernel
  unfold Opt.ofSpelling?
  cases hs : t.toString? with
  | none => rfl
  | some s =>
      obtain rfl := Text.eq_ofString_of_toString? hs
      refine List.lookup_eq_none_iff.mpr fun p hp => ?_
      rw [bne_iff_ne]
      rintro rfl
      exact hno p hp ht

/-- A value that is attached is read as it is. -/
theorem ofText_attached (t : Text) :
    Word.ofText ("--timeout=" ++ t) = .ok (.option .timeout false (some t)) := by
  have hspelling : Opt.ofSpelling? ("--timeout=" ++ t) = none :=
    ofSpelling?_eq_none (List.mem_append_left _ (by decide))
  have hsplit : Word.splitValue? ("--timeout=" ++ t : Text).points =
      some ((Text.ofString "--timeout").points, t) := rfl
  have htimeout : Opt.ofSpelling? ⟨(Text.ofString "--timeout").points⟩ = some .timeout := by decide +kernel
  have hshort : Word.isShort ("--timeout=" ++ t : Text).points = false := rfl
  unfold Word.ofText
  simp only [hspelling, hsplit, htimeout, hshort]
  rfl

/-- What denotes a number is no separator. -/
theorem ne_dashes_of_denotes (hx : t.Denotes x) : t ≠ dashes := by
  rintro rfl
  have hnone : dashes.toString?.bind Number.readDouble? = none := by decide +kernel
  cases hnone.symm.trans hx

/-- **A flag in front** is read, and it counts unless there is another one behind it. -/
theorem Invocation.read_flag {flag args : List Text} (hflag : Flag t flag) (hx : t.Denotes x)
    (hread : read args = .run a) : read (flag ++ args) = .run (a.timed (.value x)) := by
  obtain ⟨ws, hwords, htaken⟩ := read_eq_run_iff.mp hread
  have hdashes := ne_dashes_of_denotes hx
  have hx' : t.toString?.bind Number.readDouble? = some x := hx
  have hassign : ({} : Arguments).assign .timeout t = .ok (({} : Arguments).timed (.value x)) := by
    simp only [Arguments.assign, hx']
    rfl
  have hrest : Arguments.takeWords (({} : Arguments).timed (.value x)) .start [] ws =
      .ok (a.timed (.value x), []) := by
    rw [Arguments.takeWords_timed, htaken]
    rfl
  refine read_eq_run_iff.mpr ?_
  cases hflag with
  | apart hplain =>
      have hoption : Word.ofText "--timeout" = .ok (.option .timeout false none) := by rfl
      have hne : Text.ofString "--timeout" ≠ dashes := by decide
      refine ⟨.option .timeout false none :: .plain t :: ws, ?_, ?_⟩
      · simp only [List.cons_append, List.nil_append, words, hne, if_false, hdashes, hoption, hplain, hwords]
        rfl
      · simp only [Arguments.takeWords, hassign]
        exact hrest
  | attached =>
      have hne : ("--timeout=" ++ t : Text) ≠ dashes := by
        intro h
        have hthird : ("--timeout=" ++ t : Text).points[2]? = some (.char 't') := rfl
        rw [h] at hthird
        cases hthird
      refine ⟨.option .timeout false (some t) :: ws, ?_, ?_⟩
      · simp only [List.cons_append, List.nil_append, words, hne, if_false, ofText_attached, hwords]
        rfl
      · simp only [Arguments.takeWords, hassign, hdashes, if_false]
        exact hrest

end CommandLine

end JanetEmbedding
