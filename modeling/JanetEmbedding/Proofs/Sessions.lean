import JanetEmbedding.CommandLine.Program
import JanetEmbedding.Proofs.Terminal

/-!
# Sessions at a terminal

What a session says, and where that goes. A session writes through its duplicates of the descriptors, so
all of it arrives at the terminal, whoever holds the descriptors; and saying something changes nothing else.
What a program does with its host is done in such a session, and the program leaves it in one way.

## Conventions

* Log records that are not printed yet are what is **pending**. They are printed before the next report,
  and before the duplicates are closed, if they are to be printed at all.
* The exit status of a program that ends with something unanswered is 1. One that waits for ever has none.

## Main definitions

* `Stdio.AtTerminal`: a process that sits at a terminal.
* `Result.shownWith`: what a result is shown as, given the text of its value.
* `CommandLine.Session.Speaks`: what a session changes that only speaks.
* `CommandLine.Session.Seated`: a session at a terminal that has shown something.
* `CommandLine.Session.Serving`: a session at a terminal whose handle runs.
* `CommandLine.Session.leave`: what is left of a session.

## Main results

* `CommandLine.Session.attended_attach`: a session that is attached sits at its terminal.
* `CommandLine.Session.Seated.report`, `CommandLine.Session.Seated.showResult`: what is said is shown.
* `CommandLine.Session.Seated.shown_detach`: the end of a session shows what is pending, and no more.
* `CommandLine.exists_serving`: a program whose library starts has a session that serves, and leaves it.
-/

namespace JanetEmbedding

/-- What an evaluation has **written** to a channel, as its result has it. -/
def Result.written (x : Result) : Channel → String
  | .out => x.stdout
  | .err => x.stderr

/-- What a result is shown as, given the text of its value: the output of the evaluation, and behind it the
value or the fault. -/
def Result.shownWith (x : Result) (text : String) : Channel → List UInt8
  | .out => Text.terminalBytes x.stdout ++ if x.ok then Text.terminalBytes (.ofString text) else []
  | .err =>
      Text.terminalBytes x.stderr ++ if x.ok then [] else (x.formatError ++ "\n").terminalBytes

/-- The exit status of a program, if it ends. -/
def CommandLine.Ending.status : Ending → Option Nat
  | exit status => some status
  | interrupted => some 0
  | escaped _ => some 1
  | waiting => none

/-! ### Processes at a terminal -/

/-- A process that sits **at a terminal**: its descriptors refer to it, nothing is held back, and the
system lets it have duplicates. -/
structure Stdio.AtTerminal (s : Stdio) : Prop where
  refer : s.descriptors.Refer .terminal
  unwritten : ∀ n, s.descriptors.pipes ≤ n → s.descriptors.content (.writeEnd n) = []
  held : ∀ c, s.held c = []
  willing : s.descriptors.refusal.duplicate = none

/-- A process that has just been started does. -/
theorem Stdio.atTerminal_default : ({} : Stdio).AtTerminal := by
  refine ⟨fun c => ?_, fun _ _ => rfl, fun c => ?_, rfl⟩ <;> cases c <;> rfl

/-- The process of a run that has not begun yet is attended at its terminal, once it has its
duplicates. -/
theorem World.attended_opening {e : Circumstances} (hterminal : e.stdio.AtTerminal) {d : Descriptors}
    {duplicates : Channel → Nat} (hdoubled : e.stdio.descriptors.Doubled d .terminal duplicates) :
    ({ (opening e).host with stdio := { e.stdio with descriptors := d } } : Host).Attended e duplicates
      e.stdio.shown := by
  let e' : Circumstances := { e with stdio := { e.stdio with descriptors := d } }
  have hplumbed : (opening e').host.Plumbed e'.stdio .terminal fun _ _ => 0 := by
    refine plumbed_opening hdoubled.refer (fun c n hn => by cases hn) fun n hn => ?_
    exact (hdoubled.content _).trans (hterminal.unwritten n (hdoubled.pipes ▸ hn))
  exact
    { kept := ⟨[], Host.kept_empty rfl rfl rfl rfl⟩
      plumbed := ⟨e'.stdio, _, fun c => (Stdio.held_descriptors ..).trans (hterminal.held c),
        fun c => Stdio.usable_descriptors .., fun c => hdoubled.content _, hplumbed⟩
      apart := fun c => ⟨hdoubled.copies c, hdoubled.ne c, by simp [opening, Host.phase?]⟩
      faithful := ⟨rfl, by simp [opening, Host.phase?], by simp [opening]⟩
      gates := fun _ hg => hg }

/-! ### Handles that are made and started -/

namespace Host

variable {e : Circumstances} {duplicates : Channel → Nat} {shown : Channel → List UInt8} {h : Host}

/-- Making a handle that is to run shows nothing and asks for nothing. -/
theorem Attended.openRunning (hattended : h.Attended e duplicates shown)
    (config : Except Config.Failure Config) (source : LibrarySource) :
    (h.openRunning config source).2.Attended e duplicates shown ∧
      (h.openRunning config source).2.requests = h.requests := by
  cases config with
  | error f => exact ⟨hattended, rfl⟩
  | ok c =>
      have hstarts := starts_start (h.addHandle c source).2 h.handles.length
      rw [openRunning_snd]
      exact ⟨(hattended.addHandle c source).starts hstarts, hstarts.requests_eq⟩

/-- Closing the duplicates changes nothing of what has been shown. -/
theorem Attended.shown_close (hattended : h.Attended e duplicates shown) {s' : Stdio}
    (hs' : s' = { h.stdio with
      descriptors := (h.stdio.descriptors.close (duplicates .out)).close (duplicates .err) })
    (c : Channel) : s'.shown c = shown c ∧ s'.flushAll.shown c = shown c := by
  have hcontent : ∀ f, s'.descriptors.content f = h.stdio.descriptors.content f := fun f => by
    rw [hs']
    rfl
  have hfile : ∀ c' : Channel, s'.descriptors.file? c'.descriptor =
      h.stdio.descriptors.file? c'.descriptor := fun c' => by
    have hout := ((hattended.apart .out).ne c').symm
    have herr := ((hattended.apart .err).ne c').symm
    rw [hs']
    simp [hout, herr]
  have hheld : ∀ c', s'.held c' = h.stdio.held c' := fun c' => by rw [hs', Stdio.held_descriptors]
  have husable : ∀ c', s'.usable c' = h.stdio.usable c' := fun c' => by
    rw [hs', Stdio.usable_descriptors]
  refine ⟨(hcontent _).trans (hattended.shown_eq c), ?_⟩
  have hflush := hattended.shown_flushAll c
  rw [Stdio.shown, Stdio.content_flushAll] at hflush ⊢
  simpa only [hcontent, hfile, hheld, husable] using hflush

end Host

/-- A handle is made and started, and it is the only one. -/
theorem CommandLine.serves_openRunning {e : Circumstances} {duplicates : Channel → Nat}
    {shown : Channel → List UInt8} {config : Config} {h : Host}
    (hattended : h.Attended e duplicates shown) (hhandles : h.handles = []) (hrequests : h.requests = [])
    (hstarts : Host.startFault? h.system ⟨config, .system, .fresh⟩ h.nextStart = none) :
    ∃ h', h.openRunning (.ok config) .system = (.ok 0, h') ∧ h'.Attended e duplicates shown ∧
      h'.Serves config ∧ h'.requests = [] := by
  have hfst := Host.openRunning_fst h (.ok config) .system
  simp only [hstarts, hhandles] at hfst
  obtain ⟨hattended', hrequests'⟩ := hattended.openRunning (.ok config) .system
  refine ⟨(h.openRunning (.ok config) .system).2, Prod.ext hfst rfl, hattended', ?_,
    hrequests'.trans hrequests⟩
  have hnone := Host.start_fst_of_fresh (Host.handle_addHandle_self h config .system) rfl
  have hstart := Host.starts_start (h.addHandle config .system).2 h.handles.length
  rw [hnone.trans hstarts] at hstart
  rw [Host.openRunning_snd]
  generalize ((h.addHandle config .system).2.start h.handles.length).2 = h' at hstart
  cases hstart with
  | stays f log hfault hstarted =>
      exact absurd rfl (hstarted rfl _ (Host.handle_addHandle_self h config .system))
  | serves log hhandle hstate => exact ⟨h.workers.length, by simp [Host.addHandle, hhandles]⟩

namespace CommandLine

namespace Session

variable {e : Circumstances} {shown shown' : Channel → List UInt8} {s s' s'' : Session}

/-- The duplicate of the descriptor of a channel. -/
def duplicate (s : Session) : Channel → Nat
  | .out => s.out
  | .err => s.err

/-! ### Saying something -/

/-- A session that has shown the **output** of an evaluation. -/
def output (s : Session) (x : Result) : Session :=
  let said := if x.stdout = "" then s else s.say x.stdout
  if x.stderr = "" then said else said.report x.stderr

/-- A result is shown behind the output of its evaluation. -/
theorem showResult_eq (s : Session) (format : Given Format) (x : Result) (yaml : Yaml.Dumper) :
    s.showResult format x yaml =
      if x.ok = true then
        match x.value with
        | none => (.ok (), s.output x)
        | some v =>
          match valueText format v yaml with
          | .ok t => (.ok (), (s.output x).say t)
          | .error f => (.error f, s.output x)
      else (.ok (), (s.output x).report (x.formatError ++ "\n")) := by
  unfold Session.showResult output
  cases x.ok with
  | false => rfl
  | true => cases x.value <;> rfl

/-- What a session changes that only **speaks**: what is written, and how far it is with the log. -/
def Speaks (s s' : Session) : Prop :=
  ∃ stdio logged, s' = { s with host := { s.host with stdio }, logged }

namespace Speaks

theorem refl (s : Session) : s.Speaks s := ⟨s.host.stdio, s.logged, rfl⟩

theorem trans (hfirst : s.Speaks s') (hnext : s'.Speaks s'') : s.Speaks s'' := by
  obtain ⟨_, _, rfl⟩ := hfirst
  obtain ⟨stdio, logged, rfl⟩ := hnext
  exact ⟨stdio, logged, rfl⟩

theorem write (s : Session) (fd : Nat) (text : Text) : s.Speaks (s.write fd text) := ⟨_, _, rfl⟩

theorem say (s : Session) (text : Text) : s.Speaks (s.say text) := .write s s.out text

theorem writeAll (s : Session) (lines : List Text) :
    s.Speaks (lines.foldl (fun s line => s.write s.err line) s) := by
  induction lines generalizing s with
  | nil => exact .refl s
  | cons line lines ih => exact (write s s.err line).trans (ih (s.write s.err line))

theorem printLog (s : Session) : s.Speaks s.printLog := by
  have hdealt : s.Speaks { s with logged := s.host.log.length } := ⟨s.host.stdio, _, rfl⟩
  unfold Session.printLog
  dsimp only
  split
  · exact hdealt.trans (writeAll ..)
  · exact hdealt

theorem report (s : Session) (text : Text) : s.Speaks (s.report text) :=
  (printLog s).trans (write ..)

/-- Something may be left out. -/
theorem skip {p : Prop} [Decidable p] (h : s.Speaks s') : s.Speaks (if p then s else s') := by
  split
  · exact .refl s
  · exact h

theorem detach (s : Session) : s.Speaks s.detach := (printLog s).trans ⟨_, _, rfl⟩

theorem output (s : Session) (x : Result) : s.Speaks (s.output x) :=
  (skip (say s x.stdout)).trans (skip (report _ x.stderr))

theorem showResult (s : Session) (format : Given Format) (x : Result)
    (yaml : Yaml.Dumper := Yaml.write) : s.Speaks (s.showResult format x yaml).2 := by
  have houtput := output s x
  rw [showResult_eq]
  split
  · split
    · exact houtput
    · split
      · exact houtput.trans (say ..)
      · exact houtput
  · exact houtput.trans (report ..)

theorem duplicate (h : s.Speaks s') : s'.duplicate = s.duplicate := by
  obtain ⟨_, _, rfl⟩ := h
  rfl

theorem verbose (h : s.Speaks s') : s'.verbose = s.verbose := by
  obtain ⟨_, _, rfl⟩ := h
  rfl

theorem requests (h : s.Speaks s') : s'.host.requests = s.host.requests := by
  obtain ⟨_, _, rfl⟩ := h
  rfl

theorem handles (h : s.Speaks s') : s'.host.handles = s.host.handles := by
  obtain ⟨_, _, rfl⟩ := h
  rfl

theorem gates (h : s.Speaks s') : s'.host.gates = s.host.gates := by
  obtain ⟨_, _, rfl⟩ := h
  rfl

end Speaks

/-! ### Sessions at a terminal -/

/-- What the log records come to that are not printed yet. -/
def pending (s : Session) : List UInt8 :=
  if s.verbose then ((s.host.log.drop s.logged).map Log.Record.line).flatMap Text.terminalBytes else []

theorem pending_of_quiet (hquiet : s.verbose = false) : s.pending = [] := by
  simp [pending, hquiet]

/-- A session that sits **at its terminal**, where it has shown something. -/
def Seated (e : Circumstances) (shown : Channel → List UInt8) (s : Session) : Prop :=
  s.host.Attended e s.duplicate shown

namespace Seated

theorem congr (hs : s.Seated e shown) (hshown : ∀ c, shown' c = shown c) : s.Seated e shown' :=
  funext hshown ▸ hs

/-- What is written through a duplicate is shown. -/
theorem write (hs : s.Seated e shown) (c : Channel) (text : Text) :
    (s.write (s.duplicate c) text).Seated e
      fun c' => shown c' ++ if c' = c then text.terminalBytes else [] :=
  Host.Attended.write hs c text.terminalBytes

theorem say (hs : s.Seated e shown) (text : Text) :
    (s.say text).Seated e fun c => shown c ++ if c = .out then text.terminalBytes else [] :=
  hs.write .out text

theorem writeAll (hs : s.Seated e shown) (lines : List Text) :
    (lines.foldl (fun s line => s.write s.err line) s).Seated e
      fun c => shown c ++ if c = .err then lines.flatMap Text.terminalBytes else [] := by
  induction lines generalizing s shown with
  | nil => exact hs.congr fun c => by simp
  | cons line lines ih =>
      refine (ih (hs.write .err line)).congr fun c => ?_
      cases c <;> simp

/-- Printing the log shows what is pending. -/
theorem printLog (hs : s.Seated e shown) :
    s.printLog.Seated e fun c => shown c ++ if c = .err then s.pending else [] := by
  have hdealt : ({ s with logged := s.host.log.length } : Session).Seated e shown := hs
  unfold Session.printLog
  dsimp only
  split
  next hverbose => simpa only [pending, hverbose, if_true] using hdealt.writeAll _
  next hquiet =>
    refine hdealt.congr fun c => ?_
    rw [pending_of_quiet (by simpa using hquiet)]
    simp

theorem printLog_of_quiet (hs : s.Seated e shown) (hquiet : s.verbose = false) :
    s.printLog.Seated e shown :=
  hs.printLog.congr fun c => by simp [pending_of_quiet hquiet]

/-- **What is reported is shown**, behind what is pending. -/
theorem report (hs : s.Seated e shown) (text : Text) :
    (s.report text).Seated e
      fun c => shown c ++ if c = .err then s.pending ++ text.terminalBytes else [] := by
  have hwrite := hs.printLog.write .err text
  rw [(Speaks.printLog s).duplicate] at hwrite
  refine Seated.congr (s := s.report text) hwrite fun c => ?_
  cases c <;> simp

theorem report_of_quiet (hs : s.Seated e shown) (hquiet : s.verbose = false) (text : Text) :
    (s.report text).Seated e fun c => shown c ++ if c = .err then text.terminalBytes else [] := by
  have hreport := hs.report text
  rwa [pending_of_quiet hquiet, List.nil_append] at hreport

/-! ### Results -/

/-- What is left out is as good as nothing. -/
theorem unless_empty {text : String} {c : Channel} (hs : s.Seated e shown)
    (hs' : s'.Seated e fun c' => shown c' ++ if c' = c then Text.terminalBytes text else []) :
    (if text = "" then s else s').Seated e
      fun c' => shown c' ++ if c' = c then Text.terminalBytes text else [] := by
  split
  next hempty =>
    subst hempty
    refine hs.congr fun c' => ?_
    have hnothing : Text.terminalBytes "" = [] := by decide
    simp [hnothing]
  next => exact hs'

variable {x : Result} {format : Given Format} {yaml : Yaml.Dumper}

/-- The output of an evaluation is shown. -/
theorem output (hs : s.Seated e shown) (hquiet : s.verbose = false) (x : Result) :
    (s.output x).Seated e fun c => shown c ++ Text.terminalBytes (x.written c) := by
  have hspeaks := Speaks.skip (p := x.stdout = "") (.say s x.stdout)
  have hsaid := hs.unless_empty (hs.say x.stdout)
  refine (hsaid.unless_empty (hsaid.report_of_quiet (hspeaks.verbose.trans hquiet) x.stderr)).congr
    fun c => ?_
  cases c <;> simp [Result.written]

/-- **What a result is shown as**, in a session that prints no log. Nothing goes wrong if the value has a
text. -/
theorem showResult {text : String} (hs : s.Seated e shown) (hquiet : s.verbose = false)
    (hvalue : x.ok = true → ∃ v, x.value = some v ∧ valueText format v yaml = .ok text) :
    (s.showResult format x yaml).1 = .ok () ∧
      (s.showResult format x yaml).2.Seated e fun c => shown c ++ x.shownWith text c := by
  have houtput := hs.output hquiet x
  rw [showResult_eq]
  cases hok : x.ok with
  | false =>
      refine ⟨rfl, ((houtput.report_of_quiet ((Speaks.output s x).verbose.trans hquiet)
        (x.formatError ++ "\n"))).congr fun c => ?_⟩
      cases c <;> simp [Result.shownWith, Result.written, hok]
  | true =>
      obtain ⟨v, hv, ht⟩ := hvalue hok
      simp only [if_true, hv, ht, true_and]
      refine (houtput.say text).congr fun c => ?_
      cases c <;> simp [Result.shownWith, Result.written, hok]

/-- If the value has no text, the output is shown all the same. -/
theorem showResult_of_unwritten {v : Rendered} {f : DataError} (hs : s.Seated e shown)
    (hquiet : s.verbose = false) (hok : x.ok = true) (hvalue : x.value = some v)
    (hf : valueText format v yaml = .error f) : (s.showResult format x yaml).1 = .error f ∧
      (s.showResult format x yaml).2.Seated e fun c => shown c ++ Text.terminalBytes (x.written c) := by
  rw [showResult_eq, if_pos hok, hvalue]
  simp only [hf, true_and]
  exact hs.output hquiet x

/-! ### The end -/

/-- **The end of a session** shows what is pending, and no more. -/
theorem shown_detach (hs : s.Seated e shown) (c : Channel) :
    s.detach.host.stdio.shown c = shown c ++ (if c = .err then s.pending else []) ∧
      s.detach.host.stdio.flushAll.shown c = shown c ++ if c = .err then s.pending else [] := by
  have hprinted := hs.printLog
  refine Host.Attended.shown_close hprinted ?_ c
  rfl

theorem shown_detach_of_quiet (hs : s.Seated e shown) (hquiet : s.verbose = false) (c : Channel) :
    s.detach.host.stdio.shown c = shown c ∧ s.detach.host.stdio.flushAll.shown c = shown c := by
  simpa [pending_of_quiet hquiet] using hs.shown_detach c

end Seated

/-- **The duplicates of a session** at a terminal. -/
theorem attended_attach (verbose : Bool) (hterminal : e.stdio.AtTerminal) :
    ∃ out err d, attach (World.opening e).host verbose =
        { host := { (World.opening e).host with stdio := { e.stdio with descriptors := d } }
          out, err, verbose } ∧
      ({ (World.opening e).host with stdio := { e.stdio with descriptors := d } } : Host).Attended e
        (fun | .out => out | .err => err) e.stdio.shown := by
  obtain ⟨out, err, d₁, d₂, hout, herr, hdoubled⟩ :=
    Descriptors.exists_doubled hterminal.refer hterminal.willing
  refine ⟨out, err, d₂, ?_, World.attended_opening hterminal hdoubled⟩
  have hstdio : (World.opening e).host.stdio.descriptors = e.stdio.descriptors := rfl
  simp only [attach, hstdio, hout, herr]
  rfl

/-- A session that has just been **attached**: nothing has been done with its host. -/
structure Attached (e : Circumstances) (s : Session) : Prop where
  seated : s.Seated e e.stdio.shown
  timed : s.timeless = false
  unasked : s.host.requests = []
  unmade : s.host.handles = []
  system : s.host.system = e.system
  next : s.host.nextStart = e.behaviour.start 0

theorem attached_attach (verbose : Bool) (hterminal : e.stdio.AtTerminal) :
    (attach (World.opening e).host verbose).Attached e ∧
      (attach (World.opening e).host verbose).verbose = verbose := by
  obtain ⟨out, err, d, hattach, hattended⟩ := attended_attach verbose hterminal
  let s : Session :=
    { host := { (World.opening e).host with stdio := { e.stdio with descriptors := d } }, out, err, verbose }
  have hduplicate : s.duplicate = (fun | .out => out | .err => err) := by
    funext c
    cases c <;> rfl
  have hseated : s.host.Attended e s.duplicate e.stdio.shown := hduplicate ▸ hattended
  rw [hattach]
  exact ⟨⟨hseated, rfl, rfl, rfl, rfl, rfl⟩, rfl⟩

/-- Why there is no handle for a session that has just been attached: there is no configuration, or the library
does not start. -/
def handleFault? (e : Circumstances) : Except Config.Failure Config → Option Host.HandleFault
  | .error f => some (.configuration f)
  | .ok c => (Host.startFault? e.system ⟨c, .system, .fresh⟩ (e.behaviour.start 0)).map .start

/-- What comes of the handle of a session that has just been attached. -/
theorem Attached.openRunning_fst (hs : s.Attached e) {config : Except Config.Failure Config}
    {f : Host.HandleFault} (hf : handleFault? e config = some f) :
    (s.host.openRunning config .system).1 = .error f := by
  rw [Host.openRunning_fst, hs.system, hs.next]
  cases config with
  | error f' => exact congrArg Except.error (Option.some.inj hf)
  | ok c =>
      obtain ⟨fault, hfault, rfl⟩ := Option.map_eq_some_iff.mp hf
      simp only [hfault]

/-! ### What is left of a session -/

/-- What is **left** of a session when a handle has been closed, and then the duplicates. -/
def leave (s : Session) (id : Nat) : Host :=
  ({ s.printLog with host := (s.printLog.host.close id (some closingTime)).2 } : Session).detach.host

/-- **Leaving a session** shows nothing more, and takes nothing back. -/
theorem Seated.leave (hs : s.Seated e shown) (hquiet : s.verbose = false) (id : Nat) :
    (∀ c, (s.leave id).stdio.shown c = shown c ∧ (s.leave id).stdio.flushAll.shown c = shown c) ∧
      s.host.GoesOn (s.leave id) := by
  have hprinted := hs.printLog_of_quiet hquiet
  have hspeaks := Speaks.printLog s
  obtain ⟨hclosed, hon⟩ := Host.Attended.close hprinted id (some closingTime)
  let s' : Session := { s.printLog with host := (s.printLog.host.close id (some closingTime)).2 }
  have hseated : s'.Seated e shown := hclosed
  refine ⟨hseated.shown_detach_of_quiet (hspeaks.verbose.trans hquiet), ?_⟩
  exact ((Host.GoesOn.of_eq hspeaks.requests).trans hon).trans (.of_eq (Speaks.detach s').requests)

/-- The handle has been closed. -/
theorem isClosed_leave {id : Nat} (hid : id < s.host.handles.length) : (s.leave id).isClosed id = true := by
  let h := s.printLog.host
  have hhandles : (s.leave id).handles = (h.requestClose id).2.handles :=
    (Speaks.detach _).handles.trans (Host.keepsHandles_close h id (some closingTime)).handles
  have hlt : id < h.handles.length := (Speaks.printLog s).handles.symm ▸ hid
  have hclosed := Host.isClosed_requestClose hlt
  rwa [Host.isClosed, ← hhandles] at hclosed

/-! ### Sessions that serve -/

/-- A session that **serves**: it sits at its terminal, where it has shown something and prints no log, its
handle runs, and something has been asked for. -/
structure Serving (e : Circumstances) (config : Config) (shown : Channel → List UInt8)
    (asked : List (RequestKind × Text)) (s : Session) : Prop where
  seated : s.Seated e shown
  quiet : s.verbose = false
  timed : s.timeless = false
  handle : s.handle = 0
  serves : s.host.Serves config
  asked : (s.host.requests.map fun q => (q.kind, q.source)) = asked

/-- Without a time limit a program of a source **stands** at a gate that is not open, and does not open in the
course of some events. -/
structure Stands (e : Circumstances) (config : Config) (events : List Event) (source : Text) : Prop where
  limit : config.timeout = none
  gated : ∃ p gate, e.behaviour.MayRun source p ∧ p.gate = some gate ∧ gate ∉ e.gates ∧
    .gateOpens gate ∉ events

/-- Without an interruption nothing breaks a session off while it waits, and every gate opens then that is to
open. -/
theorem gatesAhead_of_uninterrupted {events : List Event} (hon : .interrupt ∉ events) :
    (gatesAhead events).2 = false ∧ ∀ gate, .gateOpens gate ∈ events → gate ∈ (gatesAhead events).1 := by
  induction events with
  | nil => exact ⟨rfl, by simp⟩
  | cons event events ih =>
      obtain ⟨hwhole, hgates⟩ := ih fun h => hon (List.mem_cons_of_mem _ h)
      cases event with
      | interrupt => exact absurd List.mem_cons_self hon
      | line text => exact ⟨hwhole, by simpa [gatesAhead] using hgates⟩
      | gateOpens gate =>
          refine ⟨hwhole, fun gate' hgate' => ?_⟩
          rcases List.mem_cons.mp hgate' with heq | hlater
          · exact Event.gateOpens.inj heq ▸ List.mem_cons_self
          · exact List.mem_cons_of_mem _ (hgates gate' hlater)

namespace Serving

variable {config : Config} {asked : List (RequestKind × Text)}

/-- Whoever only speaks goes on serving. -/
theorem speaks (hs : s.Serving e config shown asked) (hspeaks : s.Speaks s')
    (hseated : s'.Seated e shown') : s'.Serving e config shown' asked := by
  obtain ⟨stdio, logged, rfl⟩ := hspeaks
  exact ⟨hseated, hs.quiet, hs.timed, hs.handle, hs.serves, hs.asked⟩

/-- **Evaluating a source** is one more call. The session has the result of it, or is told that time is over if
there is a limit; without one it waits, and then the evaluation is delayed although every gate has opened. -/
theorem evaluate_cases {ahead : List Event} (hs : s.Serving e config shown asked)
    (hunawaited : s.host.Unawaited) (hpatient : config.Patient) (hon : .interrupt ∉ ahead)
    (kind : RequestKind) (source : Text) :
    ∃ o h', s.evaluate kind source ahead = (o, { s with host := h' }) ∧
      ({ s with host := h' } : Session).Serving e config shown (asked ++ [(kind, source)]) ∧
      s.host.Reaches h' ∧ (∀ g ∈ s.host.gates, g ∈ h'.gates) ∧
      ((∃ x, o = .ok x ∧ h'.result? asked.length = some x ∧
          Host.Yields e.behaviour e.stdio.usable kind source x) ∨
        (∃ x, o = .ok x ∧ config.timeout ≠ none ∧ ∃ (h₂ : Host) (q : Request),
          h₂.Delayed e asked.length source ∧ (∀ g ∈ e.gates, g ∈ h₂.gates) ∧
          h₂.requests[asked.length]? = some q ∧ h₂.giveUp asked.length = (x, h')) ∨
        o = .error .waiting ∧ config.timeout = none ∧ h'.Delayed e asked.length source ∧
          ∀ gate, .gateOpens gate ∈ ahead → gate ∈ h'.gates) := by
  obtain ⟨hwhole, hopenings⟩ := gatesAhead_of_uninterrupted hon
  have hlength : s.host.requests.length = asked.length := by simpa using congrArg List.length hs.asked
  have hpatience : s.host.patienceOf s.handle none = config.timeout := by
    obtain ⟨w, hhandles⟩ := hs.serves
    simp [Host.patienceOf, Host.patience, hs.handle, hhandles]
  obtain ⟨gates, hplan, hgates⟩ : ∃ gates,
      (if config.timeout.isSome then ([], false) else gatesAhead ahead) = (gates, false) ∧
        (config.timeout = none → gates = (gatesAhead ahead).1) := by
    cases hlimit : config.timeout with
    | none => exact ⟨_, Prod.ext rfl hwhole, fun _ => rfl⟩
    | some t => exact ⟨[], rfl, fun hnone => absurd hnone (Option.some_ne_none t)⟩
  obtain ⟨o, h', hcall, hseated, hserves, hreaches, hmore, hasked, hcases⟩ :=
    Host.Attended.call_cases hs.seated hs.serves hunawaited hpatient kind source gates
  rw [hlength] at hcases
  have hserving : ({ s with host := h' } : Session).Serving e config shown (asked ++ [(kind, source)]) :=
    ⟨hseated, hs.quiet, hs.timed, hs.handle, hserves, by rw [hasked, hs.asked]⟩
  rcases hcases with ⟨x, rfl, hresult⟩ | ⟨x, rfl, hlimit, hgivenUp⟩ | ⟨rfl, hlimit, hdelayed, hopened⟩
  · refine ⟨.ok x, h', ?_, hserving, hreaches, hmore, .inl ⟨x, rfl, hresult⟩⟩
    simp [Session.evaluate, hs.timed, hs.handle, hs.handle ▸ hpatience, hplan, hcall]
  · refine ⟨.ok x, h', ?_, hserving, hreaches, hmore, .inr (.inl ⟨x, rfl, hlimit, hgivenUp⟩)⟩
    simp [Session.evaluate, hs.timed, hs.handle, hs.handle ▸ hpatience, hplan, hcall]
  · refine ⟨.error .waiting, h', ?_, hserving, hreaches, hmore, .inr (.inr ⟨rfl, hlimit, hdelayed, ?_⟩)⟩
    · simp [Session.evaluate, hs.timed, hs.handle, hs.handle ▸ hpatience, hplan, hcall]
    · exact fun gate hgate => hopened gate (hgates hlimit ▸ hopenings gate hgate)

end Serving

end Session

/-! ### Whole programs -/

variable {args : List Text} {w : Surroundings} {a : Arguments} {config : Config} {e : Circumstances}
  {yaml : Yaml.Dumper}

/-- What a program comes to is what its arguments come to, and an interruption is answered. -/
theorem run_of_read {h : Host} (hread : Invocation.read args = .run a) :
    (run args w h yaml).2.requests = (runArguments w a h yaml).2.requests ∧
      (run args w h yaml).1.status = (runArguments w a h yaml).1.status ∧
      ((runArguments w a h yaml).1 ≠ .interrupted → run args w h yaml = runArguments w a h yaml) := by
  simp only [run, hread]
  rcases runArguments w a h yaml with ⟨ending, h'⟩
  cases ending with
  | exit | escaped | waiting => exact ⟨rfl, rfl, fun _ => rfl⟩
  | interrupted => exact ⟨rfl, rfl, fun hne => absurd rfl hne⟩

theorem runArguments_eq (h : Host) (hconfig : Given.isMissing a.config = false)
    (htimeout : Given.isMissing a.timeout = false) :
    runArguments w a h yaml = (Session.attach h a.verbose).start w a yaml := by
  simp only [runArguments, hconfig, htimeout, Bool.false_eq_true, if_false]
  rfl

/-- **A program whose library starts** does what it is asked for in a session that serves, and leaves it, unless
it waits. -/
theorem exists_serving (hread : Invocation.read args = .run a) (hquiet : a.verbose = false)
    (hvalued : Given.isMissing a.config = false ∧ Given.isMissing a.timeout = false)
    (hconfigured : configure w a = .ok config)
    (hstarts : Host.startFault? e.system ⟨config, .system, .fresh⟩ (e.behaviour.start 0) = none)
    (hterminal : e.stdio.AtTerminal) :
    ∃ s : Session, s.Serving e config e.stdio.shown [] ∧
      (∀ status s', s.perform w a yaml = (.exit status, s') →
        run args w (World.opening e).host yaml = (.exit status, s'.leave 0)) ∧
      (∀ f s', s.perform w a yaml = (.escaped f, s') →
        run args w (World.opening e).host yaml = (.escaped f, s'.leave 0)) ∧
      ∀ s', s.perform w a yaml = (.waiting, s') →
        run args w (World.opening e).host yaml = (.waiting, s'.printLog.host) := by
  have hrun := @runArguments_eq w a yaml (World.opening e).host hvalued.1 hvalued.2
  obtain ⟨hs, hverbose⟩ := Session.attached_attach a.verbose hterminal
  generalize Session.attach (World.opening e).host a.verbose = s at hs hverbose hrun
  rw [← hs.system, ← hs.next] at hstarts
  obtain ⟨h, hopened, hattended, hserves, hrequests⟩ :=
    serves_openRunning hs.seated hs.unmade hs.unasked hstarts
  have hended : ∀ {ending h'}, s.start w a yaml = (ending, h') → ending ≠ .interrupted →
      run args w (World.opening e).host yaml = (ending, h') := by
    intro ending h' hstart hne
    rw [(run_of_read hread).2.2 (by rw [hrun, hstart]; exact hne), hrun, hstart]
  refine ⟨{ s with host := h, handle := 0 }, ⟨hattended, hverbose.trans hquiet, hs.timed, rfl, hserves, ?_⟩,
    fun status s' hperform => hended ?_ nofun, fun f s' hperform => hended ?_ nofun,
    fun s' hperform => hended ?_ nofun⟩
  · simp [hrequests]
  · simp only [Session.start, hconfigured, hopened, hperform]
    rfl
  · simp only [Session.start, hconfigured, hopened, hperform]
    rfl
  · simp only [Session.start, hconfigured, hopened, hperform]

end CommandLine

end JanetEmbedding
