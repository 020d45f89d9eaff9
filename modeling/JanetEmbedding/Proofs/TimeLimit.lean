import JanetEmbedding.Proofs.Flags
import JanetEmbedding.Proofs.Layering
import JanetEmbedding.Proofs.Sessions

/-!
# The time limit of a program

A time limit is given by a flag or by a variable. The two are not looked at in the same way. A variable is
part of the configuration that is loaded, where a limit that is not positive is refused, so the program ends
before anything is started. A flag is set on top of that as it is: the interpreter starts, every call is
answered at once that time is over, and the program ends as if an evaluation had taken too long.

Besides, the two agree: with a limit that is not refused, the program does the very same.

## Conventions

* A limit is refused if it is at most zero. Not-a-number is not.

## Main definitions

* `CommandLine.Alike`: two runs that cannot be told apart by status and output.
* `CommandLine.Reached`: the program gets as far as something to evaluate.
* `CommandLine.Session.Hurried`: a session that has no time.

## Main results

* `CommandLine.configure_limited`: a variable that is taken is as good as a flag.
* `CommandLine.Session.Hurried.perform`: what is done without time.
* `CommandLine.run_timeLimit_alike_iff`: when a flag and a variable come to the same.
-/

namespace JanetEmbedding

namespace Config

variable {env env' : Environment} {settings : List Setting} {t : Text} {x : Double}

/-! ### Variables -/

/-- What the variables of some settings set, in order. -/
def ofVariables (settings : List Setting) (env : Environment) : Except Failure (List Assignment) :=
  (settings.filterMap fun s => (env.lookup (variableName s)).map (s, ·)).mapM fun (s, value) =>
    coerce s (variableName s) (.text value)

theorem ofVariables_append (settings settings' : List Setting) (env : Environment) :
    ofVariables (settings ++ settings') env = do
      let as ← ofVariables settings env
      let as' ← ofVariables settings' env
      return as ++ as' := by
  simp only [ofVariables, List.filterMap_append, List.mapM_append]

theorem ofVariables_congr
    (h : ∀ s ∈ settings, env'.lookup (variableName s) = env.lookup (variableName s)) :
    ofVariables settings env' = ofVariables settings env := by
  unfold ofVariables
  congr 1
  exact List.filterMap_congr fun s hs => by rw [h s hs]

theorem ofVariables_of_none {s : Setting} (hnone : env.lookup (variableName s) = none) :
    ofVariables [s] env = .ok [] := by
  simp [ofVariables, hnone, pure, Except.pure]

theorem ofVariables_of_some {s : Setting} (ht : env.lookup (variableName s) = some t) :
    ofVariables [s] env = (coerce s (variableName s) (.text t)).map ([·]) := by
  have hvariables : [s].filterMap (fun s => (env.lookup (variableName s)).map (s, ·)) = [(s, t)] := by
    simp [ht]
  rw [ofVariables, hvariables, List.mapM_cons, List.mapM_nil]
  dsimp only
  cases coerce s (variableName s) (.text t) <;> rfl

/-- An environment with a variable for the time limit. -/
def limited (env : Environment) (t : Text) : Environment := (variableName .timeout, t) :: env

theorem lookup_limited_of_ne {s : Setting} (hs : s ≠ .timeout) :
    (limited env t).lookup (variableName s) = env.lookup (variableName s) := by
  cases s with
  | timeout => exact absurd rfl hs
  | library | nanbox | sourcePath => rfl

theorem set_comm {c : Config} {a b : Assignment} (h : a.setting ≠ b.setting) :
    (c.set a).set b = (c.set b).set a := by
  cases a <;> cases b <;> first | rfl | exact absurd rfl h

/-- **A variable for the time limit** that is taken sets it, and changes nothing else. -/
theorem ofEnvironment_limited {limit : Option Seconds} (hunset : env.lookup (variableName .timeout) = none)
    (hlimit : coerceSeconds (variableName .timeout) (.text t) = .ok limit) (c : Config) :
    (ofEnvironment (limited env t)).map c.setAll =
      (ofEnvironment env).map fun as => (c.setAll as).set (.timeout limit) := by
  -- the settings in front of the time limit, itself, and the one behind it
  have hsplit : ∀ env, ofEnvironment env =
      ofVariables ([.library, .nanbox] ++ ([.timeout] ++ [.sourcePath])) env := fun _ => rfl
  have hbefore : ofVariables [.library, .nanbox] (limited env t) = ofVariables [.library, .nanbox] env :=
    ofVariables_congr fun s hs => lookup_limited_of_ne (by rintro rfl; simp at hs)
  have hbehind : ofVariables [.sourcePath] (limited env t) = ofVariables [.sourcePath] env :=
    ofVariables_congr fun s hs => lookup_limited_of_ne (by rintro rfl; simp at hs)
  have htime : ofVariables [.timeout] (limited env t) = .ok [.timeout limit] := by
    rw [ofVariables_of_some (t := t) rfl, coerce, hlimit]
    rfl
  simp only [hsplit, ofVariables_append, hbefore, hbehind, htime, ofVariables_of_none hunset]
  cases ofVariables [.library, .nanbox] env with
  | error f => rfl
  | ok as =>
      cases hpath : env.lookup (variableName .sourcePath) with
      | none =>
          rw [ofVariables_of_none hpath]
          simp [bind, Except.bind, pure, Except.pure, Except.map, setAll]
      | some t' =>
          rw [ofVariables_of_some hpath, coerce]
          cases coerceText (variableName .sourcePath) (.text t') with
          | error f => rfl
          | ok path =>
              have hcomm : ∀ c : Config, (c.set (.timeout limit)).set (.sourcePath path) =
                  (c.set (.sourcePath path)).set (.timeout limit) := fun c =>
                set_comm fun h => Setting.noConfusion h
              simp [bind, Except.bind, pure, Except.pure, Except.map, setAll, hcomm]

/-- The configuration that is loaded, with a variable for the time limit. -/
theorem load_limited {files : Files.Tree} {path : Option Text} {limit : Option Seconds}
    (hunset : env.lookup (variableName .timeout) = none)
    (hlimit : coerceSeconds (variableName .timeout) (.text t) = .ok limit) :
    load files path (limited env t) = (load files path env).map (·.set (.timeout limit)) := by
  rw [load_eq, load_eq]
  cases ofFile? files path with
  | error f => rfl
  | ok base =>
      refine (ofEnvironment_limited hunset hlimit base).trans ?_
      cases ofEnvironment env <;> simp [bind, Except.bind, Except.map]

/-- A text that denotes a number is taken for a time limit unless the number is at most zero. -/
theorem coerceSeconds_of_denotes (name : String) (hx : t.Denotes x) :
    coerceSeconds name (.text t) =
      if x.isNonPositive then refuse (.notPositive name) (.text t) else .ok (some (.real x)) := by
  have hx' : asDouble? (.text t) = .ok (some x) := congrArg Except.ok hx
  obtain ⟨ps⟩ := t
  cases ps with
  | nil =>
      have hnone : (Text.toString? ⟨[]⟩).bind Number.readDouble? = none := by decide +kernel
      cases hnone.symm.trans hx
  | cons p ps =>
      simp only [coerceSeconds, hx', ofData, Except.mapError, bind, Except.bind]
      rfl

/-- A variable for a time limit that is at most zero is a fault of the environment. -/
theorem ofEnvironment_limited_of_isNonPositive (env : Environment) (hx : t.Denotes x)
    (hover : x.isNonPositive = true) :
    ∃ f, ofEnvironment (limited env t) = .error (.fault f) := by
  cases henv : ofEnvironment (limited env t) with
  | error f =>
      obtain ⟨g, rfl⟩ := ofEnvironment_isFault _ f henv
      exact ⟨g, rfl⟩
  | ok as =>
      obtain ⟨a, ha⟩ := sound_variableEntries_iff.mp
        (taken_iff_sound.mp (taken_iff.mpr ⟨as, ofEnvironment_eq_ok_iff.mp henv⟩)) .timeout t rfl
      obtain ⟨limit, hlimit, -⟩ := Janet.Value.exists_of_map_ok ha
      rw [coerceSeconds_of_denotes _ hx, if_pos hover] at hlimit
      exact absurd hlimit refuse_ne_ok

end Config

/-- While a host settles there are no more requests, and no fewer. -/
theorem Host.length_requests_settle (h : Host) : h.settle.requests.length = h.requests.length :=
  settle_induction (P := fun h' => h'.requests.length = h.requests.length)
    (fun hlength _ hdoes => hdoes.length_requests.trans hlength) rfl

/-- Closing a handle asks for nothing. -/
theorem Host.length_requests_close (h : Host) (id : Nat) (timeout : Option Seconds) :
    (h.close id timeout).2.requests.length = h.requests.length := by
  have hclosed := congrArg List.length (closes_requestClose h id).requests_eq
  unfold close
  generalize h.requestClose id = closed at hclosed ⊢
  obtain ⟨worker, h'⟩ := closed
  dsimp only
  split
  next => exact (length_requests_settle h').trans hclosed
  next =>
    rw [length_requests_settle, requests_answerClose]
    split
    · exact hclosed
    · exact (length_requests_settle h').trans hclosed

namespace CommandLine

open Config (Environment limited variableName)

variable {a : Arguments} {w : Surroundings} {t : Text} {x : Double}

/-- What a program finds, with a variable for the time limit. -/
def Surroundings.limited (w : Surroundings) (t : Text) : Surroundings :=
  { w with environment := Config.limited w.environment t }

/-- A flag sets the time limit on top of the configuration. -/
theorem configure_timed (w : Surroundings) (hno : a.timeout = none) (x : Double) :
    configure w (a.timed (.value x)) = (configure w a).map (·.set (.timeout (some (.real x)))) := by
  have hreplaced : ∀ c : Config, c.replacedBy (a.timed (.value x)).assignments =
      (c.replacedBy a.assignments).set (.timeout (some (.real x))) := by
    intro c
    simp only [Arguments.assignments, Arguments.timed, hno]
    cases a.library <;> rfl
  have hpath : (a.timed (.value x)).config = a.config := rfl
  unfold configure
  rw [hpath]
  cases Config.load w.files (a.config.bind Given.value?) w.environment with
  | error f => rfl
  | ok c => exact congrArg Except.ok (hreplaced c)

/-- **A variable that is taken is as good as a flag.** -/
theorem configure_limited (hno : a.timeout = none)
    (hunset : w.environment.lookup (variableName .timeout) = none) (hx : t.Denotes x)
    (htaken : x.isNonPositive = false) :
    configure (w.limited t) a = configure w (a.timed (.value x)) := by
  have hlimit := Config.coerceSeconds_of_denotes (variableName .timeout) hx
  rw [if_neg (by simp [htaken])] at hlimit
  have hreplaced : ∀ c : Config, (c.set (.timeout (some (.real x)))).replacedBy a.assignments =
      (c.replacedBy a.assignments).set (.timeout (some (.real x))) := by
    intro c
    simp only [Arguments.assignments, hno]
    cases a.library <;> rfl
  rw [configure_timed w hno]
  unfold configure
  show Config.load w.files _ (limited w.environment t) >>= _ = _
  rw [Config.load_limited hunset hlimit]
  cases Config.load w.files (a.config.bind Given.value?) w.environment with
  | error f => rfl
  | ok c => exact congrArg Except.ok (hreplaced c)

/-- **A variable that is refused** is a fault of the configuration, unless something is wrong with the
file. -/
theorem configure_limited_of_isNonPositive (w : Surroundings) (a : Arguments) (hx : t.Denotes x)
    (hover : x.isNonPositive = true) :
    (∃ f, configure w a = .error f ∧ configure (w.limited t) a = .error f) ∨
      (∃ f, configure (w.limited t) a = .error (.fault f)) ∧
        FailsOnly Config.Failure.IsFault (configure w a) := by
  obtain ⟨g, hg⟩ := Config.ofEnvironment_limited_of_isNonPositive w.environment hx hover
  have hlimited : (w.limited t).environment = limited w.environment t := rfl
  have hfiles : (w.limited t).files = w.files := rfl
  unfold configure
  simp only [Config.load_eq, hlimited, hfiles, hg]
  cases Config.ofFile? w.files (a.config.bind Given.value?) with
  | error f => exact .inl ⟨f, rfl, rfl⟩
  | ok base =>
      refine .inr ⟨⟨g, rfl⟩, FailsOnly.bind ?_ fun c => failsOnly_pure _⟩
      exact (Config.ofEnvironment_isFault w.environment).map

/-! ### Runs -/

/-- What two runs end with is **alike** if their exit status is the same, and all that has reached the
terminal as output. -/
structure Alike (r r' : Ending × Host) : Prop where
  status : r.1.status = r'.1.status
  out : r.2.stdio.flushAll.shown .out = r'.2.stdio.flushAll.shown .out

/-- There is a configuration, and the start is not refused: the program gets as far as something to evaluate,
or it ends with a start that nobody has foreseen. -/
def Reached (e : Circumstances) (w : Surroundings) (a : Arguments) : Prop :=
  Given.isMissing a.config = false ∧ ∃ config, configure w a = .ok config ∧
    ∀ f ∈ Host.startFault? e.system ⟨config, .system, .fresh⟩ (e.behaviour.start 0), f.kind.isHost = false

/-- A run that ends **refused**, with nothing asked for and nothing said that is no report. -/
structure Refused (e : Circumstances) (r : Ending × Host) : Prop where
  ending : r.1 = .exit refusedStatus
  unasked : r.2.requests = []
  out : r.2.stdio.flushAll.shown .out = e.stdio.shown .out

/-- Runs that are refused are alike. -/
theorem Refused.alike {e : Circumstances} {r r' : Ending × Host} (h : Refused e r) (h' : Refused e r') :
    Alike r r' :=
  ⟨by rw [h.ending, h'.ending], h.out.trans h'.out.symm⟩

/-- Why there is no handle, if it is **reported**. -/
inductive Reported : Host.HandleFault → Prop
  | configuration (f : Config.Fault) : Reported (.configuration (.fault f))
  | start {f : Fault} (hhost : f.kind.isHost = true) : Reported (.start f)

namespace Session

variable {e : Circumstances} {shown : Channel → List UInt8} {s s' : Session}

theorem Speaks.refuse (s : Session) (f : Host.HandleFault) : s.Speaks (refuse s f).2 := by
  unfold CommandLine.refuse
  repeat' split
  all_goals first | exact .report .. | exact .refl s

/-- What ends before there is a handle has asked for nothing. -/
theorem requests_start {f : Host.HandleFault}
    (hopened : (s.host.openRunning (configure w a) .system).1 = .error f) :
    (s.start w a).2.requests = (s.host.openRunning (configure w a) .system).2.requests := by
  rcases hpair : s.host.openRunning (configure w a) .system with ⟨opened, h⟩
  obtain rfl : opened = .error f := by rw [hpair] at hopened; exact hopened
  simp only [start, hpair]
  exact (Speaks.detach _).requests.trans (Speaks.refuse _ f).requests

/-- A start that nobody has foreseen ends the program, but it is not refused. -/
theorem Attached.unforeseen_start {f : Fault} (hs : s.Attached e)
    (hfault : handleFault? e (configure w a) = some (.start f)) (hhost : f.kind.isHost = false) :
    (s.start w a).2.requests = [] ∧ (s.start w a).1.status ≠ refusedStatus := by
  have hopened := hs.openRunning_fst hfault
  refine ⟨(requests_start hopened).trans ?_, ?_⟩
  · exact (Host.Attended.openRunning hs.seated _ _).2.trans hs.unasked
  · rcases hpair : s.host.openRunning (configure w a) .system with ⟨opened, h⟩
    obtain rfl : opened = .error (.start f) := by rw [hpair] at hopened; exact hopened
    simp [start, hpair, CommandLine.refuse, hhost, Ending.status, refusedStatus]

/-- **What is reported ends the program refused.** -/
theorem Seated.refused_start {f : Host.HandleFault} (hs : s.Seated e e.stdio.shown)
    (hunasked : s.host.requests = [])
    (hopened : (s.host.openRunning (configure w a) .system).1 = .error f) (hf : Reported f) :
    Refused e (s.start w a) := by
  obtain ⟨hattended, hrequests⟩ := Host.Attended.openRunning hs (configure w a) .system
  have hasked := requests_start hopened
  rcases hpair : s.host.openRunning (configure w a) .system with ⟨opened, h⟩
  rw [hpair] at hopened hattended hrequests hasked
  obtain rfl : opened = .error f := hopened
  let s₁ : Session := { s with host := h }
  have hs₁ : s₁.Seated e e.stdio.shown := hattended
  obtain ⟨text, hrefuse⟩ : ∃ text, CommandLine.refuse s₁ f = (.exit refusedStatus, s₁.report text) := by
    cases hf with
    | configuration f => exact ⟨_, rfl⟩
    | start hhost => exact ⟨_, by simp only [CommandLine.refuse, hhost, if_true]; rfl⟩
  have hstart : s.start w a = (.exit refusedStatus, (s₁.report text).detach.host) := by
    simp only [start, hpair]
    rw [show CommandLine.refuse { s with host := h } f = _ from hrefuse]
  refine ⟨by rw [hstart], hasked.trans (hrequests.trans hunasked), ?_⟩
  rw [hstart]
  simpa using ((hs₁.report text).shown_detach .out).2

/-! ### Sessions without time -/

/-- A session is **hurried** if its handle has no time, and nothing has been asked for. -/
structure Hurried (s : Session) : Prop where
  timed : s.timeless = false
  hasty : ∃ handle, s.host.handles[s.handle]? = some handle ∧
    handle.config.timeout.any (·.isOver) = true
  unasked : s.host.requests = []

namespace Hurried

theorem speaks (hs : s.Hurried) (hspeaks : s.Speaks s') : s'.Hurried := by
  obtain ⟨stdio, logged, rfl⟩ := hspeaks
  exact ⟨hs.timed, hs.hasty, hs.unasked⟩

/-- **Every evaluation is answered at once**: time is over. -/
theorem evaluate (hs : s.Hurried) (kind : RequestKind) (source : Text) (ahead : List Event) :
    s.evaluate kind source ahead = (.ok (.expired false), s) := by
  obtain ⟨handle, hhandle, hover⟩ := hs.hasty
  have hpatience : (Host.patience handle none).any (·.isOver) = true := hover
  have hcall : ∀ gates, s.host.callTask s.handle kind source none gates =
      (.answered (.expired false), s.host) := fun gates => by
    simp only [Host.callTask, Host.callWithin, Host.beginCall, hhandle, hpatience, if_true]
    rfl
  unfold Session.evaluate
  rw [if_neg (by simp [hs.timed])]
  simp only [hcall]

theorem answerLine (hs : s.Hurried) (line : Text) (ahead : List Event) :
    ∃ s', s.answerLine line ahead = (.ok (), s') ∧ s'.Hurried := by
  let x : Result := .expired false
  refine ⟨(s.showResult (.value .json) x).2, ?_, hs.speaks (.showResult s _ x)⟩
  simp only [Session.answerLine, hs.evaluate, x]

theorem openGate (hs : s.Hurried) (gate : String) :
    ({ s with host := (s.host.openGate gate).settle } : Session).Hurried := by
  have hhandles := (Host.keepsHandles_settle (s.host.openGate gate)).handles
  have hlength := Host.length_requests_settle (s.host.openGate gate)
  refine ⟨hs.timed, ?_, List.length_eq_zero_iff.mp (hlength.trans ?_)⟩
  · rw [hhandles]
    exact hs.hasty
  · exact congrArg List.length hs.unasked

/-- **A conversation without time** asks for nothing, line after line, by induction on what happens at the
terminal. -/
theorem converse (hs : s.Hurried) (events : List Event) :
    (s.converse events).2.Hurried ∧ (s.converse events).1.status ≠ refusedStatus := by
  induction events generalizing s with
  | nil => exact ⟨hs.speaks (.say s farewell), nofun⟩
  | cons event events ih =>
      cases event with
      | gateOpens gate => exact ih (hs.openGate gate)
      | interrupt => exact ⟨hs, nofun⟩
      | line text =>
          have hprompt : ∀ {s : Session}, s.Hurried → (s.say prompt).Hurried := fun hs =>
            hs.speaks (.say _ prompt)
          obtain ⟨s', hanswer, hs'⟩ := hs.answerLine text.strip events
          unfold Session.converse
          simp only [hanswer]
          split
          · exact ⟨hs.speaks (.say s farewell), nofun⟩
          · split
            · exact ih (hprompt hs)
            · split
              · exact ⟨hs, nofun⟩
              · exact ih (hprompt hs')

/-- A script without time is not evaluated. -/
theorem runScript (hs : s.Hurried) (files : Files.Tree) (file : Text) (parse : Bool)
    (format : Given Format) (events : List Event) :
    (s.runScript files file parse format events).2.Hurried ∧
      (s.runScript files file parse format events).1.status ≠ refusedStatus := by
  unfold Session.runScript
  dsimp only
  split
  · exact ⟨hs.speaks (.report ..), nofun⟩
  · exact ⟨hs, nofun⟩
  · exact ⟨hs, nofun⟩
  · exact ⟨hs, nofun⟩
  · exact ⟨hs, nofun⟩
  next source _ =>
    have hspeaks := Speaks.showResult s format (.expired false)
    simp only [hs.evaluate]
    split
    next hshown =>
      rw [hshown] at hspeaks
      exact ⟨hs.speaks hspeaks, nofun⟩
    next hshown =>
      rw [hshown] at hspeaks
      exact ⟨hs.speaks hspeaks, nofun⟩

/-- **What is done without time** asks for nothing, and is not refused. -/
theorem perform (hs : s.Hurried) (w : Surroundings) (a : Arguments) :
    (s.perform w a).2.Hurried ∧ (s.perform w a).1.status ≠ refusedStatus := by
  unfold Session.perform
  split
  · exact hs.runScript ..
  · exact (hs.speaks (.trans (.say s banner) (.say _ prompt))).converse w.events

/-- The whole of a session without time. -/
theorem start {id : Nat} {h : Host} (hopened : s.host.openRunning (configure w a) .system = (.ok id, h))
    (hs : ({ s with host := h, handle := id } : Session).Hurried) :
    (s.start w a).2.requests = [] ∧ (s.start w a).1.status ≠ refusedStatus := by
  obtain ⟨hended, hstatus⟩ := hs.perform w a
  simp only [Session.start, hopened]
  generalize ({ s with host := h, handle := id } : Session).perform w a = ended at hended hstatus
  obtain ⟨ending, s'⟩ := ended
  have hprinted := hended.speaks (.printLog s')
  cases ending with
  | waiting => exact ⟨hprinted.unasked, hstatus⟩
  | exit | interrupted | escaped =>
      refine ⟨(Speaks.detach _).requests.trans ?_, hstatus⟩
      exact List.length_eq_zero_iff.mp
        ((Host.length_requests_close ..).trans (congrArg List.length hprinted.unasked))

end Hurried

end Session

/-! ### Flags and variables -/

theorem Refused.run {e : Circumstances} {args : List Text} {h : Host}
    (hread : Invocation.read args = .run a) (hrefused : Refused e (runArguments w a h)) :
    Refused e (CommandLine.run args w h) := by
  rwa [(run_of_read hread).2.2 (by rw [hrefused.ending]; nofun)]

theorem runArguments_of_missing (w : Surroundings) (h : Host) (hconfig : Given.isMissing a.config = true)
    (htimeout : Given.isMissing a.timeout = false) :
    runArguments w a h = (.escaped .noPath, (Session.attach h a.verbose).detach.host) := by
  simp only [runArguments, hconfig, htimeout, if_true]
  rfl

/-- Nothing is started without a configuration, or without a library. -/
theorem refused_of_handleFault? {e : Circumstances} {f : Host.HandleFault}
    (hterminal : e.stdio.AtTerminal) (hconfig : Given.isMissing a.config = false)
    (htimeout : Given.isMissing a.timeout = false)
    (hfault : Session.handleFault? e (configure w a) = some f) (hf : Reported f) :
    Refused e (runArguments w a (World.opening e).host) := by
  obtain ⟨hs, -⟩ := Session.attached_attach a.verbose hterminal
  rw [runArguments_eq _ hconfig htimeout]
  exact hs.seated.refused_start hs.unasked (hs.openRunning_fst hfault) hf

/-- If a flag and a variable make the same configuration, the program does the same. -/
theorem runArguments_congr (h : Host) (hno : a.timeout = none)
    (hsame : configure (w.limited t) a = configure w (a.timed (.value x))) :
    runArguments (w.limited t) a h = runArguments w (a.timed (.value x)) h := by
  have htimeout : Given.isMissing a.timeout = Given.isMissing (a.timed (.value x)).timeout := by
    simp [Arguments.timed, hno, Given.isMissing]
  simp only [runArguments, Session.start, htimeout, hsame]
  rfl

/-- Without a configuration nothing is asked for. -/
theorem requests_of_error {e : Circumstances} {f : Config.Failure} (hterminal : e.stdio.AtTerminal)
    (hconfig : Given.isMissing a.config = false) (htimeout : Given.isMissing a.timeout = false)
    (hf : configure w a = .error f) : (runArguments w a (World.opening e).host).2.requests = [] := by
  obtain ⟨hs, -⟩ := Session.attached_attach a.verbose hterminal
  rw [runArguments_eq _ hconfig htimeout]
  refine (Session.requests_start (f := .configuration f) (by rw [hf]; rfl)).trans ?_
  exact (Host.Attended.openRunning hs.seated _ _).2.trans hs.unasked

/-- **If something else is wrong**, a flag and a variable come to the same: what is wrong is told, or the run
is refused for one reason or the other. -/
theorem runArguments_of_not_reached {e : Circumstances} (w : Surroundings) (hno : a.timeout = none)
    (hx : t.Denotes x) (hover : x.isNonPositive = true) (hterminal : e.stdio.AtTerminal)
    (hreached : ¬ Reached e w a) :
    let flagged := runArguments w (a.timed (.value x)) (World.opening e).host
    let varied := runArguments (w.limited t) a (World.opening e).host
    (flagged = varied ∧ varied.2.requests = []) ∨ Refused e flagged ∧ Refused e varied := by
  have htimed : Given.isMissing (a.timed (.value x)).timeout = false := by
    simp [Arguments.timed, hno, Given.isMissing]
  have hlimited : Given.isMissing a.timeout = false := by simp [hno, Given.isMissing]
  cases hconfig : Given.isMissing a.config with
  | true =>
      obtain ⟨hs, -⟩ := Session.attached_attach a.verbose hterminal
      have hvaried := runArguments_of_missing (w.limited t) (World.opening e).host hconfig hlimited
      refine .inl ⟨?_, ?_⟩
      · rw [hvaried]
        exact runArguments_of_missing w _ hconfig htimed
      · rw [hvaried]
        exact (Session.Speaks.detach _).requests.trans hs.unasked
  | false =>
      have hflagged := configure_timed w hno x
      rcases configure_limited_of_isNonPositive w a hx hover with ⟨f, hf, hvaried⟩ | ⟨⟨f, hvaried⟩, hfault⟩
      · refine .inl ⟨?_, requests_of_error hterminal hconfig hlimited hvaried⟩
        refine (runArguments_congr _ hno ?_).symm
        rw [hvaried, hflagged, hf]
        rfl
      · refine .inr ⟨?_, refused_of_handleFault? hterminal hconfig hlimited (by rw [hvaried]; rfl)
          (.configuration f)⟩
        cases hc : configure w a with
        | error f' =>
            obtain ⟨g, rfl⟩ := hfault f' hc
            rw [hc] at hflagged
            exact refused_of_handleFault? hterminal hconfig htimed (by rw [hflagged]; rfl) (.configuration g)
        | ok c =>
            have hrefused : ∃ f' ∈ Host.startFault? e.system ⟨c, .system, .fresh⟩ (e.behaviour.start 0),
                f'.kind.isHost = true := by
              by_contra hnone
              refine hreached ⟨hconfig, c, hc, fun f' hf' => ?_⟩
              exact Bool.eq_false_iff.mpr fun hhost => hnone ⟨f', hf', hhost⟩
            obtain ⟨f', hstart, hhost⟩ := hrefused
            rw [hc] at hflagged
            have hfault' : Session.handleFault? e (configure w (a.timed (.value x))) =
                some (.start f') := by
              rw [hflagged]
              exact congrArg (Option.map Host.HandleFault.start) hstart
            exact refused_of_handleFault? hterminal hconfig htimed hfault' (.start hhost)

/-- **If nothing else is wrong**, the run is refused with a variable, and goes on without time with a flag. -/
theorem runArguments_of_reached {e : Circumstances} (hno : a.timeout = none) (hx : t.Denotes x)
    (hover : x.isNonPositive = true) (hterminal : e.stdio.AtTerminal) (hreached : Reached e w a) :
    let flagged := runArguments w (a.timed (.value x)) (World.opening e).host
    (flagged.2.requests = [] ∧ flagged.1.status ≠ refusedStatus) ∧
      Refused e (runArguments (w.limited t) a (World.opening e).host) := by
  have htimed : Given.isMissing (a.timed (.value x)).timeout = false := by
    simp [Arguments.timed, hno, Given.isMissing]
  have hlimited : Given.isMissing a.timeout = false := by simp [hno, Given.isMissing]
  obtain ⟨hconfig, c, hc, hstart⟩ := hreached
  refine ⟨?_, ?_⟩
  · obtain ⟨hs, -⟩ := Session.attached_attach (a.timed (.value x)).verbose hterminal
    rw [runArguments_eq (a := a.timed (.value x)) _ hconfig htimed]
    generalize Session.attach (World.opening e).host (a.timed (.value x)).verbose = s at hs ⊢
    let c' := c.set (.timeout (some (.real x)))
    have hflagged : configure w (a.timed (.value x)) = .ok c' := by
      rw [configure_timed w hno, hc]
      rfl
    have hsame : Host.startFault? e.system ⟨c', .system, .fresh⟩ (e.behaviour.start 0) =
        Host.startFault? e.system ⟨c, .system, .fresh⟩ (e.behaviour.start 0) := rfl
    cases hfault : Host.startFault? e.system ⟨c', .system, .fresh⟩ (e.behaviour.start 0) with
    | some f =>
        have hhost := hstart f (hsame.symm.trans hfault)
        refine hs.unforeseen_start (f := f) ?_ hhost
        rw [hflagged]
        exact congrArg (Option.map Host.HandleFault.start) hfault
    | none =>
        rw [← hs.system, ← hs.next] at hfault
        obtain ⟨h, hopened, -, ⟨worker, hhandles⟩, hrequests⟩ :=
          serves_openRunning hs.seated hs.unmade hs.unasked hfault
        have hhandle : h.handles[0]? = some ⟨c', .system, .running worker⟩ := by simp [hhandles]
        have hhurried : ({ s with host := h, handle := 0 } : Session).Hurried :=
          ⟨hs.timed, ⟨_, hhandle, hover⟩, hrequests⟩
        exact hhurried.start (hflagged.symm ▸ hopened)
  · rcases configure_limited_of_isNonPositive w a hx hover with ⟨f, hf, -⟩ | ⟨⟨f, hvaried⟩, -⟩
    · cases hc.symm.trans hf
    · exact refused_of_handleFault? hterminal hconfig hlimited (by rw [hvaried]; rfl) (.configuration f)

section Runs

variable {e : Circumstances} {flagged args : List Text}

/-- If something else is wrong, the runs are alike, and neither asks for anything. -/
theorem run_of_not_reached (hflagged : Invocation.read flagged = .run (a.timed (.value x)))
    (hread : Invocation.read args = .run a) (hno : a.timeout = none) (hx : t.Denotes x)
    (hover : x.isNonPositive = true) (hterminal : e.stdio.AtTerminal) (hreached : ¬ Reached e w a) :
    let r := run flagged w (World.opening e).host
    let r' := run args (w.limited t) (World.opening e).host
    Alike r r' ∧ r.2.requests = [] ∧ r'.2.requests = [] := by
  intro r r'
  rcases runArguments_of_not_reached w hno hx hover hterminal hreached with
    ⟨heq, hunasked⟩ | ⟨hrefused, hrefused'⟩
  · have hsame : r = r' := by simp only [r, r', run, hflagged, hread, heq]
    have hnone : r'.2.requests = [] := (run_of_read hread).1.trans hunasked
    exact ⟨hsame ▸ ⟨rfl, rfl⟩, hsame ▸ hnone, hnone⟩
  · have h := hrefused.run hflagged
    have h' := hrefused'.run hread
    exact ⟨h.alike h', h.unasked, h'.unasked⟩

/-- If nothing else is wrong, one run is refused, and the other is not. -/
theorem run_of_reached (hflagged : Invocation.read flagged = .run (a.timed (.value x)))
    (hread : Invocation.read args = .run a) (hno : a.timeout = none) (hx : t.Denotes x)
    (hover : x.isNonPositive = true) (hterminal : e.stdio.AtTerminal) (hreached : Reached e w a) :
    let r := run flagged w (World.opening e).host
    (r.2.requests = [] ∧ r.1.status ≠ refusedStatus) ∧
      Refused e (run args (w.limited t) (World.opening e).host) := by
  intro r
  obtain ⟨⟨hunasked, hunrefused⟩, hrefused⟩ := runArguments_of_reached hno hx hover hterminal hreached
  obtain ⟨hrequests, hstatus, -⟩ := run_of_read (w := w) (h := (World.opening e).host) hflagged
  exact ⟨⟨hrequests.trans hunasked, hstatus.symm ▸ hunrefused⟩, hrefused.run hread⟩

end Runs

/-- **When a flag and a variable come to the same.** A time limit that is given by a flag and one that is given
by a variable, with none given besides, come to the same exit status and output exactly if the limit is not
at most zero, or there is something else wrong before anything could be evaluated. Nothing is asked for if it
is at most zero; but then the variable is refused, and the flag is not. If it is not, all is the same. -/
theorem run_timeLimit_alike_iff {e : Circumstances} {flag args : List Text} (hflag : Flag t flag)
    (hx : t.Denotes x) (hread : Invocation.read args = .run a) (hno : a.timeout = none)
    (hunset : w.environment.lookup (variableName .timeout) = none) (hterminal : e.stdio.AtTerminal) :
    let flagged := run (flag ++ args) w (World.opening e).host
    let varied := run args (w.limited t) (World.opening e).host
    (Alike flagged varied ↔ x.isNonPositive = false ∨ ¬ Reached e w a) ∧
      (x.isNonPositive = false → flagged = varied) ∧
      (x.isNonPositive = true → flagged.2.requests = [] ∧ varied.2.requests = []) ∧
      (x.isNonPositive = true → Reached e w a →
        flagged.1.status ≠ refusedStatus ∧ varied.1.status = refusedStatus) := by
  intro flagged varied
  have hreadFlag := Invocation.read_flag hflag hx hread
  cases hover : x.isNonPositive with
  | false =>
      have hsame := runArguments_congr (World.opening e).host hno (configure_limited hno hunset hx hover)
      have heq : flagged = varied := by simp only [flagged, varied, run, hreadFlag, hread, hsame]
      exact ⟨iff_of_true (heq ▸ ⟨rfl, rfl⟩) (.inl rfl), fun _ => heq, fun h => Bool.noConfusion h,
        fun h => Bool.noConfusion h⟩
  | true =>
      by_cases hreached : Reached e w a
      · obtain ⟨⟨hunasked, hunrefused⟩, hrefused⟩ :=
          run_of_reached hreadFlag hread hno hx hover hterminal hreached
        have hstatus : varied.1.status = refusedStatus := by rw [hrefused.ending]; rfl
        refine ⟨iff_of_false (fun halike => hunrefused (halike.status.trans hstatus)) ?_,
          fun h => Bool.noConfusion h, fun _ => ⟨hunasked, hrefused.unasked⟩,
          fun _ _ => ⟨hunrefused, hstatus⟩⟩
        rintro (h | h)
        · cases h
        · exact h hreached
      · obtain ⟨halike, hunasked⟩ :=
          run_of_not_reached hreadFlag hread hno hx hover hterminal hreached
        exact ⟨iff_of_true halike (.inr hreached), fun h => Bool.noConfusion h, fun _ => hunasked,
          fun _ h => absurd h hreached⟩

/-- A script that is not evaluated, with a negative limit as a flag, and not even a library with the
variable. -/
theorem run_timeLimit_alike_iff_of_negative :
    let e : Circumstances :=
      { system := { found := some "libjanet.so" }
        behaviour := { programs := [("(f)", [{ value := .ofString "1" }])] } }
    let w : Surroundings := { files := [(["s"], .file (Text.terminalBytes "(f)"))] }
    let flagged := run ["--timeout", "-2.5", "s"] w (World.opening e).host
    let varied := run ["s"] (w.limited "-2.5") (World.opening e).host
    (flagged.1.status = some 1 ∧ varied.1.status = some 2) ∧
      flagged.2.stdio.shown .err = Text.terminalBytes "Timeout: deadline exceeded\n" ∧
      (Alike flagged varied ↔ (Double.ofDecimal true 25 (-1)).isNonPositive = false ∨
        ¬ Reached e w { file := some "s" }) := by
  intro e w flagged varied
  have hx : Text.Denotes "-2.5" (.ofDecimal true 25 (-1)) := by
    show (Text.ofString "-2.5").toString?.bind Number.readDouble? = _
    decide +kernel
  have hread : Invocation.read ["s"] = .run { file := some "s" } := rfl
  refine ⟨⟨?_, ?_⟩, ?_,
    (run_timeLimit_alike_iff (.apart rfl) hx hread rfl rfl Stdio.atTerminal_default).1⟩
  all_goals decide +kernel

/-- **A time limit of zero** is a counterexample: the variable is refused, the flag is not. -/
theorem not_alike_of_zero :
    let e : Circumstances :=
      { system := { found := some "libjanet.so" }
        behaviour := { programs := [("(f)", [{ value := .ofString "1" }])] } }
    let w : Surroundings := { files := [(["s"], .file (Text.terminalBytes "(f)"))] }
    ¬ Alike (run ["--timeout", "0", "s"] w (World.opening e).host)
      (run ["s"] (w.limited "0") (World.opening e).host) := by
  intro e w halike
  have hstatus := halike.status
  revert hstatus
  decide +kernel

end CommandLine

end JanetEmbedding
