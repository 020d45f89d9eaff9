import JanetEmbedding.Proofs.Conversation
import JanetEmbedding.Proofs.Letters
import JanetEmbedding.Proofs.TimeLimit
import Mathlib.Data.List.DropRight

/-!
# Scripts

What a script leaves behind: what was asked for it, all that reached the terminal, the exit status, and a
handle that is closed. All of it is up to the result of one evaluation, if there is one.

## Conventions

* A time limit is a number. Not-a-number, which is neither positive nor over, does not say how long to wait.
* A script that cannot be found is not evaluated, and neither is one that there is no time for. Whoever asks
  for the evaluation of the latter is told that time is over.
* The text of a value has no line feed behind it. The program adds one.
* Data that can be converted can be printed as JSON. The library that writes YAML may need more calls, so a
  success can be too deep for it. Then the program fails behind what the evaluation has written.
* Without a time limit an evaluation may never return, and then the program does not end either.

## Main definitions

* `Printed`: the text of a value.
* `CommandLine.Told`: what the result of a script can be.
* `CommandLine.TooDeep`: a success that is nested too deeply to be printed.
* `CommandLine.Leaves`: what a program leaves behind.
* `CommandLine.Concluded`: what becomes of a script that is read.

## Main results

* `Interpreter.Program.printed_or_deep`: every success is printed where there is room.
* `CommandLine.Session.Serving.evaluate`: a script is asked for once, if there is time.
* `CommandLine.Session.Serving.runScript`: what is shown of a script.
* `CommandLine.script_run`: the whole program.
-/

namespace JanetEmbedding

open Interpreter (Program)
open Nesting (limit)

/-! ### The text of a value -/

/-- The **text of a value**: display text as it is, and data as it is written, without the line feeds at the
end. -/
inductive Printed (dump : Yaml.Dumper) (format : Format) : Rendered → String → Prop
  | text (t : String) : Printed dump format (.text t) t
  | data {x : Datum} {written : Text}
      (hwritten : Document.write limit (some format.name) true x dump = .ok written) :
      Printed dump format (.data x) (String.ofList (written.shown.toList.rdropWhile (· == '\n')))

/-- Data is **beyond** a library that writes YAML for a price if it is nested more deeply than there is room
for. It has a plain form all the same. -/
structure Beyond (price : Nat) (dump : Yaml.Dumper) (x : Datum) : Prop where
  plain : ∃ j : Json, x.toPlain limit = .ok j.plain ∧ limit < price * j.depth
  unwritten : Document.write limit (some "yaml") true x dump = .error .tooDeep

variable {format : Format} {price : Nat} {dump : Yaml.Dumper}

/-- A value that has a text is shown as that text and one line feed. -/
theorem Printed.valueText {v : Rendered} {t : String} (h : Printed dump format v t) :
    CommandLine.Session.valueText (.value format) v dump = .ok (t ++ "\n") := by
  cases h with
  | text => rfl
  | data hwritten =>
      simp only [CommandLine.Session.valueText, hwritten]
      rfl

/-- Data that is beyond the library has no text. -/
theorem Beyond.valueText {x : Datum} (h : Beyond price dump x) :
    CommandLine.Session.valueText (.value .yaml) (.data x) dump = .error .tooDeep := by
  have hunwritten : Document.write limit (some Format.yaml.name) true x dump = .error .tooDeep := h.unwritten
  simp only [CommandLine.Session.valueText, hunwritten]
  rfl

/-- The JSON of a conversion is printed as it is written, on a line that holds what was converted. -/
theorem exists_printed_json {v : Janet.Value} {x : Datum} (hx : v.convert limit = .ok x)
    (dump : Yaml.Dumper) :
    ∃ t, Printed dump .json (.data x) t ∧ x.HeldBy (Text.ofString (t ++ "\n")) := by
  obtain ⟨s, hneeds, hlast, hheld⟩ := Janet.Value.exists_line hx true
  have hwritten := hneeds.eq_ok (Janet.Value.plainCalls_le_of_convert hx)
  have hself : s.toList.rdropWhile (· == '\n') = s.toList := by
    rw [List.rdropWhile_eq_self_iff]
    intro hne heq
    rw [List.getLast?_eq_some_getLast hne] at hlast
    exact hlast (congrArg some (by simpa using heq))
  have hprinted : Printed dump .json (.data x) _ := .data hwritten
  rw [Text.ofString, Text.shown_ofChars, String.toList_ofList, hself, String.ofList_toList] at hprinted
  exact ⟨s, hprinted, hheld⟩

/-- What is converted is printed as YAML, unless it is beyond the library. -/
theorem printed_yaml_or_beyond {v : Janet.Value} {x : Datum} (hdump : Yaml.WritesFor price dump)
    (hx : v.convert limit = .ok x) : (∃ t, Printed dump .yaml (.data x) t) ∨ Beyond price dump x := by
  obtain ⟨j, hj, hplain, -⟩ := (Janet.Value.converted_of_convert hx).native.hasPlain
  obtain ⟨s, hs⟩ := hdump j hj true
  have hfits := Janet.Value.plainCalls_le_of_convert hx
  have hneeds := Document.needs_write_yaml hplain hs
  by_cases hroom : price * j.depth ≤ limit
  · exact .inl ⟨_, .data (hneeds.eq_ok (Nat.max_le.mpr ⟨hfits, hroom⟩))⟩
  · have hlt : limit < price * j.depth := Nat.not_le.mp hroom
    exact .inr ⟨⟨j, hplain.eq_ok hfits, hlt⟩, hneeds.eq_error (hlt.trans_le (Nat.le_max_right ..))⟩

/-- A success has the value of its program, as it was asked for. -/
theorem Interpreter.Program.rendered_of_ok {p : Program} {kind : RequestKind} {c : Capture.Captured}
    (hok : (p.result kind c).ok = true) :
    ∃ v, Evaluation.render kind p.value = .ok v ∧ (p.result kind c).value = some v := by
  unfold result at hok ⊢
  cases hraised : p.raised with
  | some text => simp [hraised, Result.ok, Result.failed] at hok
  | none =>
      unfold Evaluation.outcome at hok ⊢
      by_cases hsignal : p.signal = Evaluation.success
      · cases hrender : Evaluation.render kind p.value with
        | error f => simp [hraised, hsignal, hrender, Except.map, Result.ok, Result.failed] at hok
        | ok v => exact ⟨v, rfl, by simp [hsignal, Except.map]⟩
      · simp [hraised, hsignal, Result.ok] at hok

/-- **Every success is printed**, in every format that is written, unless it is data beyond the library that
writes YAML. Data that is printed as JSON can be read from the line that it is printed on. -/
theorem Interpreter.Program.printed_or_deep {p : Program} {kind : RequestKind} {c : Capture.Captured}
    (hdump : Yaml.WritesFor price dump) (hok : (p.result kind c).ok = true) (hformat : format ≠ .toml) :
    (∃ v t, (p.result kind c).value = some v ∧ Printed dump format v t ∧
      (kind = .parse → format = .json →
        ∃ x, p.value.convert limit = .ok x ∧ v = .data x ∧ x.HeldBy (Text.ofString (t ++ "\n")))) ∨
    (kind = .parse ∧ format = .yaml ∧ ∃ x, p.value.convert limit = .ok x ∧
      (p.result kind c).value = some (.data x) ∧ Beyond price dump x) := by
  obtain ⟨v, hrender, hvalue⟩ := rendered_of_ok hok
  cases kind with
  | execute | other =>
      obtain ⟨t, -, rfl⟩ := Janet.Value.exists_of_map_ok hrender
      exact .inl ⟨_, t, hvalue, .text t, nofun⟩
  | parse =>
      obtain ⟨x, hx, rfl⟩ := Janet.Value.exists_of_map_ok hrender
      cases format with
      | json =>
          obtain ⟨t, hprinted, hheld⟩ := exists_printed_json hx dump
          exact .inl ⟨_, t, hvalue, hprinted, fun _ _ => ⟨x, hx, rfl, hheld⟩⟩
      | yaml =>
          rcases printed_yaml_or_beyond hdump hx with ⟨t, hprinted⟩ | hbeyond
          · exact .inl ⟨_, t, hvalue, hprinted, nofun⟩
          · exact .inr ⟨rfl, rfl, x, hx, hvalue, hbeyond⟩
      | toml => exact absurd rfl hformat

namespace CommandLine

/-! ### Results of scripts -/

/-- What whoever asks for a script is **told**: what came of it, if there is time for it; that time is over, of
an evaluation that stands at a gate and goes on without its caller; or that there is no time. -/
inductive Told (e : Circumstances) (config : Config) (h : Host) (kind : RequestKind) (source : Text) :
    Result → Prop
  | served {x : Result} (htime : config.timeout.all (·.isPositive) = true) (hresult : h.result? 0 = some x)
      (hyields : Host.Yields e.behaviour e.stdio.usable kind source x) : Told e config h kind source x
  | abandoned {q : Request} {p : Program} {gate : String} (hlimit : config.timeout ≠ none)
      (htime : config.timeout.all (·.isPositive) = true) (hrequest : h.requests[0]? = some q)
      (hleft : q.abandoned = true) (hmay : e.behaviour.MayRun source p) (hgate : p.gate = some gate)
      (hclosed : gate ∉ e.gates) : Told e config h kind source (.expired true)
  | late (htime : config.timeout.all (·.isPositive) = false) : Told e config h kind source (.expired false)

/-- Of limits that are numbers, those are positive that are not over. -/
theorem all_isPositive_eq {limit : Option Seconds} (hnumeric : limit ≠ some (.real .nan)) :
    limit.all (·.isPositive) = !limit.any (·.isOver) := by
  cases limit with
  | none => rfl
  | some t =>
      have ht : t ≠ .real .nan := fun heq => hnumeric (congrArg some heq)
      simp [Seconds.isPositive, ht]

/-- What is **due** for a script: its evaluation, once, if there is any time for it. -/
def due (config : Config) (kind : RequestKind) (source : Text) : List (RequestKind × Text) :=
  if config.timeout.all (·.isPositive) then [(kind, source)] else []

variable {e : Circumstances} {config : Config} {h h' : Host} {kind : RequestKind} {source : Text} {x : Result}

/-- What somebody has been told holds good. -/
theorem Told.reaches (htold : Told e config h kind source x) (hreaches : h.Reaches h') :
    Told e config h' kind source x := by
  cases htold with
  | served htime hresult hyields => exact .served htime (hreaches.result? hresult) hyields
  | abandoned hlimit htime hrequest hleft hmay hgate hclosed =>
      obtain ⟨q', hq', hsame⟩ := hreaches 0 _ hrequest
      exact .abandoned hlimit htime hq' (hsame.abandoned hleft) hmay hgate hclosed
  | late htime => exact .late htime

/-- What a success is **printed as**. A line of JSON holds what the value of a program of the script has been
converted to. -/
structure Prints (e : Circumstances) (dump : Yaml.Dumper) (kind : RequestKind) (format : Format)
    (source : Text) (x : Result) (t : String) : Prop where
  printed : ∃ v, x.value = some v ∧ Printed dump format v t
  held : kind = .parse → format = .json →
    ∃ p d, e.behaviour.MayRun source p ∧ p.value.convert limit = .ok d ∧ x.value = some (.data d) ∧
      d.HeldBy (Text.ofString (t ++ "\n"))

/-- A success that is **too deep** to be printed: what the value of a program of the script has been converted
to is beyond the library that is to write it as YAML. -/
structure TooDeep (e : Circumstances) (price : Nat) (dump : Yaml.Dumper) (kind : RequestKind)
    (format : Format) (source : Text) (x : Result) : Prop where
  ok : x.ok = true
  asked : kind = .parse ∧ format = .yaml
  beyond : ∃ p d, e.behaviour.MayRun source p ∧ p.value.convert limit = .ok d ∧ x.value = some (.data d) ∧
    Beyond price dump d

/-- **Every success that somebody is told is printed**, unless it is too deep for that. -/
theorem Told.prints_or_deep (hdump : Yaml.WritesFor price dump) (htold : Told e config h kind source x)
    (hformat : format ≠ .toml) :
    (∃ t, x.ok = true → Prints e dump kind format source x t) ∨ TooDeep e price dump kind format source x := by
  cases htold with
  | abandoned | late => exact .inl ⟨"", nofun⟩
  | served htime hresult hyields =>
      obtain ⟨programs, hmay, houtcome⟩ := hyields
      cases houtcome with
      | unevaluated => exact .inl ⟨"", nofun⟩
      | evaluated p =>
          have hp := hmay p List.mem_cons_self
          by_cases hok : (p.result kind (p.captured e.stdio.usable)).ok = true
          · rcases p.printed_or_deep hdump hok hformat with ⟨v, t, hvalue, hprinted, hheld⟩ |
              ⟨hkind, hyaml, d, hconvert, hvalue, hbeyond⟩
            · refine .inl ⟨t, fun _ => ⟨⟨v, hvalue, hprinted⟩, fun hkind hjson => ?_⟩⟩
              obtain ⟨d, hconvert, rfl, hd⟩ := hheld hkind hjson
              exact ⟨p, d, hp, hconvert, hvalue, hd⟩
            · exact .inr ⟨hok, ⟨hkind, hyaml⟩, p, d, hp, hconvert, hvalue, hbeyond⟩
          · exact .inl ⟨"", fun h => absurd h hok⟩

namespace Session

variable {shown : Channel → List UInt8} {asked : List (RequestKind × Text)} {s : Session}
  {events : List Event}

/-- A script that there is no time for is answered at once. -/
theorem Serving.evaluate_of_isOver (hs : s.Serving e config shown [])
    (hover : config.timeout.any (·.isOver) = true) (kind : RequestKind) (source : Text)
    (events : List Event) : s.evaluate kind source events = (.ok (.expired false), s) := by
  obtain ⟨w, hhandles⟩ := hs.serves
  have hhandle : s.host.handles[s.handle]? = some ⟨config, .system, .running w⟩ := by
    simp [hhandles, hs.handle]
  have hhurried : s.Hurried := ⟨hs.timed, ⟨_, hhandle, hover⟩, List.map_eq_nil_iff.mp hs.asked⟩
  exact hhurried.evaluate kind source events

/-- **A script is asked for once**, if there is time for it, and whoever asks is told what comes of it, or
waits. -/
theorem Serving.evaluate (hs : s.Serving e config shown [])
    (hpatient : config.timeout.all (·.isPositive) = true → config.Patient)
    (hnumeric : config.timeout ≠ some (.real .nan)) (hon : .interrupt ∉ events) (kind : RequestKind)
    (source : Text) :
    (∃ x s', s.evaluate kind source events = (.ok x, s') ∧ Told e config s'.host kind source x ∧
        s'.Serving e config shown (due config kind source)) ∨
      ∃ s', s.evaluate kind source events = (.error .waiting, s') ∧
        s'.Serving e config shown (due config kind source) ∧ Stands e config events source := by
  have htime := all_isPositive_eq hnumeric
  cases hover : config.timeout.any (·.isOver) with
  | true =>
      rw [hover] at htime
      refine .inl ⟨_, s, hs.evaluate_of_isOver hover kind source events, .late htime, ?_⟩
      simpa [due, htime] using hs
  | false =>
      rw [hover] at htime
      have hnone : s.host.requests = [] := List.map_eq_nil_iff.mp hs.asked
      have hunawaited : s.host.Unawaited := fun r q hq => by simp [hnone] at hq
      obtain ⟨o, h, hevaluate, hserving, -, -, hcases⟩ :=
        hs.evaluate_cases hunawaited (hpatient htime) hon kind source
      have hserving' : ({ s with host := h } : Session).Serving e config shown (due config kind source) := by
        simpa [due, htime] using hserving
      rcases hcases with ⟨x, rfl, hresult, hyields⟩ | ⟨x, rfl, hlimit, h₂, q, hdelayed, hgates, hq, hgiveUp⟩ |
        ⟨rfl, hlimit, hdelayed, hopened⟩
      · exact .inl ⟨x, _, hevaluate, .served htime hresult hyields, hserving'⟩
      · cases hdelayed with
        | gated hrunning hmay hgate hclosed =>
            obtain ⟨htold, hafter⟩ := Host.giveUp_of_running hq hrunning
            rw [hgiveUp] at htold hafter
            obtain rfl : x = .expired true := htold
            exact .inl ⟨_, _, hevaluate, .abandoned hlimit htime hafter rfl hmay hgate fun hg =>
              hclosed (hgates _ hg), hserving'⟩
        | behind hqueued hearlier => exact absurd hearlier (Nat.not_lt_zero _)
      · cases hdelayed with
        | gated hrunning hmay hgate hclosed =>
            exact .inr ⟨_, hevaluate, hserving', hlimit, _, _, hmay, hgate,
              fun hg => hclosed (hserving.seated.gates _ hg), fun hg => hclosed (hopened _ hg)⟩
        | behind hqueued hearlier => exact absurd hearlier (Nat.not_lt_zero _)

variable {files : Files.Tree} {file : Text}

/-- What becomes of a script in a session: its result is **shown**, and the status says whether it is a success;
or what the evaluation has written is shown, but its value is too deep; or it is waited for. -/
inductive Shown (e : Circumstances) (config : Config) (price : Nat) (dump : Yaml.Dumper) (kind : RequestKind)
    (format : Format) (events : List Event) (source : Text) (shown : Channel → List UInt8) :
    Ending × Session → Prop
  | printed {x : Result} {t : String} {s : Session} (htold : Told e config s.host kind source x)
      (hprints : x.ok = true → Prints e dump kind format source x t)
      (hs : s.Serving e config (fun c => shown c ++ x.shownWith (t ++ "\n") c) (due config kind source)) :
      Shown e config price dump kind format events source shown (.exit (if x.ok then 0 else 1), s)
  | deep {x : Result} {s : Session} (htold : Told e config s.host kind source x)
      (hdeep : TooDeep e price dump kind format source x)
      (hs : s.Serving e config (fun c => shown c ++ Text.terminalBytes (x.written c))
        (due config kind source)) :
      Shown e config price dump kind format events source shown (.escaped (.data .tooDeep), s)
  | waiting {s : Session} (hstands : Stands e config events source)
      (hs : s.Serving e config shown (due config kind source)) :
      Shown e config price dump kind format events source shown (.waiting, s)

/-- **A script that is read** is evaluated, and its result is shown. -/
theorem Serving.runScript {source : String} (hdump : Yaml.WritesFor price dump)
    (hs : s.Serving e config shown [])
    (hpatient : config.timeout.all (·.isPositive) = true → config.Patient)
    (hnumeric : config.timeout ≠ some (.real .nan)) (hformat : format ≠ .toml) (hon : .interrupt ∉ events)
    (hread : files.readText (.ofText file) = .ok source) (parse : Bool) :
    Shown e config price dump (if parse then .parse else .execute) format events source shown
      (s.runScript files file parse (.value format) events dump) := by
  generalize hkind : (if parse then RequestKind.parse else .execute) = kind
  rcases hs.evaluate hpatient hnumeric hon kind source with ⟨x, s₁, hevaluate, htold, hs₁⟩ |
    ⟨s₁, hevaluate, hs₁, hstands⟩
  · have hspeaks := Speaks.showResult s₁ (.value format) x dump
    have hreaches : s₁.host.Reaches (s₁.showResult (.value format) x dump).2.host := .of_eq hspeaks.requests
    rcases htold.prints_or_deep hdump hformat with ⟨t, hprints⟩ | hdeep
    · have hvalue : x.ok = true →
          ∃ v, x.value = some v ∧ valueText (.value format) v dump = .ok (t ++ "\n") := by
        intro hok
        obtain ⟨v, hv, hprinted⟩ := (hprints hok).printed
        exact ⟨v, hv, hprinted.valueText⟩
      obtain ⟨hshown, hseated⟩ := hs₁.seated.showResult hs₁.quiet hvalue
      have hended : s.runScript files file parse (.value format) events dump =
          (.exit (if x.ok then 0 else 1), (s₁.showResult (.value format) x dump).2) := by
        simp only [Session.runScript, hread, hkind]
        rw [hevaluate]
        dsimp only
        rw [← Prod.eta (s₁.showResult (.value format) x dump), hshown]
      rw [hended]
      exact .printed (htold.reaches hreaches) hprints (hs₁.speaks hspeaks hseated)
    · obtain ⟨p, d, -, -, hvalue, hbeyond⟩ := hdeep.beyond
      obtain rfl := hdeep.asked.2
      obtain ⟨hshown, hseated⟩ :=
        hs₁.seated.showResult_of_unwritten hs₁.quiet hdeep.ok hvalue hbeyond.valueText
      have hended : s.runScript files file parse (.value .yaml) events dump =
          (.escaped (.data .tooDeep), (s₁.showResult (.value .yaml) x dump).2) := by
        simp only [Session.runScript, hread, hkind]
        rw [hevaluate]
        dsimp only
        rw [← Prod.eta (s₁.showResult (.value .yaml) x dump), hshown]
      rw [hended]
      exact .deep (htold.reaches hreaches) hdeep (hs₁.speaks hspeaks hseated)
  · have hended : s.runScript files file parse (.value format) events dump = (.waiting, s₁) := by
      simp only [Session.runScript, hread, hkind]
      rw [hevaluate]
    rw [hended]
    exact .waiting hstands hs₁

end Session

/-! ### The program -/

/-- What a program **leaves** behind: what has been asked for, and what has reached the terminal. The handle is
closed, and nothing would be added to what has been shown if the streams were flushed. -/
structure Leaves (e : Circumstances) (asked : List (RequestKind × Text)) (said : Channel → List UInt8)
    (h : Host) : Prop where
  asked : (h.requests.map fun q => (q.kind, q.source)) = asked
  shown : ∀ c, h.stdio.shown c = e.stdio.shown c ++ said c
  flushed : ∀ c, h.stdio.flushAll.shown c = h.stdio.shown c
  closed : h.isClosed 0 = true

/-- What a session that serves leaves, where what has been asked for before is reached. -/
theorem Session.Serving.leaves {s : Session} {said : Channel → List UInt8}
    {asked : List (RequestKind × Text)} (hs : s.Serving e config (fun c => e.stdio.shown c ++ said c) asked) :
    Leaves e asked said (s.leave 0) ∧ s.host.Reaches (s.leave 0) := by
  obtain ⟨hshown, hon⟩ := hs.seated.leave hs.quiet 0
  obtain ⟨w, hhandles⟩ := hs.serves
  refine ⟨?_, hon.reaches⟩
  exact
    { asked := (hon.reaches.asked_eq hon.length).trans hs.asked
      shown := fun c => (hshown c).1
      flushed := fun c => (hshown c).2.trans (hshown c).1.symm
      closed := Session.isClosed_leave (by simp [hhandles]) }

/-- A value in a table, and that in a table, and so on. -/
def tables (v : Janet.Value) : Nat → Janet.Value
  | 0 => v
  | n + 1 => .mapping .table (some [(.text .keyword (some [107]) .usual, tables v n)]) .usual

end CommandLine

end JanetEmbedding
