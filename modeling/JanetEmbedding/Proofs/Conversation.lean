import JanetEmbedding.Proofs.Sessions
import JanetEmbedding.Proofs.Validity

/-!
# Conversations

What a conversation leaves behind, line after line: the requests that were made for it, and all that
reached the terminal. The prompts and the results go through duplicates of the descriptors, so they
arrive while an evaluation that has outlived its time still holds these, and nothing else does.

## Conventions

* The lines of a conversation are those that are read up to the end of the input, which is the end of
  the list or an empty text. Gates may open while a line is waited for.
* A line is **heard** if it stands in front of the first one that tells the conversation to end.
* Without a time limit a line may be waited for for ever. Then the conversation is held, and so far as it has
  come it is like any other.

## Main definitions

* `Result.said`: what a result is shown as, on either channel.
* `CommandLine.heard`: the lines that are answered.
* `CommandLine.Turn`: a line and what became of it.
* `CommandLine.Session.Held`: a session that waits for a line.
* `CommandLine.Transcript`: what a conversation leaves behind.
* `CommandLine.ComesTo`: a conversation that is over, or held.

## Main results

* `CommandLine.Session.Attended.answerLine`: one line.
* `CommandLine.Session.Attended.converse`: a conversation, by induction on what happens at the terminal.
* `CommandLine.conversation_run`: the whole program.
-/

namespace JanetEmbedding

open Interpreter (Program)

/-! ### What results are shown as -/

/-- The display text of a result. -/
def Result.displayed (x : Result) : String :=
  match x.value with
  | some (.text t) => t
  | _ => ""

/-- What a result **is shown as**: the output of the evaluation, and behind it the value or the fault. -/
def Result.said (x : Result) : Channel → List UInt8
  | .out =>
      Text.terminalBytes x.stdout ++
        if x.ok then Text.terminalBytes (.ofString (x.displayed ++ "\n")) else []
  | .err =>
      Text.terminalBytes x.stderr ++ if x.ok then [] else (x.formatError ++ "\n").terminalBytes

theorem Result.said_eq (x : Result) : x.said = x.shownWith (x.displayed ++ "\n") := by
  funext c
  cases c <;> rfl

/-- A result **has its value** if it has a display text, unless something is wrong. -/
def Result.Displays (x : Result) : Prop := x.ok = true → ∃ t, x.value = some (.text t)

theorem Result.displays_of_not_ok {x : Result} (h : x.ok = false) : x.Displays :=
  fun hok => by cases h.symm.trans hok

/-- A program that is executed has a display text as its value. -/
theorem Interpreter.Program.displays_result (p : Program) (c : Capture.Captured) :
    (p.result .execute c).Displays := by
  unfold result
  cases p.raised with
  | some text => exact Result.displays_of_not_ok rfl
  | none =>
      unfold Evaluation.outcome
      by_cases hsignal : p.signal = Evaluation.success
      · cases hdisplay : p.value.display Nesting.limit with
        | error f =>
            simp [hsignal, Evaluation.render, hdisplay, Except.map, Result.Displays, Result.ok,
              Result.failed]
        | ok t => simp [hsignal, Evaluation.render, hdisplay, Except.map, Result.Displays]
      · simp [hsignal, Result.Displays, Result.ok]

/-- What a caller is told has its value. -/
theorem Host.Replies.displays {e : Circumstances} {config : Config} {h : Host} {r : Nat} {source : Text}
    {x : Result} (hreplies : h.Replies e config r source x) : x.Displays := by
  cases hreplies with
  | served hresult hyields =>
      obtain ⟨programs, -, houtcome⟩ := hyields
      cases houtcome with
      | unevaluated => exact Result.displays_of_not_ok rfl
      | evaluated p => exact p.displays_result _
  | abandoned _ hx | withdrawn _ hx => exact hx ▸ Result.displays_of_not_ok rfl

namespace CommandLine

/-! ### Turns -/

/-- The line that is read. -/
def Event.line? : Event → Option Text
  | line text => some text
  | _ => none

/-- What tells a conversation to end. -/
def exitWord : Text := "exit"

/-- The lines up to the end of the input, without the blanks around them. -/
def given (lines : List Text) : List Text := (lines.takeWhile (!·.isEmpty)).map Text.strip

/-- The lines that are **heard**: those in front of the first one that tells the conversation to end. -/
def heard (lines : List Text) : List Text := (given lines).takeWhile (· ≠ exitWord)

/-- What a conversation ends with: a farewell, unless it is told to end. -/
def ending (lines : List Text) : List UInt8 :=
  if exitWord ∈ given lines then [] else Text.terminalBytes Session.farewell

/-- A **turn** of a conversation: a line, and the result if it is evaluated. -/
structure Turn where
  line : Text
  result? : Option Result := none

namespace Turn

/-- The line that is evaluated, with its result. -/
def exchange? (t : Turn) : Option (Text × Result) := t.result?.map (t.line, ·)

/-- What is shown behind the prompt. -/
def said (t : Turn) (c : Channel) : List UInt8 := t.result?.elim [] (·.said c)

/-- The prompt, and what is shown behind it. -/
def shown (t : Turn) (c : Channel) : List UInt8 :=
  (if c = .out then Text.terminalBytes Session.prompt else []) ++ t.said c

end Turn

/-- The turns of a conversation **fit** its lines: there is one for each line that is heard, as far as they go,
and blank lines are passed over. -/
structure Fits (lines : List Text) (turns : List Turn) (rest : List Text) : Prop where
  lines : heard lines = turns.map (·.line) ++ rest
  evaluated : ∀ t ∈ turns, t.result?.isSome = !t.line.isEmpty

/-- The end of the input. -/
theorem given_of_isEmpty {text : Text} (h : text.isEmpty = true) (lines : List Text) :
    given (text :: lines) = [] := by
  simp [given, h]

theorem given_cons {text : Text} (h : text.isEmpty = false) (lines : List Text) :
    given (text :: lines) = text.strip :: given lines := by
  simp [given, h]

/-- A turn in front of others that fit. -/
theorem Fits.cons {text : Text} {lines rest : List Text} {t : Turn} {turns : List Turn}
    (hfits : Fits lines turns rest) (hend : text.isEmpty = false) (hexit : text.strip ≠ exitWord)
    (hline : t.line = text.strip) (hevaluated : t.result?.isSome = !t.line.isEmpty) :
    Fits (text :: lines) (t :: turns) rest := by
  refine ⟨?_, List.forall_mem_cons.mpr ⟨hevaluated, hfits.evaluated⟩⟩
  have hheard : heard (text :: lines) = text.strip :: heard lines := by
    simp [heard, given_cons hend, hexit]
  rw [hheard, hfits.lines, List.map_cons, hline, List.cons_append]

namespace Session

/-- A session **attended** at its terminal, where it has shown something: it serves, and the calls that it has
made are those of some lines, with what was told. -/
structure Attended (e : Circumstances) (config : Config) (shown : Channel → List UInt8)
    (exchanges : List (Text × Result)) (s : Session) : Prop where
  serving : s.Serving e config shown (exchanges.map fun (line, _) => (.execute, line))
  replies : ∀ r line x, exchanges[r]? = some (line, x) → s.host.Replies e config r line x

/-- A session that is **held**: one more line has been asked for, and a program of it stands at a gate. -/
structure Held (e : Circumstances) (config : Config) (shown : Channel → List UInt8)
    (exchanges : List (Text × Result)) (line : Text) (events : List Event) (s : Session) : Prop where
  serving : s.Serving e config shown
    ((exchanges.map fun (line, _) => (.execute, line)) ++ [(.execute, line)])
  replies : ∀ r line x, exchanges[r]? = some (line, x) → s.host.Replies e config r line x
  stands : Stands e config events line

/-- All gates that open in the course of some events have opened, or **are to open**. -/
def Opens (s : Session) (events ahead : List Event) : Prop :=
  ∀ gate, .gateOpens gate ∈ events → gate ∈ s.host.gates ∨ .gateOpens gate ∈ ahead

variable {e : Circumstances} {config : Config} {shown shown' : Channel → List UInt8}
  {exchanges : List (Text × Result)} {s s' : Session} {events ahead : List Event}

/-- Behind a line there is what was to open in front of it. -/
theorem Opens.line {text : Text} (hs : s.Opens events (.line text :: ahead))
    (hgates : ∀ g ∈ s.host.gates, g ∈ s'.host.gates) : s'.Opens events ahead := by
  intro gate hgate
  rcases hs gate hgate with hopen | hlater
  · exact .inl (hgates gate hopen)
  · exact .inr ((List.mem_cons.mp hlater).resolve_left nofun)

/-- A gate that opens is to open no more. -/
theorem Opens.gate {gate : String} (hs : s.Opens events (.gateOpens gate :: ahead))
    (hgates : ∀ g ∈ gate :: s.host.gates, g ∈ s'.host.gates) : s'.Opens events ahead := by
  intro gate' hgate
  rcases hs gate' hgate with hopen | hlater
  · exact .inl (hgates gate' (List.mem_cons_of_mem _ hopen))
  · rcases List.mem_cons.mp hlater with heq | hlater
    · exact .inl (Event.gateOpens.inj heq ▸ hgates _ List.mem_cons_self)
    · exact .inr hlater

namespace Attended

theorem congr (hs : s.Attended e config shown exchanges) (hshown : ∀ c, shown' c = shown c) :
    s.Attended e config shown' exchanges :=
  funext hshown ▸ hs

/-! ### Saying something -/

/-- Whoever only speaks goes on with the same calls. -/
theorem speaks (hs : s.Attended e config shown exchanges) (hspeaks : s.Speaks s')
    (hseated : s'.Seated e shown') : s'.Attended e config shown' exchanges :=
  ⟨hs.serving.speaks hspeaks hseated,
    fun r line x hx => (hs.replies r line x hx).reaches (.of_eq hspeaks.requests)⟩

theorem say (hs : s.Attended e config shown exchanges) (text : Text) :
    (s.say text).Attended e config
      (fun c => shown c ++ if c = .out then text.terminalBytes else []) exchanges :=
  hs.speaks (.say s text) (Seated.say hs.serving.seated text)

/-! ### Results -/

/-- **Showing a result.** -/
theorem showResult {x : Result} (hs : s.Attended e config shown exchanges) (hx : x.Displays) :
    (s.showResult (.value .json) x).2.Attended e config (fun c => shown c ++ x.said c) exchanges := by
  have hvalue : x.ok = true →
      ∃ v, x.value = some v ∧ valueText (.value .json) v = .ok (x.displayed ++ "\n") := by
    intro hok
    obtain ⟨t, ht⟩ := hx hok
    exact ⟨.text t, ht, by simp only [valueText, Result.displayed, ht]⟩
  rw [x.said_eq]
  exact hs.speaks (.showResult s _ x) (Seated.showResult hs.serving.seated hs.serving.quiet hvalue).2

/-- Every call has been told something. -/
theorem exists_replies (hs : s.Attended e config shown exchanges) {r : Nat} {q : Request}
    (hq : s.host.requests[r]? = some q) : ∃ line x, s.host.Replies e config r line x := by
  have hlength : s.host.requests.length = exchanges.length := by
    simpa using congrArg List.length hs.serving.asked
  have hlt : r < exchanges.length := hlength ▸ (List.getElem?_eq_some_iff.mp hq).1
  exact ⟨_, _, hs.replies r _ _ (List.getElem?_eq_getElem hlt)⟩

/-- Nobody waits for a line that has been evaluated before. -/
theorem unawaited (hs : s.Attended e config shown exchanges) : s.host.Unawaited := by
  intro r q hq
  obtain ⟨line, x, hreplies⟩ := hs.exists_replies hq
  exact hreplies.unawaited hq

/-- Without a time limit nothing that has been told something runs. -/
theorem isSettled_of_reaches {h : Host} {v : Nat} {q : Request} (hs : s.Attended e config shown exchanges)
    (hlimit : config.timeout = none) (hreaches : s.host.Reaches h) (hlt : v < exchanges.length)
    (hq : h.requests[v]? = some q) : q.progress.isSettled = true := by
  have hreplies := (hs.replies v _ _ (List.getElem?_eq_getElem hlt)).reaches hreaches
  cases hreplies with
  | served hresult =>
      have hprogress := Host.result?_eq_some_iff.mp hresult
      obtain ⟨q', hq', hfinished⟩ := Option.map_eq_some_iff.mp hprogress
      obtain rfl := Option.some.inj (hq'.symm.trans hq)
      rw [hfinished]
      rfl
  | abandoned hno | withdrawn hno => exact absurd hlimit hno

/-- **Evaluating a line** is one more call. -/
theorem evaluate (hs : s.Attended e config shown exchanges) (hpatient : config.Patient)
    (hon : .interrupt ∉ ahead) (hopens : s.Opens events ahead) (line : Text) :
    (∃ x s', s.evaluate .execute line ahead = (.ok x, s') ∧ x.Displays ∧
        s'.Attended e config shown (exchanges ++ [(line, x)]) ∧
        ∀ g ∈ s.host.gates, g ∈ s'.host.gates) ∨
      ∃ s', s.evaluate .execute line ahead = (.error .waiting, s') ∧
        s'.Held e config shown exchanges line events := by
  obtain ⟨o, h, hevaluate, hserving, hreaches, hmore, hcases⟩ :=
    hs.serving.evaluate_cases hs.unawaited hpatient hon .execute line
  rw [List.length_map] at hcases
  have hreplies : ∀ r l y, exchanges[r]? = some (l, y) → h.Replies e config r l y :=
    fun r l y hy => (hs.replies r l y hy).reaches hreaches
  -- what is told of the line is one more exchange
  have htold : ∀ x, h.Replies e config exchanges.length line x → o = .ok x →
      ∃ x s', s.evaluate .execute line ahead = (.ok x, s') ∧ x.Displays ∧
        s'.Attended e config shown (exchanges ++ [(line, x)]) ∧
        ∀ g ∈ s.host.gates, g ∈ s'.host.gates := by
    intro x hx ho
    refine ⟨x, { s with host := h }, ho ▸ hevaluate, hx.displays,
      ⟨by simpa using hserving, fun r l y hy => ?_⟩, hmore⟩
    rcases getElem?_concat_eq_some_iff.mp hy with hold | ⟨rfl, hnew⟩
    · exact hreplies r l y hold
    · obtain ⟨rfl, rfl⟩ := Prod.mk.inj hnew
      exact hx
  rcases hcases with ⟨x, ho, hresult, hyields⟩ | ⟨x, ho, hlimit, h₂, q, hdelayed, hgates, hq, hgiveUp⟩ |
    ⟨ho, hlimit, hdelayed, hopened⟩
  · exact .inl (htold x (.served hresult hyields) ho)
  · have hx := hdelayed.replies hgates hlimit hq
    rw [hgiveUp] at hx
    exact .inl (htold x hx ho)
  · refine .inr ⟨{ s with host := h }, ho ▸ hevaluate, hserving, hreplies, hlimit, ?_⟩
    cases hdelayed with
    | @gated p gate hrunning hmay hgate hclosed =>
        refine ⟨p, gate, hmay, hgate, fun hg => hclosed (hserving.seated.gates gate hg), fun hg => ?_⟩
        rcases hopens gate hg with hopen | hlater
        · exact hclosed (hmore gate hopen)
        · exact hclosed (hopened gate hlater)
    | behind hqueued hearlier hrequest hrunning =>
        have hsettled := hs.isSettled_of_reaches hlimit hreaches hearlier hrequest
        rw [hrunning] at hsettled
        cases hsettled

/-- **Answering a line**: it is evaluated, and the result is shown, whatever it is. -/
theorem answerLine (hs : s.Attended e config shown exchanges) (hpatient : config.Patient)
    (hon : .interrupt ∉ ahead) (hopens : s.Opens events ahead) (line : Text) :
    (∃ x s', s.answerLine line ahead = (.ok (), s') ∧
        s'.Attended e config (fun c => shown c ++ x.said c) (exchanges ++ [(line, x)]) ∧
        ∀ g ∈ s.host.gates, g ∈ s'.host.gates) ∨
      ∃ s', s.answerLine line ahead = (.error .waiting, s') ∧
        s'.Held e config shown exchanges line events := by
  rcases hs.evaluate hpatient hon hopens line with ⟨x, s', hevaluate, hx, hs', hmore⟩ |
    ⟨s', hevaluate, hheld⟩
  · refine .inl ⟨x, _, by simp only [Session.answerLine, hevaluate], hs'.showResult hx, fun g hg => ?_⟩
    rw [(Speaks.showResult s' _ x).gates]
    exact hmore g hg
  · exact .inr ⟨s', by simp only [Session.answerLine, hevaluate], hheld⟩

/-- A gate opens, and the workers go on. -/
theorem openGate (hs : s.Attended e config shown exchanges) (gate : String) :
    ({ s with host := (s.host.openGate gate).settle } : Session).Attended e config shown exchanges := by
  obtain ⟨hseated, hserves, hon⟩ :=
    (Host.Attended.openGate hs.serving.seated gate).settles (h := s.host.openGate gate) hs.serving.serves
  have hreaches : s.host.Reaches (s.host.openGate gate).settle := hon.reaches
  refine ⟨⟨hseated, hs.serving.quiet, hs.serving.timed, hs.serving.handle, hserves, ?_⟩, fun r line x hx => ?_⟩
  · exact (hreaches.asked_eq hon.length).trans hs.serving.asked
  · exact (hs.replies r line x hx).reaches hreaches

end Attended

/-! ### Conversations -/

/-- What the turns of a conversation leave at the terminal: behind what each line is answered there is the next
prompt. -/
def exchanged (turns : List Turn) (c : Channel) : List UInt8 :=
  turns.flatMap fun t => t.said c ++ if c = .out then Text.terminalBytes prompt else []

/-- What a conversation from a prompt on **comes to**. In the end there is the farewell, unless the conversation
is told to end; or it is held by one of its lines. -/
inductive Conversed (e : Circumstances) (config : Config) (events : List Event)
    (shown : Channel → List UInt8) (exchanges : List (Text × Result)) (lines : List Text)
    (turns : List Turn) : Ending × Session → Prop
  | complete {s' : Session} (hfits : Fits lines turns [])
      (hs' : s'.Attended e config
        (fun c => shown c ++ exchanged turns c ++ if c = .out then ending lines else [])
        (exchanges ++ turns.filterMap Turn.exchange?)) :
      Conversed e config events shown exchanges lines turns (.exit 0, s')
  | held {s' : Session} {line : Text} {later : List Text} (hfits : Fits lines turns (line :: later))
      (hline : line.isEmpty = false)
      (hs' : s'.Held e config (fun c => shown c ++ exchanged turns c)
        (exchanges ++ turns.filterMap Turn.exchange?) line events) :
      Conversed e config events shown exchanges lines turns (.waiting, s')

variable {lines : List Text} {turns : List Turn} {r : Ending × Session}

/-- A conversation that goes on behind a line. -/
theorem Conversed.cons {text : Text} {t : Turn}
    (hconversed : Conversed e config events
      (fun c => (shown c ++ t.said c) ++ if c = .out then Text.terminalBytes prompt else [])
      (exchanges ++ t.exchange?.toList) lines turns r)
    (hend : text.isEmpty = false) (hexit : text.strip ≠ exitWord) (hline : t.line = text.strip)
    (hevaluated : t.result?.isSome = !t.line.isEmpty) :
    Conversed e config events shown exchanges (text :: lines) (t :: turns) r := by
  have hending : ending (text :: lines) = ending lines := by
    simp [ending, given_cons hend, hexit.symm]
  have hexchanges : exchanges ++ (t :: turns).filterMap Turn.exchange? =
      exchanges ++ t.exchange?.toList ++ turns.filterMap Turn.exchange? := by
    cases hexchange : t.exchange? <;> simp [hexchange]
  have hshown : ∀ c, shown c ++ exchanged (t :: turns) c =
      shown c ++ t.said c ++ (if c = .out then Text.terminalBytes prompt else []) ++ exchanged turns c := by
    intro c
    simp only [exchanged, List.flatMap_cons, List.append_assoc]
  cases hconversed with
  | complete hfits hs' =>
      refine .complete (hfits.cons hend hexit hline hevaluated) ?_
      rw [hending, hexchanges]
      simpa only [hshown] using hs'
  | held hfits hnonblank hs' =>
      refine .held (hfits.cons hend hexit hline hevaluated) hnonblank ?_
      rw [hexchanges]
      simpa only [hshown] using hs'

/-- A conversation with nothing more to read. -/
theorem Attended.conversed_of_nil (hs : s.Attended e config shown exchanges) (hgiven : given lines = []) :
    Conversed e config events shown exchanges lines [] (.exit 0, s.say farewell) := by
  refine .complete ⟨by simp [heard, hgiven], by simp⟩ ?_
  simpa [ending, hgiven, exchanged] using hs.say farewell

/-- A conversation that is told to end. -/
theorem Attended.conversed_of_exitWord {rest : List Text} (hs : s.Attended e config shown exchanges)
    (hgiven : given lines = exitWord :: rest) :
    Conversed e config events shown exchanges lines [] (.exit 0, s) := by
  refine .complete ⟨by simp [heard, hgiven], by simp⟩ ?_
  simpa [ending, hgiven, exchanged] using hs

/-- A conversation that is held by its first line. -/
theorem Held.conversed {text : Text} (hs : s.Held e config shown exchanges text.strip events)
    (hend : text.isEmpty = false) (hnonblank : text.strip.isEmpty = false) (hexit : text.strip ≠ exitWord) :
    Conversed e config events shown exchanges (text :: lines) [] (.waiting, s) := by
  have hfits : Fits (text :: lines) [] (text.strip :: heard lines) :=
    ⟨by simp [heard, given_cons hend, hexit], by simp⟩
  exact .held hfits hnonblank (by simpa [exchanged] using hs)

/-- **A conversation**, by induction on what happens at the terminal. What has been shown and asked so far
is carried along; a line adds its turn, and the next prompt. -/
theorem Attended.converse (hs : s.Attended e config shown exchanges) (hpatient : config.Patient)
    (hon : .interrupt ∉ ahead) (hopens : s.Opens events ahead) :
    ∃ turns, Conversed e config events shown exchanges (ahead.filterMap Event.line?) turns
      (s.converse ahead) := by
  induction ahead generalizing s shown exchanges with
  | nil => exact ⟨[], hs.conversed_of_nil rfl⟩
  | cons event ahead ih =>
      have hrest : .interrupt ∉ ahead := fun h => hon (List.mem_cons_of_mem _ h)
      cases event with
      | interrupt => exact absurd List.mem_cons_self hon
      | gateOpens gate =>
          refine ih (hs.openGate gate) hrest (hopens.gate fun g hg => ?_)
          exact (Host.gates_settle (s.host.openGate gate)).symm ▸ hg
      | line text =>
          let lines := ahead.filterMap Event.line?
          change ∃ turns, Conversed e config events shown exchanges (text :: lines) turns _
          unfold Session.converse
          cases hend : text.isEmpty with
          | true =>
              exact ⟨[], by simpa using hs.conversed_of_nil (given_of_isEmpty hend lines)⟩
          | false =>
              by_cases hblank : text.strip.isEmpty
              · have hexit : text.strip ≠ exitWord := fun heq => by
                  rw [heq] at hblank
                  cases hblank
                let t : Turn := ⟨text.strip, none⟩
                have hs' : (s.say prompt).Attended e config
                    (fun c => (shown c ++ t.said c) ++ if c = .out then Text.terminalBytes prompt else [])
                    (exchanges ++ t.exchange?.toList) := by
                  simpa [t, Turn.said, Turn.exchange?] using hs.say prompt
                obtain ⟨turns, hconversed⟩ := ih hs' hrest (hopens.line fun _ hg => hg)
                refine ⟨t :: turns, ?_⟩
                simpa [hblank] using hconversed.cons hend hexit rfl (by simp [t, hblank])
              · have hnonblank : text.strip.isEmpty = false := by simpa using hblank
                by_cases hexit : text.strip = exitWord
                · have hgiven : given (text :: lines) = exitWord :: given lines :=
                    (given_cons hend lines).trans (congrArg (· :: given lines) hexit)
                  refine ⟨[], ?_⟩
                  have hword : text.strip = "exit" := hexit
                  rw [if_neg (by simp), if_neg hblank, if_pos hword]
                  exact hs.conversed_of_exitWord hgiven
                · have hword : ¬ text.strip = "exit" := hexit
                  have hpast : s.Opens events ahead := hopens.line fun _ hg => hg
                  rcases hs.answerLine hpatient hrest hpast text.strip with
                    ⟨x, s₁, hanswer, hs₁, hmore⟩ | ⟨s₁, hanswer, hheld⟩
                  · obtain ⟨turns, hconversed⟩ := ih (hs₁.say prompt) hrest (hopens.line hmore)
                    let t : Turn := ⟨text.strip, some x⟩
                    refine ⟨t :: turns, ?_⟩
                    simpa [hnonblank, hword, hanswer] using
                      Conversed.cons (t := t) hconversed hend hexit rfl (by simp [t, hblank])
                  · refine ⟨[], ?_⟩
                    simpa [hnonblank, hword, hanswer] using hheld.conversed hend hnonblank hexit

/-- What is shown from prompt to prompt is the same from line to line. -/
theorem prompt_append_exchanged (turns : List Turn) (c : Channel) :
    (if c = .out then Text.terminalBytes prompt else []) ++ exchanged turns c =
      turns.flatMap (·.shown c) ++ if c = .out then Text.terminalBytes prompt else [] := by
  unfold exchanged
  induction turns with
  | nil => simp
  | cons t turns ih =>
      rw [List.flatMap_cons, List.flatMap_cons, Turn.shown, List.append_assoc, ih]
      simp only [List.append_assoc]

end Session

/-! ### The program -/

/-- What is given for a **conversation**: arguments that ask for one and nothing else, a library that
starts, any time limit or none, and a terminal where nobody breaks it off. -/
structure Asks (args : List Text) (w : Surroundings) (a : Arguments) (config : Config)
    (e : Circumstances) : Prop where
  read : Invocation.read args = .run a
  noFile : a.file.filter (!·.isEmpty) = none
  quiet : a.verbose = false
  valued : Given.isMissing a.config = false ∧ Given.isMissing a.timeout = false
  configured : configure w a = .ok config
  patient : config.timeout.all (·.isPositive) = true
  starts : Host.startFault? e.system ⟨config, .system, .fresh⟩ (e.behaviour.start 0) = none
  uninterrupted : .interrupt ∉ w.events
  terminal : e.stdio.AtTerminal

/-- **A positive time limit can be waited for**, however long it is: what is loaded and what the flag gives are
floating-point numbers. -/
theorem patient_of_configure {w : Surroundings} {a : Arguments} {config : Config}
    (hconfigured : configure w a = .ok config) (hpositive : config.timeout.all (·.isPositive) = true) :
    config.Patient := by
  have hreal : ∀ n, config.timeout ≠ some (.whole n) := by
    obtain ⟨c, hc, h⟩ := Janet.Value.exists_of_bind_ok hconfigured
    obtain rfl := Except.ok.inj h
    refine Config.timeout_setAll_ne_whole (Config.load_timeout_ne_whole hc) fun b hb n heq => ?_
    rw [heq] at hb
    cases htime : a.timeout.bind Given.value? <;> simp [Arguments.assignments, htime] at hb
  cases hlimit : config.timeout with
  | none => exact ⟨by simp [hlimit], by simp [hlimit], by simp [hlimit]⟩
  | some t =>
      have ht : t.isPositive = true := by simpa [hlimit] using hpositive
      obtain ⟨hover, hnumber⟩ := Seconds.isPositive_iff.mp ht
      cases t with
      | whole n => exact absurd hlimit (hreal n)
      | real x =>
          exact ⟨by simp [hlimit, hover], by simp [hlimit, Seconds.delayFault?],
            by simpa [hlimit] using hnumber⟩

/-- The **transcript** of a conversation: what has been submitted and told, and all that has reached the
terminal. Nothing would be added if the streams were flushed. -/
structure Transcript (e : Circumstances) (config : Config) (turns : List Turn) (submitted : List Text)
    (last : List UInt8) (h : Host) : Prop where
  submitted : (h.requests.map fun q => (q.kind, q.source)) =
    (submitted.filter (!·.isEmpty)).map (.execute, ·)
  replies : ∀ r line x, (turns.filterMap Turn.exchange?)[r]? = some (line, x) →
    h.Replies e config r line x
  displays : ∀ t ∈ turns, ∀ x ∈ t.result?, x.Displays
  out : h.stdio.shown .out = e.stdio.shown .out ++ Text.terminalBytes Session.banner ++
    turns.flatMap (·.shown .out) ++ Text.terminalBytes Session.prompt ++ last
  err : h.stdio.shown .err = e.stdio.shown .err ++ turns.flatMap (·.shown .err)
  flushed : ∀ c, h.stdio.flushAll.shown c = h.stdio.shown c

/-- What a conversation **comes to**. It is over, or, if there is no time limit, one of its lines is waited for,
a program of which stands at a gate. -/
inductive ComesTo (e : Circumstances) (config : Config) (events : List Event) (turns : List Turn) :
    Ending × Host → Prop
  | complete {h : Host} (hfits : Fits (events.filterMap Event.line?) turns [])
      (htranscript : Transcript e config turns (heard (events.filterMap Event.line?))
        (ending (events.filterMap Event.line?)) h) : ComesTo e config events turns (.exit 0, h)
  | held {h : Host} {line : Text} {later : List Text}
      (hfits : Fits (events.filterMap Event.line?) turns (line :: later)) (hline : line.isEmpty = false)
      (htranscript : Transcript e config turns (turns.map (·.line) ++ [line]) [] h)
      (hstands : Session.Stands e config events line) : ComesTo e config events turns (.waiting, h)

/-- The lines that are evaluated are those that are not blank. -/
theorem Fits.evaluated_lines {lines rest : List Text} {turns : List Turn} (hfits : Fits lines turns rest) :
    (turns.filterMap Turn.exchange?).map (·.1) = (turns.map (·.line)).filter (!·.isEmpty) := by
  have hevaluated := hfits.evaluated
  clear hfits
  induction turns with
  | nil => rfl
  | cons t turns ih =>
      obtain ⟨ht, hturns⟩ := List.forall_mem_cons.mp hevaluated
      obtain ⟨line, result⟩ := t
      cases result with
      | none =>
          have hblank : line.isEmpty = true := by simpa using ht
          rw [List.filterMap_cons_none rfl, ih hturns]
          simp [hblank]
      | some x =>
          have hblank : line.isEmpty = false := by simpa using ht
          have hexchange : Turn.exchange? ⟨line, some x⟩ = some (line, x) := rfl
          rw [List.filterMap_cons_some hexchange, List.map_cons, ih hturns]
          simp [hblank]

/-- A session that serves and has been asked for nothing is one before its first line. -/
theorem Session.Serving.attended {e : Circumstances} {config : Config} {shown : Channel → List UInt8}
    {s : Session} (hs : s.Serving e config shown []) : s.Attended e config shown [] :=
  ⟨hs, by simp⟩

/-- What can be seen when a conversation has come to something. -/
theorem Transcript.of_shown {e : Circumstances} {config : Config} {submitted : List Text}
    {turns : List Turn} {last : List UInt8} {h : Host}
    (hasked : (h.requests.map fun q => (q.kind, q.source)) =
      (submitted.filter (!·.isEmpty)).map (.execute, ·))
    (hreplies : ∀ r line x, (turns.filterMap Turn.exchange?)[r]? = some (line, x) →
      h.Replies e config r line x)
    (hshown : ∀ c, h.stdio.shown c = e.stdio.shown c ++
      (if c = .out then Text.terminalBytes Session.banner else []) ++ turns.flatMap (·.shown c) ++
      if c = .out then Text.terminalBytes Session.prompt ++ last else [])
    (hflushed : ∀ c, h.stdio.flushAll.shown c = h.stdio.shown c) :
    Transcript e config turns submitted last h := by
  refine ⟨hasked, hreplies, fun t ht x hx => ?_, ?_, ?_, hflushed⟩
  · have hmem : (t.line, x) ∈ turns.filterMap Turn.exchange? :=
      List.mem_filterMap.mpr ⟨t, ht, by simp [Turn.exchange?, Option.mem_def.mp hx]⟩
    obtain ⟨r, hr⟩ := List.getElem?_of_mem hmem
    exact (hreplies r t.line x hr).displays
  · simpa [List.append_assoc] using hshown .out
  · simpa using hshown .err

/-- **The transcript of a conversation.** Whatever the lines are, whatever the library does with them and
however long that takes, the program submits the lines that are heard and not blank, each once and in
order, and shows a banner, a prompt for every line that is read, and behind it what the result of the line
is shown as. No failure and no lack of time ends the conversation, and nothing else reaches the terminal,
in particular nothing that an evaluation writes which is left to itself. Without a time limit an evaluation may
never return, and then the program waits for it and has shown what came before. -/
theorem conversation_run {args : List Text} {w : Surroundings} {a : Arguments} {config : Config}
    {e : Circumstances} (hasks : Asks args w a config e) :
    ∃ turns, ComesTo e config w.events turns (run args w (World.opening e).host) := by
  obtain ⟨s, hserving, hover, -, hwaits⟩ := exists_serving hasks.read hasks.quiet hasks.valued
    hasks.configured hasks.starts hasks.terminal
  have hpatient := patient_of_configure hasks.configured hasks.patient
  have hopens : ((s.say Session.banner).say Session.prompt).Opens w.events w.events :=
    fun gate hgate => .inr hgate
  obtain ⟨turns, hconversed⟩ := ((hserving.attended.say Session.banner).say Session.prompt).converse
    hpatient hasks.uninterrupted hopens
  have hperform : s.perform w a = ((s.say Session.banner).say Session.prompt).converse w.events := by
    simp only [Session.perform, hasks.noFile, Session.repl]
  refine ⟨turns, ?_⟩
  rw [← hperform] at hconversed
  rcases hr : s.perform w a with ⟨ending, s'⟩
  rw [hr] at hconversed
  -- from prompt to prompt, with something last
  have hline : ∀ (last : List UInt8) (c : Channel), e.stdio.shown c ++
      (if c = .out then Text.terminalBytes Session.banner else []) ++
      (if c = .out then Text.terminalBytes Session.prompt else []) ++ Session.exchanged turns c ++
      (if c = .out then last else []) =
        e.stdio.shown c ++ (if c = .out then Text.terminalBytes Session.banner else []) ++
          turns.flatMap (·.shown c) ++ if c = .out then Text.terminalBytes Session.prompt ++ last else [] := by
    intro last c
    rw [List.append_assoc _ _ (Session.exchanged turns c), Session.prompt_append_exchanged]
    cases c <;> simp
  cases hconversed with
  | complete hfits hs' =>
      rw [hover 0 s' hr]
      obtain ⟨hshown, hon⟩ := hs'.serving.seated.leave hs'.serving.quiet 0
      refine .complete hfits (.of_shown ?_ (fun r line x hx => ?_) (fun c => ?_) fun c => ?_)
      · rw [hon.reaches.asked_eq hon.length, hs'.serving.asked, hfits.lines, List.append_nil,
          ← hfits.evaluated_lines, List.map_map]
        rfl
      · exact (hs'.replies r line x hx).reaches hon.reaches
      · exact (hshown c).1.trans (hline _ c)
      · exact (hshown c).2.trans (hshown c).1.symm
  | held hfits hnonblank hs' =>
      rw [hwaits s' hr]
      have hspeaks := Session.Speaks.printLog s'
      have hprinted := hs'.serving.seated.printLog_of_quiet hs'.serving.quiet
      refine .held hfits hnonblank
        (.of_shown ?_ (fun r line x hx => ?_) (fun c => ?_) fun c => ?_) hs'.stands
      · rw [hspeaks.requests, hs'.serving.asked, List.filter_append, ← hfits.evaluated_lines]
        simp only [List.nil_append, List.map_append, List.map_map, List.filter_cons, hnonblank,
          Bool.not_false, if_true, List.filter_nil, List.map_cons, List.map_nil]
        rfl
      · exact (hs'.replies r line x hx).reaches (.of_eq hspeaks.requests)
      · refine (Host.Attended.shown_eq hprinted c).trans ?_
        simpa using hline [] c
      · exact (Host.Attended.shown_flushAll hprinted c).trans (Host.Attended.shown_eq hprinted c).symm

/-- A line that takes too long, a blank one, one that is withdrawn behind the first, and then, with the
gate open, one that fails and one that has a value. What the first one writes is never seen. -/
theorem conversation_run_of_six :
    let e : Circumstances :=
      { system := { found := some "libjanet.so" }
        behaviour := { programs :=
          [("(ev/sleep 9)", [{ writes := [⟨.out, true, [97]⟩], gate := some "g"
                               writesAfter := [⟨.err, false, [98]⟩] }]),
            ("(one)", [{ writes := [⟨.out, true, [99]⟩], value := .ofString "1" }])] } }
    let w : Surroundings :=
      { environment := [("JANETHOST_TIMEOUT", "0.5")]
        events := [.line " (ev/sleep 9) \n", .line "\n", .line "(one)\n", .gateOpens "g", .line "x\n",
          .line "(one)\n", .line "exit\n", .line "(one)\n"] }
    let config : Config := { timeout := some (.real (.ofDecimal false 5 (-1))) }
    let ended := run [] w (World.opening e).host
    Asks [] w {} config e ∧
      (ended.2.requests.map (·.source) = ["(ev/sleep 9)", "(one)", "x", "(one)"] ∧
        ended.2.stdio.shown .out = Text.terminalBytes ("janethost REPL\n" ++
          "Type 'exit' or press Ctrl+D to quit.\njanet> janet> janet> janet> janet> c1\njanet> ") ∧
        ended.2.stdio.shown .err = Text.terminalBytes ("Timeout: deadline exceeded " ++
          "(evaluation still running)\nTimeout: deadline exceeded\nEvaluationError: unknown symbol x\n")) ∧
      ended.1.status = some 0 ∧ ∃ turns, ComesTo e config w.events turns ended := by
  intro e w config ended
  have hasks : Asks [] w {} config e :=
    { read := rfl
      noFile := rfl
      quiet := rfl
      valued := ⟨rfl, rfl⟩
      configured := by decide +kernel
      patient := by decide +kernel
      starts := by decide +kernel
      uninterrupted := by decide +kernel
      terminal := Stdio.atTerminal_default }
  refine ⟨hasks, ⟨?_, ?_, ?_⟩, ?_, conversation_run hasks⟩
  all_goals decide +kernel

end CommandLine

end JanetEmbedding
