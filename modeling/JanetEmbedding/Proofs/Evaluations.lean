import JanetEmbedding.Proofs.Ledger

/-!
# Evaluations

When and how often the interpreter is given the source of a request. A request is evaluated while
its worker holds it, at most once; and a request that is finished has been evaluated, unless its
result says why it could not.

## Conventions

* A request is **spent** when no evaluation of it can follow any more: it is no longer queued, and
  no worker that holds it waits for the descriptors.

## Main definitions

* `World.evaluationsOf`: how often a run has the interpreter evaluate a request.
* `World.Tallied`: what the number of evaluations of every request says about it.

## Main results

* `World.evaluationsOf_eq_zero`: a request that is spent is not evaluated.
* `World.Tallied.run`: in every run the numbers are as they should be.
-/

namespace JanetEmbedding

open Interpreter (Call)

/-- Whether a result says why the request could not be evaluated: its output could not be captured,
or its source could not be encoded. -/
def Result.Unevaluated (x : Result) : Prop :=
  ∃ f ∈ x.fault, f.kind = .capture ∨ f.kind = .encoding

namespace Host

/-- What a worker is doing. -/
def phase? (h : Host) (w : Nat) : Option Phase := h.workers[w]?.map (·.phase)

theorem handled?_eq (h : Host) (w : Nat) : h.handled? w = (h.phase? w).bind Phase.request? := by
  rw [handled?, phase?, Option.bind_map]
  rfl

/-- What the others are doing stays. -/
theorem phase?_modify_of_ne {h h' : Host} {v w : Nat} {f : Worker → Worker} (hne : v ≠ w)
    (hworkers : h'.workers = h.workers.modify w f) : h'.phase? v = h.phase? v := by
  rw [phase?, hworkers, List.getElem?_modify_ne _ _ (Ne.symm hne)]
  rfl

/-- What all are doing stays when an item is put into a queue. -/
theorem phase?_modify_queue {h h' : Host} {w : Nat} {item : Item}
    (hworkers : h'.workers = h.workers.modify w fun x => { x with queue := x.queue ++ [item] })
    (v : Nat) : h'.phase? v = h.phase? v := by
  by_cases hne : v = w
  · subst hne
    rw [phase?, phase?, hworkers, List.getElem?_modify_eq]
    cases h.workers[v]? <;> rfl
  · exact phase?_modify_of_ne hne hworkers

/-- A step of a worker changes only what that worker is doing. -/
theorem Does.workers_eq {h h' : Host} {w : Nat} {worker : Worker} (hdoes : Does h w worker h') :
    ∃ f, h'.workers = h.workers.modify w f := by
  cases hdoes <;> exact ⟨_, rfl⟩

/-- A request that has a result after one request has changed had it before, unless it is the one. -/
theorem result?_of_update {h h' : Host} {r v : Nat} {x : Result} {q : Progress}
    (hafter : h'.progress? = Function.update h.progress? v (some q)) (hx : h'.result? r = some x) :
    h.result? r = some x ∨ r = v ∧ q = .finished x := by
  rw [result?_eq_some_iff, hafter] at hx
  rw [result?_eq_some_iff]
  by_cases hr : r = v
  · subst hr
    rw [Function.update_self] at hx
    exact .inr ⟨rfl, Option.some.inj hx⟩
  · rw [Function.update_of_ne hr] at hx
    exact .inl hx

/-- How a worker **finishes** a request with a result. -/
inductive Finishes (h : Host) (worker : Worker) (r : Nat) (x : Result) : Prop
  /-- The request could not be evaluated, and the result says why. -/
  | failed {f : Fault} (hx : x = .failed f) (hkind : f.kind = .capture ∨ f.kind = .encoding)
      (hearly : h.progress? r = some .queued ∨
        ∃ pipes refusal, worker.phase = .waiting r pipes refusal)
  | evaluated {session : Capture.Session} {p : Interpreter.Program} {request : Request}
      {captured : Capture.Captured} {stdio : Stdio} (hphase : worker.phase = .evaluating r session p)
      (hrequest : h.requests[r]? = some request)
      (hfinish : Capture.finish session (h.stdio.applyAll p.writesAfter) = (captured, stdio))
      (hx : x = p.result request.kind captured)

/-- A worker gives a request its result when it picks the request up, or when it ends what it does. -/
theorem Does.settles {owners : List Nat} {h h' : Host} {w r : Nat} {worker : Worker} {x : Result}
    (hdoes : Does h w worker h') (hkept : Kept owners h) (hworker : h.workers[w]? = some worker)
    (hx : h'.result? r = some x) : h.result? r = some x ∨
      (h.progress? r = some .queued ∧ ∃ f, x = uncaptured f) ∨
      ∃ request stdio calls, worker.phase.request? = some r ∧ h.requests[r]? = some request ∧
        Ends h worker.sourcePath request worker.phase x stdio calls := by
  cases hdoes with
  | leave log hphase hqueue =>
      obtain ⟨id, hid⟩ := hkept.exists_workerOf? hworker (by rw [hphase]; rfl)
      have hsame := hkept.failPending_eq_self hid hworker hqueue
      simp only [hsame] at hx
      exact .inl hx
  | pass | evaluate => exact .inl hx
  | @pickUp v rest pipes d hphase hqueue hprogress =>
      obtain ⟨request, hrequest, -⟩ := Option.map_eq_some_iff.mp hprogress
      rcases result?_of_update (progress?_updateRequest hrequest _) hx with hx | ⟨-, hx⟩
      · exact .inl hx
      · cases hx
  | @refuse v rest f d log hphase hqueue hprogress =>
      obtain ⟨request, hrequest, -⟩ := Option.map_eq_some_iff.mp hprogress
      rcases result?_of_update (progress?_updateRequest hrequest _) hx with hx | ⟨rfl, hq⟩
      · exact .inl hx
      · obtain rfl : uncaptured f = x := Progress.finished.inj hq
        exact .inr (.inl ⟨hprogress, f, rfl⟩)
  | @finish v request y stdio calls log hheld hrequest hends =>
      rcases result?_of_update (progress?_updateRequest hrequest _) hx with hx | ⟨rfl, hq⟩
      · exact .inl hx
      · obtain rfl : y = x := Progress.finished.inj hq
        exact .inr (.inr ⟨request, stdio, calls, hheld, hrequest, hends⟩)

/-- A worker finishes a request by its evaluation, or the result says why there was none. -/
theorem Does.finishes {owners : List Nat} {h h' : Host} {w r : Nat} {worker : Worker} {x : Result}
    (hdoes : Does h w worker h') (hkept : Kept owners h) (hworker : h.workers[w]? = some worker)
    (hx : h'.result? r = some x) : h.result? r = some x ∨ Finishes h worker r x := by
  rcases hdoes.settles hkept hworker hx with
    hbefore | ⟨hqueued, f, rfl⟩ | ⟨request, stdio, calls, hheld, hrequest, hends⟩
  · exact .inl hbefore
  · exact .inr (.failed rfl (.inl rfl) (.inl hqueued))
  · generalize hphase : worker.phase = phase at hends hheld
    cases hends with
    | @unredirected r pipes refusal =>
        obtain rfl := Option.some.inj hheld
        exact .inr (.failed rfl (.inl rfl) (.inr ⟨pipes, refusal, hphase⟩))
    | @unencoded r pipes refusal =>
        obtain rfl := Option.some.inj hheld
        exact .inr (.failed rfl (.inr rfl) (.inr ⟨pipes, refusal, hphase⟩))
    | concluded hfinish =>
        obtain rfl := Option.some.inj hheld
        exact .inr (.evaluated hphase hrequest hfinish rfl)

/-- A start evaluates nothing. -/
theorem Starts.calls {h h' : Host} {id : Nat} {f : Option Fault} (hstarts : Starts h id f h') :
    ∃ more, h'.trace = h.trace ++ more ∧ ∀ e ∈ more, Call.evaluation? e.2 = none := by
  cases hstarts with
  | stays => exact ⟨[], (List.append_nil _).symm, by simp⟩
  | fails log _ _ hcalls => exact ⟨_, rfl, by simpa using hcalls⟩
  | serves => exact ⟨_, rfl, by simp [Call.evaluation?]⟩

/-- What a worker is doing that has just been started. -/
inductive IsNew : Phase → Prop
  | serving : IsNew .serving
  | failed (f : Fault) : IsNew (.failed f)

/-- A start makes at most one worker, which handles nothing. -/
theorem Starts.phase? {h h' : Host} {id : Nat} {f : Option Fault} (hstarts : Starts h id f h')
    (v : Nat) : h'.phase? v = h.phase? v ∨
      h.phase? v = none ∧ ∃ p, h'.phase? v = some p ∧ IsNew p := by
  have hconcat : ∀ {h' : Host} {x : Worker}, IsNew x.phase →
      h'.workers = h.workers ++ [x] → h'.phase? v = h.phase? v ∨
        h.phase? v = none ∧ ∃ p, h'.phase? v = some p ∧ IsNew p := by
    intro h' x hx hworkers
    rcases Nat.lt_trichotomy v h.workers.length with hlt | heq | hgt
    · exact .inl (by simp [Host.phase?, hworkers, List.getElem?_append_left hlt])
    · subst heq
      exact .inr ⟨by simp [Host.phase?], x.phase, by simp [Host.phase?, hworkers], hx⟩
    · obtain ⟨hnone, hnone'⟩ := getElem?_concat_of_gt hgt x
      exact .inl (by simp only [Host.phase?, hworkers, hnone, hnone'])
  cases hstarts with
  | stays => exact .inl rfl
  | fails => exact hconcat (.failed _) rfl
  | serves => exact hconcat .serving rfl

end Host

namespace World

/-- **What a worker is doing** changes by its own steps only. -/
theorem Moves.phases {s s' : World} {a : Act} (hmoves : Moves s a s') (w : Nat) :
    s'.host.phase? w = s.host.phase? w ∨
      (s.host.phase? w = none ∧ ∃ p, s'.host.phase? w = some p ∧ Host.IsNew p) ∨
      ∃ worker host, a = .work w ∧ s.host.workers[w]? = some worker ∧ s' = { s with host } ∧
        Host.Does (s.braced w) w worker host := by
  cases hmoves with
  | stays | created | expired | looked | turned | served | noted | opened => exact .inl rfl
  | shared config source shared hstarts =>
      rcases hstarts.phase? w with hsame | hnew
      · exact .inl hsame
      · exact .inr (.inl hnew)
  | started hstarts | ready _ _ hstarts | refused _ _ hstarts =>
      rcases hstarts.phase? w with hsame | hnew
      · exact .inl hsame
      · exact .inr (.inl hnew)
  | accepted => exact .inl (Host.phase?_modify_queue rfl w)
  | @left c r caller m hcaller hstanding =>
      obtain ⟨requests, heq⟩ := Host.giveUp_snd_eq s.host r
      rw [heq]
      exact .inl rfl
  | closed hcloses =>
      cases hcloses with
      | stays | fresh => exact .inl rfl
      | running => exact .inl (Host.phase?_modify_queue rfl w)
  | @worked v worker host hworker hdoes =>
      by_cases hne : w = v
      · subst hne
        exact .inr (.inr ⟨worker, host, rfl, hworker, rfl, hdoes⟩)
      · obtain ⟨f, hworkers⟩ := hdoes.workers_eq
        exact .inl (Host.phase?_modify_of_ne hne hworkers)

/-! ### Evaluations -/

/-- What an action has the interpreter do: nothing that is an evaluation, or one evaluation of the
request with which some worker waits for the descriptors. -/
theorem Moves.calls {s s' : World} {a : Act} (hmoves : Moves s a s') :
    (∃ more, s'.host.trace = s.host.trace ++ more ∧ ∀ e ∈ more, Call.evaluation? e.2 = none) ∨
      ∃ w r pipes refusal session p source path, s.host.phase? w = some (.waiting r pipes refusal) ∧
        s'.host.phase? w = some (.evaluating r session p) ∧
        s'.host.progress? = s.host.progress? ∧
        s'.host.trace = s.host.trace ++ [(w, .evaluate source path)] := by
  have hsame : ∀ {h : Host}, h.trace = s.host.trace →
      ∃ more, h.trace = s.host.trace ++ more ∧ ∀ e ∈ more, Call.evaluation? e.2 = none :=
    fun heq => ⟨[], by rw [heq, List.append_nil], by simp⟩
  cases hmoves with
  | stays | created | expired | looked | turned | accepted | served | noted | opened =>
      exact .inl (hsame rfl)
  | shared config source shared hstarts => exact .inl hstarts.calls
  | started hstarts | ready _ _ hstarts | refused _ _ hstarts => exact .inl hstarts.calls
  | @left c r caller m hcaller hstanding =>
      obtain ⟨requests, heq⟩ := Host.giveUp_snd_eq s.host r
      rw [heq]
      exact .inl (hsame rfl)
  | closed hcloses => cases hcloses <;> exact .inl (hsame rfl)
  | @worked w worker host hworker hdoes =>
      cases hdoes with
      | leave => exact .inl ⟨_, rfl, by simp [Call.evaluation?]⟩
      | pass | pickUp | refuse => exact .inl (hsame rfl)
      | @evaluate r pipes refusal request session stdio source path p hphase =>
          have hbraced : (s.braced w).workers[w]? = some worker := hworker
          refine .inr ⟨w, r, pipes, refusal, session, p, source, path, ?_, ?_, rfl, rfl⟩
          · simp [Host.phase?, hworker, hphase]
          · simp [Host.phase?, hbraced]
      | finish log hheld hrequest hends => exact .inl ⟨_, rfl, by simpa using hends.evaluation?_eq⟩

/-- How often a run has the interpreter evaluate a request. -/
def evaluationsOf (s : World) (r : Nat) (acts : List Act) : Nat :=
  (s.madeBy acts).countP fun (held, call) => held = some r && call.evaluation?.isSome

theorem evaluationsOf_append (s : World) (r : Nat) (acts more : List Act) :
    s.evaluationsOf r (acts ++ more) =
      s.evaluationsOf r acts + (s.run acts).evaluationsOf r more := by
  rw [evaluationsOf, madeBy_append, List.countP_append]
  rfl

theorem evaluationsOf_cons (s : World) (r : Nat) (a : Act) (acts : List Act) :
    s.evaluationsOf r (a :: acts) = s.evaluationsOf r [a] + (s.step a).evaluationsOf r acts :=
  evaluationsOf_append s r [a] acts

/-- An evaluation of the request with which a worker waits for the descriptors. -/
theorem made_evaluate {s : World} {a : Act} {w r : Nat} {pipes : Capture.Pipes} {refusal : Refusal}
    {source : String} {path : Option String}
    (hwaits : s.host.phase? w = some (.waiting r pipes refusal))
    (htrace : (s.step a).host.trace = s.host.trace ++ [(w, .evaluate source path)]) :
    s.made a = [(some r, .evaluate source path)] := by
  simp [made, htrace, Host.handled?_eq, hwaits, Phase.request?]

/-- An action evaluates nothing, or the request with which some worker waits for the descriptors. -/
theorem evaluationsOf_step (s : World) (r : Nat) (a : Act) :
    s.evaluationsOf r [a] = 0 ∨ s.evaluationsOf r [a] = 1 ∧
      (s.step a).host.progress? = s.host.progress? ∧
      ∃ w pipes refusal session p, s.host.phase? w = some (.waiting r pipes refusal) ∧
        (s.step a).host.phase? w = some (.evaluating r session p) := by
  simp only [evaluationsOf, madeBy, List.append_nil]
  rcases (moves_step s a).calls with ⟨more, htrace, hnone⟩ |
    ⟨w, v, pipes, refusal, session, p, source, path, hbefore, hafter, hprogress, htrace⟩
  · refine .inl (List.countP_eq_zero.mpr fun e he => ?_)
    simp only [made, htrace, List.drop_left] at he
    obtain ⟨e', he', rfl⟩ := List.mem_map.mp he
    simp [hnone e' he']
  · rw [made_evaluate hbefore htrace]
    by_cases hv : v = r
    · subst hv
      exact .inr ⟨by simp [Call.evaluation?], hprogress, w, pipes, refusal, session, p, hbefore,
        hafter⟩
    · exact .inl (by simp [hv])

/-! ### Requests that are spent -/

/-- A request is **spent** when no evaluation of it can follow any more. -/
def Spent (s : World) (r : Nat) : Prop :=
  (∃ p, s.host.progress? r = some p ∧ p ≠ .queued) ∧
    ∀ w pipes refusal, s.host.phase? w ≠ some (.waiting r pipes refusal)

/-- A worker that waits for the descriptors did so before, or its request was queued. -/
theorem Moves.waits {s s' : World} {a : Act} (hmoves : Moves s a s') {w r : Nat}
    {pipes : Capture.Pipes} {refusal : Refusal}
    (hwaits : s'.host.phase? w = some (.waiting r pipes refusal)) :
    s.host.phase? w = some (.waiting r pipes refusal) ∨ s.host.progress? r = some .queued := by
  rcases hmoves.phases w with hsame | ⟨-, p, hp, hnew⟩ | ⟨worker, host, -, hworker, rfl, hdoes⟩
  · exact .inl (hsame.symm.trans hwaits)
  · obtain rfl := Option.some.inj (hp.symm.trans hwaits)
    cases hnew
  · have hbefore : s.host.phase? w = some worker.phase := by simp [Host.phase?, hworker]
    have hbraced : (s.braced w).workers[w]? = some worker := hworker
    cases hdoes with
    | leave | refuse | evaluate | finish => simp [Host.phase?, hbraced] at hwaits
    | pass log hphase => simp [Host.phase?, hbraced, hphase] at hwaits
    | pickUp hphase hqueue hprogress =>
        simp only [Host.phase?, List.getElem?_modify_eq, hbraced] at hwaits
        cases hwaits
        exact .inr hprogress

/-- A request that is spent stays so. -/
theorem Moves.spent {s s' : World} {a : Act} (hmoves : Moves s a s') (hkept : s.Kept) {r : Nat}
    (hspent : s.Spent r) : s'.Spent r := by
  obtain ⟨⟨p, hp, hqueued⟩, hwaits⟩ := hspent
  obtain ⟨p', hp', hleads⟩ := (hmoves.onward hkept).progress r p hp
  refine ⟨⟨p', hp', ?_⟩, fun w pipes refusal hafter => ?_⟩
  · rintro rfl
    cases p with
    | queued => exact hqueued rfl
    | running => simp [Progress.Leads] at hleads
    | withdrawn | finished => cases hleads
  · rcases hmoves.waits hafter with hbefore | hbefore
    · exact hwaits w pipes refusal hbefore
    · exact hqueued (Option.some.inj (hp.symm.trans hbefore))

/-- **A request that is spent is not evaluated.** -/
theorem evaluationsOf_eq_zero {s : World} (hkept : s.Kept) {r : Nat} (hspent : s.Spent r)
    (acts : List Act) : s.evaluationsOf r acts = 0 := by
  induction acts generalizing s with
  | nil => rfl
  | cons a acts ih =>
      have hmoves := moves_step s a
      rw [evaluationsOf_cons, ih (hmoves.kept hkept) (hmoves.spent hkept hspent), Nat.add_zero]
      rcases evaluationsOf_step s r a with hzero | ⟨-, -, w, pipes, refusal, session, p, hwaits, -⟩
      · exact hzero
      · exact absurd hwaits (hspent.2 w pipes refusal)

/-- A request that is settled is spent. -/
theorem spent_of_settled {s : World} (hkept : s.Kept) {r : Nat} {p : Progress}
    (hp : s.host.progress? r = some p) (hsettled : p.isSettled = true) : s.Spent r := by
  refine ⟨⟨p, hp, by rintro rfl; cases hsettled⟩, fun w pipes refusal hwaits => ?_⟩
  have hheld : s.host.handled? w = some r := by simp [Host.handled?_eq, hwaits, Phase.request?]
  obtain rfl := Option.some.inj (hp.symm.trans (hkept.progress_of_handled hheld))
  cases hsettled

/-- A request that is being evaluated is spent. -/
theorem spent_of_evaluating {s : World} (hkept : s.Kept) {w r : Nat} {session : Capture.Session}
    {p : Interpreter.Program} (hphase : s.host.phase? w = some (.evaluating r session p)) :
    s.Spent r := by
  have hheld : s.host.handled? w = some r := by simp [Host.handled?_eq, hphase, Phase.request?]
  refine ⟨⟨.running, hkept.progress_of_handled hheld, by simp⟩, fun v pipes refusal hwaits => ?_⟩
  have hheld' : s.host.handled? v = some r := by simp [Host.handled?_eq, hwaits, Phase.request?]
  obtain rfl := hkept.handled_inj hheld hheld'
  cases hphase.symm.trans hwaits

/-! ### Every evaluation counts -/

/-- What the number of evaluations of every request says about it. -/
structure Tallied (s : World) (count : Nat → Nat) : Prop where
  le_one : ∀ r, count r ≤ 1
  unspent : ∀ r, ¬ s.Spent r → count r = 0
  evaluating : ∀ w r session p, s.host.phase? w = some (.evaluating r session p) → count r = 1
  finished : ∀ r x, s.host.result? r = some x → count r = 1 ∨ x.Unevaluated

/-- A worker evaluates a request since before, or it has redirected the descriptors and begun to, with
the next program of the source. -/
theorem Moves.evaluates {s s' : World} {a : Act} (hmoves : Moves s a s') {w r : Nat}
    {session : Capture.Session} {p : Interpreter.Program}
    (hphase : s'.host.phase? w = some (.evaluating r session p)) :
    s.host.phase? w = some (.evaluating r session p) ∨
      ∃ pipes refusal source path stdio, s.host.phase? w = some (.waiting r pipes refusal) ∧
        Capture.redirect {} pipes (s.host.stdio.refusing refusal) = (.ok session, stdio) ∧
        s'.host.trace = s.host.trace ++ [(w, .evaluate source path)] ∧
        p = s.host.behaviour.program source (s.host.calls.countP (Call.evaluates source)) := by
  rcases hmoves.phases w with hsame | ⟨-, p, hp, hnew⟩ | ⟨worker, host, -, hworker, rfl, hdoes⟩
  · exact .inl (hsame.symm.trans hphase)
  · obtain rfl := Option.some.inj (hp.symm.trans hphase)
    cases hnew
  · have hbraced : (s.braced w).workers[w]? = some worker := hworker
    cases hdoes with
    | leave | refuse | pickUp | finish => simp [Host.phase?, hbraced] at hphase
    | pass log hserving => simp [Host.phase?, hbraced, hserving] at hphase
    | @evaluate v pipes refusal request session' stdio source path p' hwaits _ _ hredirect _ hprogram =>
        simp only [Host.phase?, List.getElem?_modify_eq, hbraced] at hphase
        cases hphase
        exact .inr ⟨pipes, refusal, source, path, stdio, by simp [Host.phase?, hworker, hwaits],
          hredirect, rfl, hprogram⟩

/-- Only workers give requests their results. -/
theorem Moves.settles {s s' : World} {a : Act} (hmoves : Moves s a s') {r : Nat} {x : Result}
    (hx : s'.host.result? r = some x) :
    s.host.result? r = some x ∨ ∃ w worker host, s.host.workers[w]? = some worker ∧
      s' = { s with host } ∧ Host.Does (s.braced w) w worker host := by
  have hsame : ∀ {h : Host}, h.requests = s.host.requests → h.result? r = some x →
      s.host.result? r = some x := fun heq hx => by
    rwa [Host.result?_of_requests heq] at hx
  cases hmoves with
  | stays | created | expired | looked | turned | served | noted | opened => exact .inl hx
  | shared config source shared hstarts => exact .inl (hsame hstarts.requests_eq hx)
  | started hstarts | ready _ _ hstarts | refused _ _ hstarts =>
      exact .inl (hsame hstarts.requests_eq hx)
  | closed hcloses => exact .inl (hsame hcloses.requests_eq hx)
  | @accepted c w caller hcaller hstanding hhandle =>
      rcases Host.result?_of_update (s.host.progress?_accept w caller.kind caller.source) hx with
        hx | ⟨-, hx⟩
      · exact .inl hx
      · cases hx
  | @left c v caller m hcaller hstanding =>
      cases hrequest : s.host.requests[v]? with
      | none =>
          rw [Host.giveUp, hrequest] at hx
          exact .inl hx
      | some request =>
          rw [Host.giveUp_eq hrequest] at hx
          rcases Host.result?_of_update (Host.progress?_updateRequest hrequest _) hx with hx | ⟨rfl, hq⟩
          · exact .inl hx
          · refine .inl (Host.result?_eq_some_iff.mpr ?_)
            simp [Host.progress?, hrequest, Request.progress_of_giveUp hq]
  | @worked w worker host hworker hdoes => exact .inr ⟨w, worker, host, hworker, rfl, hdoes⟩

/-- A request is finished by its evaluation, or its result says why there was none. -/
theorem Moves.finishes {s s' : World} {a : Act} (hmoves : Moves s a s') (hkept : s.Kept) {r : Nat}
    {x : Result} (hx : s'.host.result? r = some x) :
    s.host.result? r = some x ∨ ∃ w worker, s.host.workers[w]? = some worker ∧
      Host.Finishes (s.braced w) worker r x := by
  rcases hmoves.settles hx with hbefore | ⟨w, worker, host, hworker, rfl, hdoes⟩
  · exact .inl hbefore
  · rcases hdoes.finishes (kept_braced hkept w) hworker hx with hbefore | hfinishes
    · exact .inl hbefore
    · exact .inr ⟨w, worker, hworker, hfinishes⟩

/-- **Every evaluation counts.** -/
theorem Tallied.step {s : World} {count : Nat → Nat} (h : s.Tallied count) (hkept : s.Kept) (a : Act) :
    (s.step a).Tallied fun r => count r + s.evaluationsOf r [a] := by
  have hmoves := moves_step s a
  have hspent : ∀ r, s.Spent r → s.evaluationsOf r [a] = 0 := fun r hr =>
    evaluationsOf_eq_zero hkept hr [a]
  have hkept' := hmoves.kept hkept
  refine ⟨fun r => ?_, fun r hr => ?_, fun w r session p hphase => ?_, fun r x hx => ?_⟩
  · by_cases hr : s.Spent r
    · rw [hspent r hr]
      exact h.le_one r
    · rw [h.unspent r hr]
      rcases evaluationsOf_step s r a with hzero | ⟨hone, -⟩ <;> omega
  · have hr' : ¬ s.Spent r := fun hr' => hr (hmoves.spent hkept hr')
    rw [h.unspent r hr', Nat.zero_add]
    rcases evaluationsOf_step s r a with hzero | ⟨-, -, w, -, -, session, p, -, hafter⟩
    · exact hzero
    · exact absurd (spent_of_evaluating hkept' hafter) hr
  · rcases evaluationsOf_step s r a with hzero | ⟨hone, -, v, pipes, refusal, -, -, hwaits, -⟩
    · rcases hmoves.evaluates hphase with hbefore | ⟨pipes, refusal, source, path, -, hwaits, -, htrace, -⟩
      · rw [h.evaluating w r session p hbefore, hzero]
      · simp [evaluationsOf, madeBy, made_evaluate hwaits htrace, Call.evaluation?] at hzero
    · have hr : ¬ s.Spent r := fun hr => hr.2 v pipes refusal hwaits
      rw [h.unspent r hr, hone]
  · rcases hmoves.finishes hkept hx with hbefore | ⟨w, worker, hworker, hfinishes⟩
    · have hsettled := spent_of_settled hkept (Host.result?_eq_some_iff.mp hbefore) rfl
      rw [hspent r hsettled]
      exact h.finished r x hbefore
    · cases hfinishes with
      | @failed f hx hkind => exact .inr ⟨f, by rw [hx]; rfl, hkind⟩
      | @evaluated session p request captured stdio hevaluating =>
          have hphase : s.host.phase? w = some (.evaluating r session p) := by
            simp [Host.phase?, hworker, hevaluating]
          rw [h.evaluating w r session p hphase, hspent r (spent_of_evaluating hkept hphase)]
          exact .inl rfl

theorem tallied_opening (e : Circumstances) : (opening e).Tallied fun _ => 0 := by
  refine ⟨by simp, by simp, ?_, ?_⟩ <;> simp [opening, Host.phase?, Host.result?]

/-- **In every run the numbers are as they should be.** -/
theorem Tallied.run {s : World} {count : Nat → Nat} (h : s.Tallied count) (hkept : s.Kept)
    (acts : List Act) : (s.run acts).Tallied fun r => count r + s.evaluationsOf r acts := by
  induction acts generalizing s count with
  | nil => exact h
  | cons a acts ih =>
      have hnext := ih (h.step hkept a) ((moves_step s a).kept hkept)
      simp only [evaluationsOf_cons s _ a acts, ← Nat.add_assoc]
      exact hnext

end World

end JanetEmbedding
