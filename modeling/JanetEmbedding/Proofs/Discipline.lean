import JanetEmbedding.Proofs.Closing
import JanetEmbedding.Proofs.Inspection
import Mathlib.Algebra.BigOperators.Group.Finset.Piecewise
import Mathlib.Data.List.Induction

/-!
# The discipline of the native calls

A worker calls its interpreter in one order only: it starts it, evaluates, keeps the value of an
evaluation from being collected for as long as it looks at it, and ends the interpreter last. This
module follows the calls of every worker of a run one by one.

## Conventions

* The trace of a host has one entry for all the looks at a value. Here each look is a call of its own,
  and a call that is about a value has that value.
* What state an interpreter is in is its **condition**. A call that its condition does not allow would
  do harm, so the calls of a worker have to lead from each condition to the next.
* The start of a worker is `Behaviour.start` of its number, since each worker starts its interpreter
  once, and the workers do so in the order of their numbers.

## Main definitions

* `Interpreter.Native`: a call of the interpreter.
* `Interpreter.Condition`, `Condition.Allows`, `Condition.Passes`: the discipline.
* `World.natives`: the calls that a run makes.
* `World.Disciplined`: what is promised of every run.

## Main results

* `World.Moves.turn`: what an action makes of the interpreters.
* `World.disciplined_run`: every run is disciplined.
-/

namespace JanetEmbedding

/-! ### Lists -/

theorem countP_cons_toNat {α : Type} (q : α → Bool) (x : α) (xs : List α) :
    (x :: xs).countP q = (q x).toNat + xs.countP q := by
  rw [List.countP_cons, Nat.add_comm]
  cases q x <;> rfl

/-- What is counted in a list is counted for each of the numbers in it. -/
theorem countP_eq_sum {α : Type} {n : Nat} {xs : List (Nat × α)} (q : α → Bool)
    (hxs : ∀ x ∈ xs, x.1 < n) :
    xs.countP (q ·.2) = ∑ w ∈ Finset.range n, ((xs.filter (·.1 = w)).map (·.2)).countP q := by
  induction xs with
  | nil => simp
  | cons x xs ih =>
      have hone : ∀ w, (((x :: xs).filter (·.1 = w)).map (·.2)).countP q =
          (if x.1 = w then (q x.2).toNat else 0) + ((xs.filter (·.1 = w)).map (·.2)).countP q := by
        intro w
        by_cases hw : x.1 = w
        · simp only [hw, List.filter_cons, decide_true, if_true, List.map_cons]
          exact countP_cons_toNat ..
        · simp [hw]
      have hx : x.1 < n := hxs x List.mem_cons_self
      simp only [hone, Finset.sum_add_distrib, Finset.sum_ite_eq, Finset.mem_range, hx, if_true]
      rw [countP_cons_toNat, ih fun y hy => hxs y (List.mem_cons_of_mem _ hy)]

namespace Interpreter

/-! ### Calls -/

/-- A **call** of the interpreter, with the value that it is about. -/
inductive Native where
  | init
  | environment
  /-- the evaluation of a source, and the value that it gives unless the host raises an exception -/
  | evaluate (source : String) (path : Option String) (given : Option Janet.Value)
  | root (v : Janet.Value)
  | look (l : Janet.Look)
  | unroot (v : Janet.Value)
  | deinit

/-- The entry of a call in the trace of a host, in which looks have none of their own. -/
def Native.call? : Native → Option Call
  | init => some .init
  | environment => some .environment
  | evaluate source path _ => some (.evaluate source path)
  | root _ => some .root
  | look _ => none
  | unroot _ => some .unroot
  | deinit => some .deinit

/-- The value that a program gives, unless the host raises an exception. -/
def Program.given? (p : Program) : Option Janet.Value :=
  if p.raised.isSome then none else some p.value

/-- The value that a program gives is looked at. -/
theorem Program.looks_eq (p : Program) :
    p.looks = if p.given?.isSome then [.root, .inspect, .unroot] else [] := by
  unfold looks given?
  cases p.raised <;> rfl

/-- Whether an interpreter has started, so that it has to be ended. -/
def Start.hasBegun : Start → Bool
  | .ok => true
  | .noEnvironment => true
  | .refused => false
  | .raised _ => false

/-! ### Conditions -/

/-- The **condition** of an interpreter. -/
inductive Condition where
  /-- It has not been started. -/
  | absent
  /-- It has started. -/
  | begun
  /-- It has started, but has no environment. -/
  | bare
  /-- It has not started when it was asked to. -/
  | refused
  | serving
  /-- It has given the value of an evaluation, which nothing keeps from being collected. -/
  | giving (v : Janet.Value)
  /-- It keeps a value from being collected. -/
  | keeping (v : Janet.Value)
  | ended

namespace Condition

/-- Whether a call is **allowed** in a condition, and the condition that it leads to. -/
inductive Allows (start : Start) : Condition → Native → Condition → Prop
  | begin (hbegun : start.hasBegun = true) : Allows start .absent .init .begun
  | refuse (hbegun : start.hasBegun = false) : Allows start .absent .init .refused
  | environment (hstart : start = .ok) : Allows start .begun .environment .serving
  | lack (hstart : start = .noEnvironment) : Allows start .begun .environment .bare
  | evaluate (source : String) (path : Option String) (v : Janet.Value) :
      Allows start .serving (.evaluate source path (some v)) (.giving v)
  | raise (source : String) (path : Option String) :
      Allows start .serving (.evaluate source path none) .serving
  | root (v : Janet.Value) : Allows start (.giving v) (.root v) (.keeping v)
  /-- What is looked at is within the value that is kept. -/
  | look {v : Janet.Value} {l : Janet.Look} (hpart : l.subject.Part v) :
      Allows start (.keeping v) (.look l) (.keeping v)
  | unroot (v : Janet.Value) : Allows start (.keeping v) (.unroot v) .serving
  | deinit : Allows start .serving .deinit .ended
  | deinitBare : Allows start .bare .deinit .ended

/-- Whether a value is kept from being collected. -/
def keeps : Condition → Bool
  | keeping _ => true
  | _ => false

/-- Whether an interpreter that had started has been ended. -/
def hasEnded : Condition → Bool
  | ended => true
  | _ => false

/-- Calls that are allowed one after the other. -/
inductive Passes (start : Start) : Condition → List Native → Condition → Prop
  | nil (c : Condition) : Passes start c [] c
  | cons {c c' c'' : Condition} {n : Native} {ns : List Native} (hallows : Allows start c n c')
      (hpasses : Passes start c' ns c'') : Passes start c (n :: ns) c''

namespace Passes

variable {start : Start} {c c' c'' : Condition} {ns ns' : List Native}

theorem append (h : Passes start c ns c') (h' : Passes start c' ns' c'') :
    Passes start c (ns ++ ns') c'' := by
  induction h with
  | nil => exact h'
  | cons hallows _ ih => exact .cons hallows (ih h')

theorem single {n : Native} (h : Allows start c n c') : Passes start c [n] c' := .cons h (.nil c')

/-- Looks at the parts of a value that is kept. -/
theorem looks {v : Janet.Value} {ls : List Janet.Look} (hparts : ∀ l ∈ ls, l.subject.Part v) :
    Passes start (.keeping v) (ls.map .look) (.keeping v) := by
  induction ls with
  | nil => exact .nil _
  | cons l ls ih =>
      exact .cons (.look (hparts l List.mem_cons_self))
        (ih fun l' hl' => hparts l' (List.mem_cons_of_mem _ hl'))

/-- An inspection of the value that an evaluation has given. -/
theorem inspection (kind : RequestKind) (signal : Int) (v : Janet.Value) :
    Passes start (.giving v)
      (.root v :: (Evaluation.inspection kind signal v).looks.map .look ++ [.unroot v]) .serving :=
  (cons (.root v) (looks fun _ hl => Evaluation.part_of_look hl)).append (single (.unroot v))

/-! ### What follows -/

theorem eq_nil_of_ended (h : Passes start .ended ns c) : ns = [] ∧ c = .ended := by
  cases h with
  | nil => exact ⟨rfl, rfl⟩
  | cons hallows => cases hallows

theorem eq_nil_of_refused (h : Passes start .refused ns c) : ns = [] ∧ c = .refused := by
  cases h with
  | nil => exact ⟨rfl, rfl⟩
  | cons hallows => cases hallows

theorem ne_absent (h : Passes start c ns c') (hc : c ≠ .absent) : c' ≠ .absent := by
  induction h with
  | nil => exact hc
  | cons hallows _ ih => exact ih (by cases hallows <;> simp)

/-- No calls have been made of an interpreter that has not been started. -/
theorem eq_nil_of_absent (h : Passes start c ns .absent) : ns = [] := by
  cases h with
  | nil => rfl
  | cons hallows hpasses => exact absurd rfl (hpasses.ne_absent (by cases hallows <;> simp))

/-- An interpreter that refuses to start is not called again. -/
theorem of_refused (h : Passes start .absent ns c) (hbegun : start.hasBegun = false) :
    ns = [] ∨ ns = [.init] := by
  cases h with
  | nil => exact .inl rfl
  | cons hallows hpasses =>
      cases hallows with
      | begin hbegun' => cases hbegun.symm.trans hbegun'
      | refuse => exact .inr (by rw [hpasses.eq_nil_of_refused.1])

/-- **The end of the interpreter is the last call.** -/
theorem exists_of_ended (h : Passes start c ns .ended) (hc : c ≠ .ended) :
    ∃ body, ns = body ++ [.deinit] ∧ Native.deinit ∉ body := by
  generalize hend : Condition.ended = c' at h
  induction h with
  | nil => exact absurd hend.symm hc
  | @cons c c' c'' n ns hallows hpasses ih =>
      subst hend
      by_cases hc' : c' = .ended
      · subst hc'
        obtain ⟨rfl, -⟩ := hpasses.eq_nil_of_ended
        cases hallows <;> exact ⟨[], rfl, List.not_mem_nil⟩
      · obtain ⟨body, rfl, hbody⟩ := ih hc' rfl
        refine ⟨n :: body, rfl, fun hmem => ?_⟩
        rcases List.mem_cons.mp hmem with rfl | hmem
        · cases hallows <;> exact hc' rfl
        · exact hbody hmem

/-- Every value that is kept is let go of. -/
theorem countP_root (h : Passes start c ns c') :
    c.keeps.toNat + ns.countP (·.call? = some .root) =
      c'.keeps.toNat + ns.countP (·.call? = some .unroot) := by
  induction h with
  | nil => rfl
  | @cons c c' c'' n ns hallows _ ih =>
      have hone : c.keeps.toNat + (decide (n.call? = some .root)).toNat =
          c'.keeps.toNat + (decide (n.call? = some .unroot)).toNat := by
        cases hallows <;> rfl
      rw [countP_cons_toNat, countP_cons_toNat]
      omega

/-- An interpreter is ended once. -/
theorem countP_deinit (h : Passes start c ns c') :
    c.hasEnded.toNat + ns.countP (·.call? = some .deinit) = c'.hasEnded.toNat := by
  induction h with
  | nil => rfl
  | @cons c c' c'' n ns hallows _ ih =>
      have hone : c.hasEnded.toNat + (decide (n.call? = some .deinit)).toNat = c'.hasEnded.toNat := by
        cases hallows <;> rfl
      rw [countP_cons_toNat]
      omega

end Passes

end Condition

end Interpreter

open Interpreter (Call Program Start Native Condition)
open Interpreter.Condition (Passes)

/-! ### The calls of a run -/

/-- The program that is evaluated. -/
def Phase.program? : Phase → Option Program
  | evaluating _ _ p => some p
  | _ => none

/-- The condition that the interpreter of a worker is in, given how it has started. -/
def Phase.condition (start : Start) : Phase → Condition
  | created => .absent
  | serving => .serving
  | waiting _ _ _ => .serving
  | evaluating _ _ p => (p.given?.map .giving).getD .serving
  | stopped => .ended
  | failed _ => if start.hasBegun then .ended else .refused

/-- An interpreter that had started has been ended when its worker has. -/
theorem Phase.condition_of_hasEnded {start : Start} {p : Phase} (hended : p.hasEnded = true)
    (hbegun : start.hasBegun = true) : p.condition start = .ended := by
  cases p with
  | stopped => rfl
  | failed f => rw [Phase.condition, if_pos hbegun]
  | created | serving | waiting | evaluating => cases hended

namespace Host

/-- The program that a worker has evaluated. -/
def program? (h : Host) (w : Nat) : Option Program := (h.phase? w).bind Phase.program?

/-- The looks of a worker at the value of its program. -/
def looks (h : Host) (w : Nat) : List Janet.Look :=
  match (h.handled? w).bind (h.requests[·]?), h.program? w with
  | some request, some p => (Evaluation.inspection request.kind p.signal p.value).looks
  | _, _ => []

/-- The calls that an entry in the trace stands for, which a worker has made from one state of the host
to the next. -/
def natives (before after : Host) (w : Nat) : Call → List Native
  | .init => [.init]
  | .environment => [.environment]
  | .evaluate source path => [.evaluate source path ((after.program? w).bind Program.given?)]
  | .root => (before.program? w).toList.map fun p => .root p.value
  | .inspect => (before.looks w).map .look
  | .unroot => (before.program? w).toList.map fun p => .unroot p.value
  | .deinit => [.deinit]

/-- The condition that the interpreter of a worker is in. -/
def condition (h : Host) (start : Start) (w : Nat) : Condition :=
  ((h.phase? w).map (Phase.condition start)).getD .absent

theorem condition_of_phase {h : Host} {w : Nat} {p : Phase} (hp : h.phase? w = some p)
    (start : Start) : h.condition start w = p.condition start := by
  rw [condition, hp]
  rfl

theorem condition_of_none {h : Host} {w : Nat} (hp : h.phase? w = none) (start : Start) :
    h.condition start w = .absent := by
  rw [condition, hp]
  rfl

/-- Between two steps of the system, no interpreter keeps a value from being collected. -/
theorem keeps_condition (h : Host) (start : Start) (w : Nat) :
    (h.condition start w).keeps = false := by
  cases hphase : h.phase? w with
  | none => rw [condition_of_none hphase]; rfl
  | some p =>
      rw [condition_of_phase hphase]
      cases p with
      | evaluating r session p =>
          rw [Phase.condition]
          cases p.given? <;> rfl
      | failed f =>
          rw [Phase.condition]
          split <;> rfl
      | created | serving | waiting | stopped => rfl

/-- What one step of the system makes of the interpreters: the **turn** of one worker, which may be new. -/
structure Turn (h h' : Host) (w : Nat) (calls : List Call) : Prop where
  known : w ≤ h.workers.length
  /-- Whoever calls is a worker. -/
  own : calls ≠ [] → w < h'.workers.length
  trace : h'.trace = h.trace ++ calls.map (w, ·)
  others : ∀ v, v ≠ w → h'.phase? v = h.phase? v
  behaviour : h'.behaviour = h.behaviour
  started : h'.workers.length = h.workers.length + calls.countP (· = .init)
  /-- Every entry of the trace stands for a call, but the one for the looks. -/
  noted : (calls.flatMap (h.natives h' w)).filterMap Native.call? = calls.filter (· ≠ .inspect)
  /-- The calls are those that the condition of the interpreter allows. -/
  passes : ∀ start, (h.phase? w = none → start = h.nextStart) →
    Passes start (h.condition start w) (calls.flatMap (h.natives h' w)) (h'.condition start w)

/-- The entries of the trace are those of workers. -/
theorem calledElsewhere_eq_false_iff {h : Host} :
    h.calledElsewhere = false ↔ ∀ entry ∈ h.trace, entry.1 < h.workers.length := by
  simp [calledElsewhere]

/-- A turn makes no calls but those of a worker. -/
theorem Turn.calledElsewhere {h h' : Host} {w : Nat} {calls : List Call} (hturn : Turn h h' w calls)
    (hown : h.calledElsewhere = false) : h'.calledElsewhere = false := by
  rw [calledElsewhere_eq_false_iff] at hown ⊢
  rw [hturn.trace]
  refine List.forall_mem_append.mpr ⟨fun entry hentry => ?_, List.forall_mem_map.mpr fun call hcall => ?_⟩
  · exact (hown entry hentry).trans_le (hturn.started ▸ Nat.le_add_right ..)
  · exact hturn.own (List.ne_nil_of_mem hcall)

/-- Nobody's turn. -/
theorem Turn.none {h h' : Host} (htrace : h'.trace = h.trace)
    (hphases : ∀ v, h'.phase? v = h.phase? v) (hbehaviour : h'.behaviour = h.behaviour)
    (hworkers : h'.workers.length = h.workers.length) : Turn h h' h.workers.length [] := by
  refine ⟨Nat.le_refl _, fun hne => absurd rfl hne, by simpa using htrace, fun v _ => hphases v, hbehaviour,
    by simpa using hworkers, rfl, fun start _ => ?_⟩
  rw [condition, condition, hphases]
  exact .nil _

/-- The calls of a start lead to what the worker is doing then. -/
theorem passes_start {before after : Host} {w : Nat} {start : Start} {p : Phase}
    (hp : start = .ok ∧ p = .serving ∨ start ≠ .ok ∧ ∃ f, p = .failed f) :
    Passes start .absent (start.calls.flatMap (natives before after w)) (p.condition start) := by
  rcases hp with ⟨rfl, rfl⟩ | ⟨hfails, f, rfl⟩
  · exact .cons (.begin rfl) (.single (.environment rfl))
  · cases start with
    | ok => exact absurd rfl hfails
    | refused | raised => exact .single (.refuse rfl)
    | noEnvironment => exact .cons (.begin rfl) (.cons (.lack rfl) (.single .deinitBare))

/-- A new worker takes a turn when it starts, and serves or has failed then. -/
theorem Turn.of_concat {h h' : Host} {x : Worker} (hworkers : h'.workers = h.workers ++ [x])
    (htrace : h'.trace = h.trace ++ h.nextStart.calls.map (h.workers.length, ·))
    (hbehaviour : h'.behaviour = h.behaviour)
    (hphase : h.nextStart = .ok ∧ x.phase = .serving ∨
      h.nextStart ≠ .ok ∧ ∃ f, x.phase = .failed f) :
    Turn h h' h.workers.length h.nextStart.calls := by
  have hnone : h.phase? h.workers.length = .none := by simp [Host.phase?]
  have hsome : h'.phase? h.workers.length = some x.phase := by simp [Host.phase?, hworkers]
  refine ⟨Nat.le_refl _, fun _ => by simp [hworkers], htrace, fun v hv => ?_, hbehaviour, ?_, ?_,
    fun start hstart => ?_⟩
  · rcases Nat.lt_or_gt_of_ne hv with hlt | hgt
    · simp [Host.phase?, hworkers, List.getElem?_append_left hlt]
    · obtain ⟨hv, hv'⟩ := getElem?_concat_of_gt hgt x
      simp only [Host.phase?, hworkers, hv, hv']
  · rw [hworkers, List.length_append]
    cases h.nextStart <;> rfl
  · cases h.nextStart <;> rfl
  · obtain rfl := hstart hnone
    rw [condition_of_none hnone, condition_of_phase hsome]
    exact passes_start hphase

/-- **The turn of a worker that is started**, unless there is none to be made. -/
theorem Starts.turn {h h' : Host} {id : Nat} {f : Option Fault} (hstarts : Starts h id f h') :
    ∃ w calls, Turn h h' w calls := by
  cases hstarts with
  | stays => exact ⟨_, _, .none rfl (fun _ => rfl) rfl rfl⟩
  | fails log hhandle hstate hcalls hfault hnext hfails =>
      subst hnext
      exact ⟨_, _, .of_concat rfl rfl rfl (.inr ⟨hfails, _, rfl⟩)⟩
  | serves log hhandle hstate hnext =>
      exact ⟨_, _, .of_concat rfl (by rw [hnext]; rfl) rfl (.inl ⟨hnext, rfl⟩)⟩

/-- The call that evaluates a source leads to the value that its program gives. -/
theorem passes_evaluate {before after : Host} {w r : Nat} {start : Start} {session : Capture.Session}
    {p : Program} (hphase : after.phase? w = some (.evaluating r session p)) (source : String)
    (path : Option String) :
    Passes start .serving (before.natives after w (.evaluate source path))
      (Phase.condition start (.evaluating r session p)) := by
  have hprogram : after.program? w = some p := by simp [program?, hphase, Phase.program?]
  simp only [natives, hprogram, Option.bind_some, Phase.condition]
  cases p.given? with
  | some v => exact .single (.evaluate source path v)
  | none => exact .single (.raise source path)

/-- The calls at the end of a program: its value is inspected, if it has given one. -/
theorem flatMap_looks {before after : Host} {w r : Nat} {request : Request}
    {session : Capture.Session} {p : Program}
    (hphase : before.phase? w = some (.evaluating r session p))
    (hrequest : before.requests[r]? = some request) :
    p.looks.flatMap (before.natives after w) = match p.given? with
      | some v => .root v ::
          (Evaluation.inspection request.kind p.signal v).looks.map .look ++ [.unroot v]
      | none => [] := by
  have hprogram : before.program? w = some p := by simp [program?, hphase, Phase.program?]
  have hlooks : before.looks w = (Evaluation.inspection request.kind p.signal p.value).looks := by
    simp [looks, handled?_eq, hphase, Phase.request?, hrequest, hprogram]
  cases hraised : p.raised with
  | some text => simp [Program.given?, Program.looks, hraised]
  | none => simp [Program.given?, Program.looks, hraised, Call.rooted, natives, hprogram, hlooks]

theorem noted_looks {before after : Host} {w r : Nat} {request : Request}
    {session : Capture.Session} {p : Program}
    (hphase : before.phase? w = some (.evaluating r session p))
    (hrequest : before.requests[r]? = some request) :
    (p.looks.flatMap (before.natives after w)).filterMap Native.call? =
      p.looks.filter (· ≠ .inspect) := by
  have hnone : ∀ ls : List Janet.Look, (ls.map Native.look).filterMap Native.call? = [] := by
    intro ls
    rw [List.filterMap_map]
    exact List.filterMap_eq_nil_iff.mpr fun l _ => rfl
  rw [flatMap_looks hphase hrequest, Program.looks_eq]
  cases p.given? with
  | none => rfl
  | some v => simp [Native.call?, hnone]

theorem passes_looks {before after : Host} {w r : Nat} {start : Start} {request : Request}
    {session : Capture.Session} {p : Program}
    (hphase : before.phase? w = some (.evaluating r session p))
    (hrequest : before.requests[r]? = some request) :
    Passes start (Phase.condition start (.evaluating r session p))
      (p.looks.flatMap (before.natives after w)) .serving := by
  rw [flatMap_looks hphase hrequest, Phase.condition]
  cases p.given? with
  | some v => exact .inspection request.kind p.signal v
  | none => exact .nil _

/-- A worker that is there takes a turn when nothing changes but that worker, which does not make an
interpreter. -/
theorem Turn.of_modify {h h' : Host} {w : Nat} {worker : Worker} {f : Worker → Worker}
    (hworker : h.workers[w]? = some worker) (calls : List Call)
    (hworkers : h'.workers = h.workers.modify w f) (htrace : h'.trace = h.trace ++ calls.map (w, ·))
    (hbehaviour : h'.behaviour = h.behaviour) (hinit : calls.countP (· = .init) = 0)
    (hnoted : (calls.flatMap (h.natives h' w)).filterMap Native.call? = calls.filter (· ≠ .inspect))
    (hpasses : ∀ start, Passes start (worker.phase.condition start) (calls.flatMap (h.natives h' w))
      ((f worker).phase.condition start)) : Turn h h' w calls := by
  have hbefore : h.phase? w = some worker.phase := by simp [Host.phase?, hworker]
  have hafter : h'.phase? w = some (f worker).phase := by simp [Host.phase?, hworkers, hworker]
  have hlt := (List.getElem?_eq_some_iff.mp hworker).1
  refine ⟨Nat.le_of_lt hlt, fun _ => by rwa [hworkers, List.length_modify], htrace,
    fun v hv => phase?_modify_of_ne hv hworkers, hbehaviour, ?_, hnoted, fun start _ => ?_⟩
  · rw [hworkers, List.length_modify, hinit, Nat.add_zero]
  · rw [condition_of_phase hbefore, condition_of_phase hafter]
    exact hpasses start

/-- **The turn of a worker.** -/
theorem Does.turn {h h' : Host} {w : Nat} {worker : Worker} (hdoes : Does h w worker h')
    (hworker : h.workers[w]? = some worker) : ∃ calls, Turn h h' w calls := by
  have hbefore : h.phase? w = some worker.phase := by simp [Host.phase?, hworker]
  cases hdoes with
  | leave log hphase =>
      refine ⟨_, .of_modify hworker [.deinit] rfl rfl rfl rfl rfl fun start => ?_⟩
      rw [hphase]
      exact .single .deinit
  | pass log hphase =>
      refine ⟨_, .of_modify hworker [] rfl (List.append_nil _).symm rfl rfl rfl fun start => ?_⟩
      exact .nil _
  | pickUp hphase | refuse log hphase =>
      refine ⟨_, .of_modify hworker [] rfl (List.append_nil _).symm rfl rfl rfl fun start => ?_⟩
      rw [hphase]
      exact .nil _
  | @evaluate r pipes refusal request session stdio source path p hphase =>
      refine ⟨_, .of_modify hworker [.evaluate source path] rfl rfl rfl rfl rfl fun start => ?_⟩
      rw [hphase, List.flatMap_singleton]
      exact passes_evaluate (by simp [Host.phase?, hworker]) source path
  | @finish r request x stdio calls log hheld hrequest hends =>
      generalize hphase : worker.phase = phase at hends hheld
      have hbefore' : h.phase? w = some phase := hbefore.trans (congrArg some hphase)
      refine ⟨_, .of_modify hworker calls rfl rfl rfl ?_ ?_ fun start => ?_⟩
      · cases hends with
        | unredirected | unencoded => rfl
        | @concluded r session p captured =>
            unfold Program.looks
            split <;> rfl
      · cases hends with
        | unredirected | unencoded => rfl
        | concluded =>
            obtain rfl := Option.some.inj hheld
            exact noted_looks hbefore' hrequest
      · rw [hphase]
        cases hends with
        | unredirected | unencoded => exact .nil _
        | concluded =>
            obtain rfl := Option.some.inj hheld
            exact passes_looks hbefore' hrequest

end Host

namespace World

/-- **What an action makes of the interpreters** is the turn of one worker. -/
theorem Moves.turn {s s' : World} {a : Act} (hmoves : Moves s a s') :
    ∃ w calls, Host.Turn s.host s'.host w calls := by
  have hphases : ∀ {h : Host}, (∀ v, h.phase? v = s.host.phase? v) → h.trace = s.host.trace →
      h.behaviour = s.host.behaviour → h.workers.length = s.host.workers.length →
      ∃ w calls, Host.Turn s.host h w calls :=
    fun hphases htrace hbehaviour hworkers => ⟨_, _, .none htrace hphases hbehaviour hworkers⟩
  cases hmoves with
  | stays | created | expired | looked | turned | served | noted | opened =>
      exact hphases (fun _ => rfl) rfl rfl rfl
  | shared config source shared hstarts =>
      obtain ⟨w, calls, hturn⟩ := hstarts.turn
      exact ⟨w, calls, hturn.known, hturn.own, hturn.trace, hturn.others, hturn.behaviour, hturn.started,
        hturn.noted, hturn.passes⟩
  | started hstarts | ready _ _ hstarts | refused _ _ hstarts => exact hstarts.turn
  | accepted =>
      exact hphases (Host.phase?_modify_queue rfl) rfl rfl (List.length_modify ..)
  | @left c r caller m hcaller hstanding =>
      obtain ⟨requests, heq⟩ := Host.giveUp_snd_eq s.host r
      rw [heq]
      exact hphases (fun _ => rfl) rfl rfl rfl
  | closed hcloses =>
      cases hcloses with
      | stays | fresh => exact hphases (fun _ => rfl) rfl rfl rfl
      | running => exact hphases (Host.phase?_modify_queue rfl) rfl rfl (List.length_modify ..)
  | @worked w worker host hworker hdoes =>
      obtain ⟨calls, hturn⟩ := hdoes.turn hworker
      exact ⟨w, calls, hturn.known, hturn.own, hturn.trace, hturn.others, hturn.behaviour, hturn.started,
        hturn.noted, hturn.passes⟩

/-- The calls that an action makes, each with its worker. -/
def native (s : World) (a : Act) : List (Nat × Native) :=
  ((s.step a).host.trace.drop s.host.trace.length).flatMap fun (w, call) =>
    (s.host.natives (s.step a).host w call).map (w, ·)

/-- The calls that a run makes. -/
def natives (s : World) : List Act → List (Nat × Native)
  | [] => []
  | a :: acts => s.native a ++ (s.step a).natives acts

/-- The calls of a worker, in order. -/
def nativesOf (s : World) (w : Nat) (acts : List Act) : List Native :=
  ((s.natives acts).filter (·.1 = w)).map (·.2)

theorem natives_append (s : World) (acts more : List Act) :
    s.natives (acts ++ more) = s.natives acts ++ (s.run acts).natives more := by
  induction acts generalizing s with
  | nil => rfl
  | cons a acts ih => simp only [List.cons_append, natives, ih, run_cons, List.append_assoc]

theorem nativesOf_concat (s : World) (w : Nat) (acts : List Act) (a : Act) :
    s.nativesOf w (acts ++ [a]) = s.nativesOf w acts ++ (s.run acts).nativesOf w [a] := by
  simp [nativesOf, natives_append]

/-- The calls of the worker whose turn it is. -/
theorem native_eq {s : World} {a : Act} {w : Nat} {calls : List Call}
    (hturn : Host.Turn s.host (s.step a).host w calls) :
    s.native a = (calls.flatMap (s.host.natives (s.step a).host w)).map (w, ·) := by
  simp [native, hturn.trace, List.flatMap_map, List.map_flatMap]

theorem nativesOf_self {s : World} {a : Act} {w : Nat} {calls : List Call}
    (hturn : Host.Turn s.host (s.step a).host w calls) :
    s.nativesOf w [a] = calls.flatMap (s.host.natives (s.step a).host w) := by
  simp [nativesOf, natives, native_eq hturn, List.filter_map, Function.comp_def]

theorem nativesOf_of_ne {s : World} {a : Act} {v w : Nat} {calls : List Call}
    (hturn : Host.Turn s.host (s.step a).host w calls) (hne : v ≠ w) : s.nativesOf v [a] = [] := by
  simp [nativesOf, natives, native_eq hturn, List.filter_map, Function.comp_def, Ne.symm hne]

/-- The entries of the trace that the calls of an action stand for. -/
theorem noted_native {s : World} {a : Act} {w : Nat} {calls : List Call}
    (hturn : Host.Turn s.host (s.step a).host w calls) :
    (s.natives [a]).filterMap (fun (w, n) => n.call?.map (w, ·)) =
      (calls.map (w, ·)).filter (·.2 ≠ .inspect) := by
  have hmap : ∀ ns : List Native, (ns.map (w, ·)).filterMap (fun (w, n) => n.call?.map (w, ·)) =
      (ns.filterMap Native.call?).map (w, ·) := by
    intro ns
    rw [List.filterMap_map, List.map_filterMap]
    rfl
  rw [natives, natives, List.append_nil, native_eq hturn, hmap, hturn.noted, List.filter_map]
  rfl

/-! ### The account of the calls -/

/-- The **account** of the calls of a run. -/
structure Called (e : Circumstances) (acts : List Act) : Prop where
  behaviour : ((opening e).run acts).host.behaviour = e.behaviour
  own : ((opening e).run acts).host.calledElsewhere = false
  /-- Every worker has started its interpreter once. -/
  started : ((opening e).run acts).host.calls.countP (· = .init) =
    ((opening e).run acts).host.workers.length
  noted : ((opening e).natives acts).filterMap (fun (w, n) => n.call?.map (w, ·)) =
    ((opening e).run acts).host.trace.filter (·.2 ≠ .inspect)
  passes : ∀ w, Passes (e.behaviour.start w) .absent ((opening e).nativesOf w acts)
    (((opening e).run acts).host.condition (e.behaviour.start w) w)

theorem called_nil (e : Circumstances) : Called e [] := by
  refine ⟨rfl, rfl, rfl, rfl, fun w => ?_⟩
  rw [Host.condition_of_none (by simp [opening, Host.phase?])]
  exact .nil _

/-- **Every action keeps the account.** -/
theorem Called.step {e : Circumstances} {acts : List Act} (h : Called e acts) (a : Act) :
    Called e (acts ++ [a]) := by
  obtain ⟨w, calls, hturn⟩ := (moves_step ((opening e).run acts) a).turn
  have hrun : (opening e).run (acts ++ [a]) = ((opening e).run acts).step a := by
    rw [run_append]
    rfl
  refine ⟨?_, ?_, ?_, ?_, fun v => ?_⟩
  · rw [hrun, hturn.behaviour, h.behaviour]
  · rw [hrun]
    exact hturn.calledElsewhere h.own
  · rw [hrun, hturn.started, ← h.started, Host.calls, hturn.trace]
    simp [Host.calls, Function.comp_def]
  · rw [hrun, hturn.trace, natives_append, List.filterMap_append, h.noted, List.filter_append,
      noted_native hturn]
  · rw [hrun, nativesOf_concat]
    refine (h.passes v).append ?_
    by_cases hv : v = w
    · subst hv
      rw [nativesOf_self hturn]
      refine hturn.passes _ fun hnone => ?_
      have hge : ((opening e).run acts).host.workers.length ≤ v := by
        simpa [Host.phase?] using hnone
      have hv : v = ((opening e).run acts).host.workers.length := Nat.le_antisymm hturn.known hge
      rw [Host.nextStart, h.started, h.behaviour, ← hv]
    · rw [nativesOf_of_ne hturn hv, Host.condition, Host.condition, hturn.others v hv]
      exact .nil _

/-- The account of every run. -/
theorem called_run (e : Circumstances) (acts : List Act) : Called e acts := by
  induction acts using List.reverseRecOn with
  | nil => exact called_nil e
  | append_singleton acts a ih => exact ih.step a

/-- Calls are those of the workers that there are. -/
theorem Called.lt_of_mem {e : Circumstances} {acts : List Act} (h : Called e acts) {w : Nat}
    {n : Native} (hn : (w, n) ∈ (opening e).natives acts) :
    w < ((opening e).run acts).host.workers.length := by
  by_contra hge
  have hnone : ((opening e).run acts).host.phase? w = none := by
    simpa [Host.phase?] using hge
  have hpasses := h.passes w
  rw [Host.condition_of_none hnone] at hpasses
  have hmem : n ∈ (opening e).nativesOf w acts := by
    refine List.mem_map.mpr ⟨(w, n), ?_, rfl⟩
    exact List.mem_filter.mpr ⟨hn, by simp⟩
  rw [hpasses.eq_nil_of_absent] at hmem
  cases hmem

/-- Calls of a kind, counted in the trace and for each worker. -/
theorem Called.countP_eq {e : Circumstances} {acts : List Act} (h : Called e acts) {call : Call}
    (hcall : call ≠ .inspect) :
    ((opening e).run acts).host.calls.countP (· = call) =
      ∑ w ∈ Finset.range ((opening e).run acts).host.workers.length,
        ((opening e).nativesOf w acts).countP (·.call? = some call) := by
  calc ((opening e).run acts).host.calls.countP (· = call)
      = (((opening e).run acts).host.trace.filter (·.2 ≠ .inspect)).countP (·.2 = call) := by
        rw [Host.calls, List.countP_map, List.countP_filter]
        refine List.countP_congr fun entry _ => ?_
        simp only [Function.comp_apply, decide_eq_true_eq, Bool.and_eq_true]
        exact ⟨fun heq => ⟨heq, heq ▸ hcall⟩, And.left⟩
    _ = ((opening e).natives acts).countP (·.2.call? = some call) := by
        rw [← h.noted, List.countP_filterMap]
        refine List.countP_congr fun entry _ => ?_
        cases hentry : entry.2.call? <;> simp [hentry]
    _ = _ := countP_eq_sum (·.call? = some call) fun x hx => h.lt_of_mem hx

/-- Every value that has been kept has been let go of. -/
theorem Called.balanced {e : Circumstances} {acts : List Act} (h : Called e acts) :
    ((opening e).run acts).host.calls.countP (· = .root) =
      ((opening e).run acts).host.calls.countP (· = .unroot) := by
  rw [h.countP_eq (by simp), h.countP_eq (by simp)]
  refine Finset.sum_congr rfl fun w _ => ?_
  have hroots := (h.passes w).countP_root
  rw [Host.keeps_condition] at hroots
  simpa [Condition.keeps] using hroots

/-! ### What is promised of every run -/

/-- A run is **disciplined** if its workers call their interpreters as they should. -/
structure Disciplined (e : Circumstances) (acts : List Act) : Prop where
  /-- The calls are those of the trace, with the single looks in the place of the entry for them. -/
  noted : ((opening e).natives acts).filterMap (fun (w, n) => n.call?.map (w, ·)) =
    ((opening e).run acts).host.trace.filter (·.2 ≠ .inspect)
  /-- Nobody but a worker calls an interpreter. -/
  own : ((opening e).run acts).host.calledElsewhere = false
  /-- Each call of a worker is allowed when it is made. -/
  bracketed : ∀ w, Passes (e.behaviour.start w) .absent ((opening e).nativesOf w acts)
    (((opening e).run acts).host.condition (e.behaviour.start w) w)
  /-- An interpreter that has not started is not called again. -/
  unbegun : ∀ w, (e.behaviour.start w).hasBegun = false →
    (opening e).nativesOf w acts = [] ∨ (opening e).nativesOf w acts = [.init]
  /-- When a worker has ended whose interpreter had started, it has ended the interpreter, once and
  last. -/
  ended : ∀ w p, ((opening e).run acts).host.phase? w = some p → p.hasEnded = true →
    (e.behaviour.start w).hasBegun = true →
    ∃ body, (opening e).nativesOf w acts = body ++ [.deinit] ∧ Native.deinit ∉ body
  /-- After each action, no value is kept from being collected for good. -/
  balanced : ((opening e).run acts).host.calls.countP (· = .root) =
    ((opening e).run acts).host.calls.countP (· = .unroot)
  unkept : Call.kept ((opening e).run acts).host.calls = 0
  /-- Every worker starts its interpreter once. -/
  begun : ((opening e).run acts).host.calls.countP (· = .init) =
    ((opening e).run acts).host.workers.length
  /-- When all workers have ended, as many interpreters have been ended as had started. -/
  settled : (∀ w p, ((opening e).run acts).host.phase? w = some p → p.hasEnded = true) →
    ((opening e).run acts).host.calls.countP (· = .deinit) =
      ((Finset.range ((opening e).run acts).host.workers.length).filter
        fun w => (e.behaviour.start w).hasBegun = true).card

/-- **Every run is disciplined.** -/
theorem disciplined_run (e : Circumstances) (acts : List Act) : Disciplined e acts := by
  have hcalled := called_run e acts
  refine ⟨hcalled.noted, hcalled.own, hcalled.passes, fun w hbegun => (hcalled.passes w).of_refused hbegun,
    fun w p hp hended hbegun => ?_, hcalled.balanced, ?_, hcalled.started, fun hall => ?_⟩
  · have hpasses := hcalled.passes w
    rw [Host.condition_of_phase hp, Phase.condition_of_hasEnded hended hbegun] at hpasses
    exact hpasses.exists_of_ended (by simp)
  · rw [Call.kept, hcalled.balanced, Nat.sub_self]
  · rw [hcalled.countP_eq (by simp), Finset.card_filter]
    refine Finset.sum_congr rfl fun w hw => ?_
    cases hbegun : (e.behaviour.start w).hasBegun with
    | false =>
        rcases (hcalled.passes w).of_refused hbegun with hcalls | hcalls <;> rw [hcalls] <;> rfl
    | true =>
        have hworker := List.getElem?_eq_getElem (Finset.mem_range.mp hw)
        have hp := congrArg (Option.map Worker.phase) hworker
        have hdeinits := (hcalled.passes w).countP_deinit
        rw [Host.condition_of_phase hp, Phase.condition_of_hasEnded (hall w _ hp) hbegun] at hdeinits
        simpa [Condition.hasEnded] using hdeinits

/-- A handle that starts at the fourth attempt. The sequence that is its value is looked at twice, and
then refuses to be viewed. -/
example :
    let e : Circumstances := { behaviour :=
      { programs := [("a", [{ value := .sequence .array none .usual }])]
        starts := [.raised "broken", .refused, .noEnvironment, .ok] } }
    let acts : List Act := [.create {} .given, .start 0, .start 0, .start 0, .start 0,
      .call 0 0 .parse "a" none, .advance 0, .work 3, .work 3, .work 3, .close 0, .work 3]
    ([0, 1, 2].map ((opening e).run acts).host.callsOf) =
        [[.init], [.init], [.init, .environment, .deinit]] ∧
      ((opening e).nativesOf 3 acts).map Native.call? =
        [some .init, some .environment, some (.evaluate "a" none), some .root, none, none,
          some .unroot, some .deinit] := by
  decide +kernel

end World

end JanetEmbedding
