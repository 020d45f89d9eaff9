import JanetEmbedding.Proofs.Effect

/-!
# What an action comes to

Callers, closers and workers act in a world one after the other. `World.Moves` has one constructor
for each thing that can come of an action, with what led to it and with the world that results. What
holds of every run is proved by a case analysis over it.

## Main results

* `World.moves_step`: an action comes to one of these.
* `World.Moves.callers_of_ne`, `World.Moves.proceeds`: what it comes to for one caller.
-/

namespace JanetEmbedding

/-- A host with one more request, in the queue of a worker. -/
def Host.accept (h : Host) (w : Nat) (kind : RequestKind) (source : Text) : Host :=
  { h with
    requests := h.requests ++ [{ kind, source }]
    workers := h.workers.modify w fun x =>
      { x with queue := x.queue ++ [.request h.requests.length] } }

namespace World

open Host (Starts Closes Does)

/-- What an action **comes to**. -/
inductive Moves (s : World) : Act → World → Prop
  /-- The action cannot be done, or there is nothing to see of it. -/
  | stays (a : Act) : Moves s a s
  | created (config : Config) (source : LibrarySource) :
      Moves s (.create config source) { s with host := (s.host.addHandle config source).2 }
  | shared {c : Config} {f : Option Fault} {host : Host} (config : Except Config.Failure Config)
      (source : LibrarySource) (shared : Option Nat)
      (hstarts : Starts (s.host.addHandle c source).2 s.host.handles.length f host)
      (hshared : ∀ i, shared = some i → i = s.host.handles.length ∧ f = none) :
      Moves s (.share config source) { s with host := { host with shared } }
  | started {id : Nat} {f : Option Fault} {host : Host} (hstarts : Starts s.host id f host) :
      Moves s (.start id) { s with host }
  /-- A caller that has no time is answered. -/
  | expired {c id : Nat} {handle : Handle} {timeout : Option Seconds} (kind : RequestKind)
      (source : Text) (hnew : s.callers c = none) (hhandle : s.host.handles[id]? = some handle)
      (hover : (Host.patience handle timeout).any (·.isOver) = true) :
      Moves s (.call c id kind source timeout)
        (s.put c ⟨id, kind, source, .submitting⟩ (.dismissed (.expired false)))
  /-- A caller finds its handle fresh or not. -/
  | looked {c id : Nat} {handle : Handle} {timeout : Option Seconds} (kind : RequestKind)
      (source : Text) (hnew : s.callers c = none) (hhandle : s.host.handles[id]? = some handle)
      (hover : (Host.patience handle timeout).any (·.isOver) = false) :
      Moves s (.call c id kind source timeout)
        (s.put c ⟨id, kind, source, .submitting⟩
          (if handle.state = .fresh then .starting else .submitting))
  /-- A caller finds that its handle runs, or has it started. -/
  | ready {c : Nat} {caller : Caller} {host : Host} (hcaller : s.callers c = some caller)
      (hstanding : caller.standing = .starting) (hstarts : Starts s.host caller.handle none host) :
      Moves s (.advance c) ({ s with host }.put c caller .submitting)
  /-- The handle of a caller does not start. -/
  | refused {c : Nat} {caller : Caller} {f : Fault} {host : Host} (hcaller : s.callers c = some caller)
      (hstanding : caller.standing = .starting)
      (hstarts : Starts s.host caller.handle (some f) host) :
      Moves s (.advance c) ({ s with host }.put c caller (.unstarted f))
  /-- The handle of a caller does not run. -/
  | turned {c : Nat} {caller : Caller} (hcaller : s.callers c = some caller)
      (hstanding : caller.standing = .submitting)
      (hhandle : s.host.handles[caller.handle]?.bind (·.state.worker?) = none) :
      Moves s (.advance c) (s.put c caller (.dismissed Host.closedAnswer))
  /-- A request is queued. -/
  | accepted {c w : Nat} {caller : Caller} (hcaller : s.callers c = some caller)
      (hstanding : caller.standing = .submitting)
      (hhandle : s.host.handles[caller.handle]?.bind (·.state.worker?) = some w) :
      Moves s (.advance c)
        ({ s with
            host := s.host.accept w caller.kind caller.source
            tickets := s.tickets ++ [Ticket.mk c caller.handle] }.put c caller
          (.waiting s.host.requests.length))
  | served {c r : Nat} {caller : Caller} {x : Result} (hcaller : s.callers c = some caller)
      (hstanding : caller.standing = .waiting r) (hresult : s.host.result? r = some x) :
      Moves s (.receive c) (s.put c caller (.served r x))
  /-- A caller stops waiting. -/
  | left {c r : Nat} {caller : Caller} (m : Manner) (hcaller : s.callers c = some caller)
      (hstanding : caller.standing = .waiting r) :
      Moves s (.giveUp c m)
        ({ s with host := (s.host.giveUp r).2 }.put c caller (.gone r (s.host.giveUp r).1))
  | closed {id : Nat} {host : Host} (hcloses : Closes s.host id host) :
      Moves s (.close id) { s with host }
  | noted (w : Nat) (timeout : Option Seconds) (log : List Log.Record) :
      Moves s (.answerClose w timeout) { s with host := { s.host with log } }
  /-- A worker does something. -/
  | worked {w : Nat} {worker : Worker} {host : Host} (hworker : s.host.workers[w]? = some worker)
      (hdoes : Does (s.braced w) w worker host) : Moves s (.work w) { s with host }
  | opened (gate : String) : Moves s (.openGate gate) { s with host := s.host.openGate gate }

/-- A call begins. -/
theorem moves_look (s : World) (c id : Nat) (kind : RequestKind) (source : Text)
    (timeout : Option Seconds) :
    Moves s (.call c id kind source timeout) (s.look c id kind source timeout) := by
  unfold look
  split
  next handle hnew hhandle =>
    cases hover : (Host.patience handle timeout).any (·.isOver) with
    | true => exact .expired kind source hnew hhandle hover
    | false =>
        have hlooked := Moves.looked kind source hnew hhandle hover
        cases hstate : handle.state <;> simp only [hstate] at hlooked ⊢ <;> exact hlooked
  next => exact .stays _

/-- A caller goes on. -/
theorem moves_advance (s : World) (c : Nat) : Moves s (.advance c) (s.advance c) := by
  unfold advance
  split
  next => exact .stays _
  next caller hcaller =>
    split
    next hstanding =>
      have hstarts := Host.starts_start s.host caller.handle
      split
      next f host hstart =>
        rw [hstart] at hstarts
        exact .refused hcaller hstanding hstarts
      next host hstart =>
        rw [hstart] at hstarts
        exact .ready hcaller hstanding hstarts
    next hstanding =>
      unfold Host.submit
      cases hhandle : s.host.handles[caller.handle]?.bind (·.state.worker?) with
      | none => exact .turned hcaller hstanding hhandle
      | some w => exact .accepted hcaller hstanding hhandle
    next => exact .stays _

/-- **What an action comes to.** -/
theorem moves_step (s : World) (a : Act) : Moves s a (s.step a) := by
  cases a with
  | create config source => exact .created config source
  | share config source =>
      rcases Host.share_cases s.host config source with
        hsame | ⟨c, f, host, shared, hstarts, hshared, heq⟩
      · simp only [step, hsame]
        exact .stays _
      · simp only [step, heq]
        exact .shared config source shared hstarts hshared
  | start id => exact .started (Host.starts_start s.host id)
  | call c id kind source timeout => exact moves_look s c id kind source timeout
  | advance c => exact moves_advance s c
  | receive c =>
      simp only [step, receive]
      split
      next => exact .stays _
      next caller hcaller =>
        split
        next r hstanding =>
          split
          next x hresult => exact .served hcaller hstanding hresult
          next => exact .stays _
        next => exact .stays _
  | giveUp c m =>
      simp only [step, giveUp, Host.leave_eq_giveUp]
      split
      next => exact .stays _
      next caller hcaller =>
        split
        next r hstanding => exact .left m hcaller hstanding
        next => exact .stays _
  | close id => exact .closed (Host.closes_requestClose s.host id)
  | answerClose w timeout =>
      simp only [step, Host.answerClose]
      split
      · exact .stays _
      · exact .noted w timeout _
  | work w =>
      simp only [step, work]
      split
      next host hstep =>
        obtain ⟨worker, hworker, hdoes⟩ := Host.does_of_work? hstep
        exact .worked hworker hdoes
      next => exact .stays _
  | openGate gate => exact .opened gate

/-! ### One caller -/

/-- A caller moves by its own actions only. -/
theorem Moves.callers_of_ne {s s' : World} {a : Act} (hmoves : Moves s a s') {c : Nat}
    (hne : a.caller? ≠ some c) : s'.callers c = s.callers c := by
  have hother : ∀ {x : Nat}, a.caller? = some x → c ≠ x := by
    rintro x hx rfl
    exact hne hx
  cases hmoves with
  | stays | created | shared | started | closed | noted | worked | opened => rfl
  | expired | looked | ready | refused | turned | accepted | served | left =>
      exact put_of_ne (hother rfl) ..

/-- How a caller **goes on** from where it stands. -/
inductive Proceeds (s : World) (c : Nat) (caller : Caller) : World → Prop
  | stays : Proceeds s c caller s
  /-- It has its handle started. -/
  | starts {s' : World} (hstanding : caller.standing = .starting) : Proceeds s c caller s'
  | turned (hstanding : caller.standing = .submitting) :
      Proceeds s c caller (s.put c caller (.dismissed Host.closedAnswer))
  | accepted {w : Nat} (hstanding : caller.standing = .submitting)
      (hhandle : s.host.handles[caller.handle]?.bind (·.state.worker?) = some w) :
      Proceeds s c caller
        ({ s with
            host := s.host.accept w caller.kind caller.source
            tickets := s.tickets ++ [Ticket.mk c caller.handle] }.put c caller
          (.waiting s.host.requests.length))
  | served {r : Nat} {x : Result} (hstanding : caller.standing = .waiting r) :
      Proceeds s c caller (s.put c caller (.served r x))
  | left {r : Nat} (hstanding : caller.standing = .waiting r) :
      Proceeds s c caller
        ({ s with host := (s.host.giveUp r).2 }.put c caller (.gone r (s.host.giveUp r).1))

/-- What an action of a caller that has begun comes to. -/
theorem Moves.proceeds {s s' : World} {a : Act} (hmoves : Moves s a s') {c : Nat} {caller : Caller}
    (ha : a.caller? = some c) (hcaller : s.callers c = some caller) : Proceeds s c caller s' := by
  have hmine : ∀ {d : Nat} {other : Caller}, some d = some c → s.callers d = some other →
      d = c ∧ other = caller := by
    rintro d other heq hother
    obtain rfl := Option.some.inj heq
    exact ⟨rfl, Option.some.inj (hother.symm.trans hcaller)⟩
  cases hmoves with
  | stays => exact .stays
  | created | shared | started | closed | noted | worked | opened => cases ha
  | expired kind source hnew | looked kind source hnew =>
      obtain rfl := Option.some.inj ha
      cases hnew.symm.trans hcaller
  | ready hother hstanding | refused hother hstanding =>
      obtain ⟨rfl, rfl⟩ := hmine ha hother
      exact .starts hstanding
  | turned hother hstanding =>
      obtain ⟨rfl, rfl⟩ := hmine ha hother
      exact .turned hstanding
  | accepted hother hstanding hhandle =>
      obtain ⟨rfl, rfl⟩ := hmine ha hother
      exact .accepted hstanding hhandle
  | served hother hstanding =>
      obtain ⟨rfl, rfl⟩ := hmine ha hother
      exact .served hstanding
  | left m hother hstanding =>
      obtain ⟨rfl, rfl⟩ := hmine ha hother
      exact .left hstanding

end World

end JanetEmbedding
