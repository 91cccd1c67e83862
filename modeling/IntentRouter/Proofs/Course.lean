import IntentRouter.Proofs.Run

/-!
# The course of a step

Where a step takes a request can be told from its state, its handler and the world around: rules
that know nothing of the parts of a step say how far it gets and what goes out on the way. Each
rule either comes to a wait or to an outcome, or goes on from the next state. Exactly one course
is open to a request in the main lane. The step takes it, arms the timer of the wait to which
it comes, or returns the request, and asks for one more step.
-/

namespace IntentRouter

open Effect

/-- What goes out by a command, as long as somebody carries out commands. -/
def Host.carried (h : Host) (o : Output) : List Output := if h.attended then [o] else []

/-- A command that is handed over goes out as its output. -/
theorem Host.outputs_issue (h : Host) {command : Command} {o : Output}
    (ho : (Effect.command command).output? = some o) : outputs [h.issue command] = h.carried o := by
  unfold issue carried
  by_cases hatt : h.attended = true
  · rw [if_pos hatt, if_pos hatt, outputs, List.filterMap_cons_some ho, List.filterMap_nil]
  · rw [if_neg hatt, if_neg hatt]
    rfl

/-- How far a step takes a request with the given listener attached: which listener stays
attached, what becomes of the request and what goes out on the way. -/
inductive Course (around : Surroundings) :
    Option Nat → Request → Option Nat → Request → List Output → Prop where
  /-- The listener is asked to choose the handler. -/
  | ask {listener : Nat} {q : Request} (state : q.state = .received)
    (live : around.listens listener = true) :
    Course around (some listener) q (some listener) { q with state := .awaitingChoice }
      [.asked listener ⟨q.id, q.candidates, q.parameters⟩]
  /-- Nobody listens any more, and the owner of the first candidate becomes the handler. -/
  | pick {listener after : Option Nat} {q q' : Request} {first : Intent} {rest : List Intent}
    {outs : List Output} (state : q.state = .received)
    (nobody : listener.filter around.listens = none) (candidates : q.candidates = first :: rest)
    (onward : Course around none { q with handler := some first.owner, state := .chosen }
      after q' outs) :
    Course around listener q after q' outs
  /-- The handler does not run, and is started. -/
  | launch {listener : Option Nat} {q : Request} {handler : String} (state : q.state = .chosen)
    (handled : q.handler = some handler) (stopped : around.host.isRunning handler = false) :
    Course around listener q listener { q with state := .awaitingStart }
      (around.host.carried (.started handler))
  /-- The handler runs. -/
  | find {listener after : Option Nat} {q q' : Request} {handler : String} {outs : List Output}
    (state : q.state = .chosen) (handled : q.handler = some handler)
    (running : around.host.isRunning handler = true)
    (onward : Course around listener { q with state := .started } after q' outs) :
    Course around listener q after q' outs
  /-- The handler has a channel, and is sent the request. -/
  | send {listener : Option Nat} {q : Request} {handler : String} {channel : Connection}
    (state : q.state = .started) (handled : q.handler = some handler)
    (reached : around.host.connection? handler = some channel) :
    Course around listener q listener { q with state := .awaitingReply }
      (around.host.carried (.sent channel { q with state := .awaitingReply }))
  /-- The handler has no channel, and the request fails. -/
  | lose {listener : Option Nat} {q : Request} {handler : String} (state : q.state = .started)
    (handled : q.handler = some handler) (unreached : around.host.connection? handler = none) :
    Course around listener q listener
      { q with state := .settled, outcome := some (.failed Router.noChannelMessage) } []
  /-- The request is settled already. -/
  | done {listener : Option Nat} {q : Request} (state : q.state = .settled) :
    Course around listener q listener q []

namespace Course

variable {around : Surroundings} {listener after after' : Option Nat} {q q' q'' : Request}
  {outs outs' : List Output}

/-- No more than one course is open to a request. -/
theorem unique (h : Course around listener q after q' outs)
    (k : Course around listener q after' q'' outs') :
    q'' = q' ∧ after' = after ∧ outs' = outs := by
  -- The conditions of the rules exclude each other, so the second course begins with the same rule.
  induction h with
  | ask state live => cases k <;> simp_all
  | pick state nobody candidates onward ih => cases k <;> simp_all
  | launch state handled stopped => cases k <;> simp_all
  | find state handled running onward ih => cases k <;> simp_all
  | send state handled reached => cases k <;> simp_all
  | lose state handled unreached => cases k <;> simp_all
  | done state => cases k <;> simp_all

/-- A request comes to wait for a choice exactly when it has just been received and somebody
listens. -/
theorem awaitingChoice_iff (h : Course around listener q after q' outs) :
    q'.state = .awaitingChoice ↔
      q.state = .received ∧ (listener.filter around.listens).isSome = true := by
  induction h with
  | ask state live => simp [state, Option.filter_some_pos live]
  | pick state nobody candidates onward ih => simp [ih, nobody]
  | launch state => simp [state]
  | find state handled running onward ih => simp [ih, state]
  | send state => simp [state]
  | lose state => simp [state]
  | done state => simp [state]

end Course

namespace Router

variable {r : Router} {around : Surroundings} {settings : Settings} {p q : Request}
  {listener : Option Nat} {pass pass' : Passage} {outs : List Output} {id : RequestId}

/-- One passage goes on as the other along a course. -/
def Passage.Follows (around : Surroundings) (pass pass' : Passage) : Prop :=
  ∃ outs, Course around pass.listener pass.request pass'.listener pass'.request outs ∧
    outputs pass'.effects = outputs pass.effects ++ outs

/-- A passage has gone on, with nothing going out, to where a course goes on. -/
theorem Passage.Follows.after {next : Passage} (h : next.Follows around pass')
    (quiet : outputs next.effects = outputs pass.effects)
    (onward : ∀ {after q outs}, Course around next.listener next.request after q outs →
      Course around pass.listener pass.request after q outs) : pass.Follows around pass' := by
  obtain ⟨outs, hcourse, houts⟩ := h
  exact ⟨outs, onward hcourse, quiet ▸ houts⟩

/-- A request that is settled goes no further. -/
theorem follows_self (hs : pass.request.state = .settled) : pass.Follows around pass :=
  ⟨[], .done hs, (List.append_nil _).symm⟩

/-- A request with a running handler is sent to it, or fails. -/
theorem follows_sending (hq : pass.request.Sound) (hs : pass.request.state = .started) :
    pass.Follows around (sending around settings pass) := by
  obtain ⟨handler, hh⟩ := Option.isSome_iff_exists.mp (hq.handled (by rw [hs]; rfl))
  simp only [sending, hh, Option.getD_some]
  cases hc : around.host.connection? handler with
  | none =>
    have hfail : pass.request.fail noChannelMessage =
        { pass.request with state := .settled, outcome := some (.failed noChannelMessage) } := by
      rw [Request.fail, Request.settle, hq.outcome_none (by rw [hs]; decide)]
      rfl
    simp only [hfail]
    exact ⟨[], .lose hs hh hc, outputs_append ..⟩
  | some channel =>
    have hout : outputs [around.host.issue
          (.deliverRequest channel (pass.request.moveTo .awaitingReply))] =
        around.host.carried (.sent channel (pass.request.moveTo .awaitingReply)) :=
      around.host.outputs_issue rfl
    exact ⟨_, .send hs hh hc, (outputs_append ..).trans (congrArg (outputs pass.effects ++ ·) hout)⟩

/-- A part of the step takes a request that is in its state. -/
theorem whenIn_of_eq {state : RequestState} {part : Passage → Passage}
    (hs : pass.request.state = state) : whenIn state part pass = part pass := if_pos hs

/-- A part of the step leaves a request that is in another state. -/
theorem whenIn_of_ne {state : RequestState} {part : Passage → Passage}
    (hs : pass.request.state ≠ state) : whenIn state part pass = pass := if_neg hs

/-- The parts of a step after the choice of a handler. -/
def pursue (around : Surroundings) (settings : Settings) (pass : Passage) : Passage :=
  whenIn .started (sending around settings) (whenIn .chosen (starting around settings) pass)

/-- A request in neither of their states is left by the later parts of a step. -/
theorem pursue_of_ne (hchosen : pass.request.state ≠ .chosen)
    (hstarted : pass.request.state ≠ .started) : pursue around settings pass = pass := by
  rw [pursue, whenIn_of_ne hchosen, whenIn_of_ne hstarted]

/-- A request with a running handler is left to the last part of a step. -/
theorem pursue_of_started (hs : pass.request.state = .started) :
    pursue around settings pass = sending around settings pass := by
  have hchosen : pass.request.state ≠ .chosen := by
    rw [hs]
    decide
  rw [pursue, whenIn_of_ne hchosen, whenIn_of_eq hs]

/-- A request with a chosen handler goes on until it waits or fails. -/
theorem follows_pursue (hq : pass.request.Sound) (hs : pass.request.state = .chosen) :
    pass.Follows around (pursue around settings pass) := by
  obtain ⟨handler, hh⟩ := Option.isSome_iff_exists.mp (hq.handled (by rw [hs]; rfl))
  rw [pursue, whenIn_of_eq hs, starting]
  by_cases hrun : around.host.isRunning handler = true
  · simp only [hh, if_pos hrun]
    rw [whenIn_of_eq]
    · have hsent : ∀ effects, Passage.Follows around
          ⟨pass.request.moveTo .started, pass.listener, effects⟩
          (sending around settings ⟨pass.request.moveTo .started, pass.listener, effects⟩) :=
        fun _ => follows_sending (hq.moveTo (by rw [hs]; rfl) rfl) rfl
      refine (hsent _).after ?_ fun hcourse => .find hs hh hrun hcourse
      exact (outputs_append ..).trans (List.append_nil _)
    · rfl
  · have hout : outputs [around.host.issue (.start handler)] =
        around.host.carried (.started handler) := around.host.outputs_issue rfl
    simp only [hh, if_neg hrun]
    rw [whenIn_of_ne RequestState.noConfusion]
    exact ⟨_, .launch hs hh (Bool.eq_false_iff.mpr hrun),
      (outputs_append ..).trans (congrArg (outputs pass.effects ++ ·) hout)⟩

/-- A request that has just been received goes on by the choice of a handler. -/
theorem follows_choosing (hq : pass.request.Sound) (hs : pass.request.state = .received) :
    pass.Follows around (pursue around settings (choosing around settings pass)) := by
  have hnone : pass.request.handler = none := hq.unhandled (by rw [hs]; rfl)
  obtain ⟨first, rest, hc⟩ := List.exists_cons_of_ne_nil hq.candidates
  have hmem : first ∈ pass.request.candidates := by rw [hc]; exact List.mem_cons_self
  have hsound := hq.choose hmem hnone (by rw [hs]; decide)
  have hchoose : (pass.request.choose first.owner).moveTo .chosen =
      { pass.request with handler := some first.owner, state := .chosen } := by
    rw [Request.choose, hnone]
    rfl
  -- Whoever cannot be asked leaves the choice to the first candidate.
  have hpick : ∀ effects, outputs effects = outputs pass.effects →
      pass.listener.filter around.listens = none →
      pass.Follows around (pursue around settings
        ⟨(pass.request.choose first.owner).moveTo .chosen, none, effects⟩) := by
    intro effects hquiet hnobody
    refine (follows_pursue hsound rfl).after hquiet fun hcourse => .pick hs hnobody hc ?_
    rwa [hchoose] at hcourse
  simp only [choosing, hnone, Option.isSome_none, Bool.false_eq_true, if_false,
    chooseFirst_eq hnone first rest hc]
  cases hl : pass.listener with
  | none =>
    refine hpick _ ?_ (by rw [hl]; rfl)
    exact (outputs_append ..).trans (List.append_nil _)
  | some listener =>
    by_cases hlive : around.listens listener = true
    · simp only [if_pos hlive]
      rw [pursue_of_ne RequestState.noConfusion RequestState.noConfusion]
      refine ⟨_, ?_, outputs_append ..⟩
      rw [hl]
      exact .ask hs hlive
    · simp only [if_neg hlive]
      refine hpick _ ?_ (by rw [hl]; exact Option.filter_some_neg (Bool.eq_false_iff.mpr hlive))
      exact (outputs_append ..).trans (List.append_nil _)

/-- A step takes a request in the main lane along a course. -/
theorem follows_advance (hq : q.Sound) (hlane : q.state.lane = .main) :
    Passage.Follows around ⟨q, listener, [.about q.id (.processing q.state)]⟩
      (advance around settings listener q) := by
  have hadvance : advance around settings listener q = pursue around settings
      (whenIn .received (choosing around settings)
        ⟨q, listener, [.about q.id (.processing q.state)]⟩) := rfl
  rw [hadvance]
  cases hs : q.state with
  | received =>
    rw [whenIn_of_eq hs]
    exact follows_choosing hq hs
  | chosen =>
    rw [whenIn_of_ne (by simp [hs])]
    exact follows_pursue hq hs
  | started =>
    rw [whenIn_of_ne (by simp [hs]), pursue_of_started hs]
    exact follows_sending hq hs
  | settled =>
    rw [whenIn_of_ne (by simp [hs]), pursue_of_ne (by simp [hs]) (by simp [hs])]
    exact follows_self hs
  | awaitingChoice | awaitingStart | awaitingReply =>
    rw [hs] at hlane
    cases hlane

/-- The step of a router takes the next request along the course open to it. -/
theorem Steps.course (hs : r.Steps around p pass) (h : Coupled r.requests r.lanes) :
    Course around r.listener p pass.listener pass.request (outputs pass.effects) := by
  have hfollows : Passage.Follows around ⟨p, r.listener, [.about p.id (.processing p.state)]⟩
      (advance around r.settings r.listener p) := follows_advance (h.sound p hs.known) hs.ready
  rw [hs.pass_eq] at hfollows
  obtain ⟨outs, hcourse, houts⟩ := hfollows
  rwa [houts]

/-- What a step leaves of the router, and what it does, when it has taken the next request as far
as `q` on a course on which `outs` go out. -/
inductive Leaves (r : Router) (around : Surroundings) (q : Request) (listener : Option Nat)
    (outs : List Output) : Router → List Effect → Prop where
  /-- The request waits at the end of the lane of its stage, and the timer of that stage runs. -/
  | waiting {stage : Stage} {effects : List Effect} (waits : q.state.stage? = some stage)
    (shows : Shows effects outs [.timeout stage q.id (r.settings.timeout stage)] around.wakes []) :
    Leaves r around q listener outs
      { r with
        requests := q.replaceIn r.requests
        lanes := (r.lanes.set .main r.lanes.main.tail).joined stage.lane q.id
        listener := listener } effects
  /-- The request is settled. It is returned, counted, remembered and forgotten. -/
  | returned {effects : List Effect} (settled : q.state = .settled) (nothing : outs = [])
    (shows : Shows effects (around.host.parting q) [] around.wakes [q.id]) :
    Leaves r around q listener outs
      { r with
        requests := r.requests.filter fun p => p.id ≠ q.id
        lanes := r.lanes.set .main r.lanes.main.tail
        listener := listener
        history := r.history.record q.id
        counters := r.counters.record around.host q } effects

/-- A step that ends with a settled request sends it back, and sends nothing else. -/
theorem Leaves.outputs_eq {s : Router} {es : List Effect}
    (h : r.Leaves around q listener outs s es) :
    outputs es = if q.state = .settled then around.host.parting q else outs := by
  cases h with
  | waiting waits shows => rw [if_neg (RequestState.ne_settled_of_stage waits), shows.outputs]
  | returned settled nothing shows => rw [if_pos settled, shows.outputs]

/-- The lanes without the next request in line. -/
theorem Steps.parted_eq (hs : r.Steps around p pass) :
    r.lanes.parted .main p.id = r.lanes.set .main r.lanes.main.tail := by
  have herase : (r.lanes.get .main).erase p.id = r.lanes.main.tail := by
    change r.lanes.main.erase p.id = _
    rw [hs.main_eq, List.erase_cons_head, List.tail_cons]
  rw [Lanes.parted, herase]

/-- A step leaves the router as the course of its request says. -/
theorem Steps.leaves (hs : r.Steps around p pass) (h : Coupled r.requests r.lanes) :
    r.Leaves around pass.request pass.listener (outputs pass.effects)
      (r.process around).state (r.process around).effects := by
  have hway := hs.onWay h
  rcases hs.waits_or_settled h with ⟨stage, hw⟩ | hq
  · have harmed : armed pass.effects = [.timeout stage p.id (r.settings.timeout stage)] := by
      rw [hway.armed, hw]
      rfl
    have hshows : Shows pass.effects (outputs pass.effects)
        [.timeout stage p.id (r.settings.timeout stage)] [] [] :=
      ⟨rfl, harmed, hway.posted, hway.ended⟩
    rw [process_of_waits hs h hw, hs.parted_eq, ← hway.id_eq]
    rw [← hway.id_eq] at hshows
    exact .waiting hw (hshows.before_wake around)
  · have hsilent := hway.silent (by rw [hq]; rfl)
    have htaken := (around.host.takeBack_shows pass.request).after_silent hsilent
    rw [process_of_settled hs h hq, hs.parted_eq, ← hway.id_eq]
    exact .returned hq hsilent.outputs (htaken.before_wake around)

end Router

namespace Run

/-- After any moves, a step with somebody in the main lane takes the next request along the only
course open to it, and leaves the router as that course says. -/
theorem step_takes_course (run : Run) (n : Nat) (around : Surroundings) {id : RequestId}
    (hnext : (run.router n).lanes.main.head? = some id) :
    let r := run.router n
    let t := r.process around
    ∃ p ∈ r.requests, p.id = id ∧ ∃ q listener outs,
      Course around r.listener p listener q outs ∧
      (∀ q' listener' outs', Course around r.listener p listener' q' outs' →
        q' = q ∧ listener' = listener ∧ outs' = outs) ∧
      (q.state = .awaitingChoice ↔
        p.state = .received ∧ (r.perform around .hasListener).value = .flag true) ∧
      r.Leaves around q listener outs t.state t.effects := by
  intro r t
  have hcoupled : Coupled r.requests r.lanes := run.coupled n
  rcases Router.idle_or_steps hcoupled around with hmain | ⟨p, pass, hs⟩
  · rw [hmain] at hnext
    cases hnext
  · have hcourse := hs.course hcoupled
    have hid : p.id = id := Option.some.inj (hs.next.symm.trans hnext)
    have hlistens : (r.perform around .hasListener).value = .flag true ↔
        (r.listener.filter around.listens).isSome = true := by
      change Answer.flag _ = Answer.flag true ↔ _
      rw [Answer.flag.injEq]
      rfl
    refine ⟨p, hs.known, hid, pass.request, pass.listener, _, hcourse,
      fun q' listener' outs' => hcourse.unique, ?_, hs.leaves hcoupled⟩
    rw [hcourse.awaitingChoice_iff, hlistens]

/-- With nobody listening, one step takes the editor's request from its admission to the printer. -/
theorem step_takes_course_errand :
    (errand.router 3).lanes.main.head? = some (.ofNat 1) ∧
      let sent := { printing with handler := some "printer", state := .awaitingReply }
      (errand.router 3).Leaves office sent none [.sent ⟨"printer", "p"⟩ sent]
        ((errand.router 3).process office).state ((errand.router 3).process office).effects := by
  have hnext : (errand.router 3).lanes.main.head? = some (.ofNat 1) := rfl
  refine ⟨hnext, ?_⟩
  obtain ⟨p, hp, -, q, listener, outs, -, honly, -, hleaves⟩ :=
    errand.step_takes_course 3 office hnext
  have hprinting : p = printing := List.mem_singleton.mp hp
  subst hprinting
  obtain ⟨rfl, rfl, rfl⟩ := honly _ _ _ (.pick rfl rfl rfl (.find rfl rfl rfl (.send rfl rfl rfl)))
  exact hleaves

end Run

end IntentRouter
