import IntentRouter.Proofs.Sweep

/-!
# Released in the order of their starts

A request enters the wait for the start of its handler with a step, which has the handler started.
Those who wait stand in the lane in the order in which they have entered it, whoever has left it
since. When an application starts, exactly those who wait for it join the main lane, in this order,
and the steps that follow send them on or return them in this order as well.
-/

namespace IntentRouter

open Effect

/-! ## The order of the starts -/

/-- A request that comes to wait for a start has its handler started. -/
theorem Course.started {around : Surroundings} {listener after : Option Nat} {q q' : Request}
    {outs : List Output} (h : Course around listener q after q' outs)
    (hw : q'.state = .awaitingStart) :
    ∃ handler, q'.handler = some handler ∧ outs = around.host.carried (.started handler) := by
  induction h with
  | launch state handled => exact ⟨_, handled, rfl⟩
  | pick state nobody candidates onward ih => exact ih hw
  | find state handled running onward ih => exact ih hw
  | done state =>
    rw [state] at hw
    cases hw
  | _ => cases hw

/-- Whoever leaves a lane leaves the others in their order. -/
theorem Lanes.parted_sublist {α : Type} [DecidableEq α] (l : Lanes α) (lane other : Lane) (x : α) :
    ((l.parted lane x).get other).Sublist (l.get other) := by
  rw [get_parted]
  by_cases h : lane = other
  · rw [if_pos h, h]
    exact List.erase_sublist
  · rw [if_neg h]

namespace Router

variable {r : Router} {around : Surroundings} {p : Request} {pass : Passage} {call : RouterCall}
  {stage : Stage} {id : RequestId}

/-- A report brings nobody to wait for a start. -/
theorem starting_report (around : Surroundings) (h : Coupled r.requests r.lanes)
    (hcall : call.wait? = some (stage, id)) :
    (r.perform around call).state.lanes.starting.Sublist r.lanes.starting := by
  by_cases hw : r.Waits stage id
  · obtain ⟨p, hp, rfl, hstage⟩ := hw
    obtain ⟨es, -, hperform⟩ := perform_of_waits around h hp hstage hcall
    rw [hperform]
    exact r.lanes.parted_sublist p.state.lane .starting p.id
  · obtain ⟨note, -, hperform⟩ := perform_of_not_waits around h hw hcall
    rw [hperform]

/-- A step brings nobody to wait for a start but its request, who waits behind the others. -/
theorem starting_process (around : Surroundings) (h : Coupled r.requests r.lanes) :
    (r.process around).state.lanes.starting.Sublist
      (r.lanes.starting ++ (r.lanes.main.head?.filter fun id =>
        id ∈ (r.process around).state.lanes.starting).toList) := by
  rcases idle_or_steps h around with hmain | ⟨p, pass, hs⟩
  · rw [process_of_idle hmain]
    exact List.sublist_append_left _ _
  · rcases hs.waits_or_settled h with ⟨stage, hw⟩ | hq
    · rw [process_of_waits hs h hw, hs.next]
      cases stage with
      | start =>
        have hmem : p.id ∈ r.lanes.starting ++ [p.id] := List.mem_append_right _ List.mem_cons_self
        have hstarting : ((r.lanes.parted .main p.id).joined Stage.start.lane p.id).starting =
            r.lanes.starting ++ [p.id] := rfl
        have hself : (some p.id).filter (fun id => decide (id ∈ r.lanes.starting ++ [p.id])) =
            some p.id := Option.filter_some_pos (decide_eq_true hmem)
        simp only [hstarting, hself]
        exact List.Sublist.refl _
      | choice | reply => exact List.sublist_append_left _ _
    · rw [process_of_settled hs h hq]
      exact List.sublist_append_left _ _

/-- A submission brings nobody to wait for a start. -/
theorem starting_submit (around : Surroundings) (h : Coupled r.requests r.lanes) (id : RequestId)
    (now : Timestamp) (s : Submission)
    (fresh : ∀ q, (r.submit around id now s).value.toOption = some q →
      ∀ p ∈ r.requests, p.id ≠ q.id) :
    (r.submit around id now s).state.lanes.starting.Sublist r.lanes.starting := by
  rw [value_submit] at fresh
  cases hassess : (r.assess around.host s).1 with
  | error reason =>
    rw [(submit_refuses around id now hassess).state]
  | ok chosen =>
    rw [hassess] at fresh
    have habsent : ∀ lane, id ∉ r.lanes.get lane := h.absent_of_fresh (fresh _ rfl)
    rw [(submit_admits around now habsent hassess).state]

end Router

namespace Move

variable {r : Router}

/-- The request that a move brings to wait for the start of its handler, if it is a step that
does. -/
def launched? (m : Move) (r : Router) : Option RequestId :=
  (m.taken? r).filter fun id => id ∈ (m.turn r).state.lanes.starting

/-- After a move those who wait for a start have waited before, in the same order, but for one whom
the move has brought to wait behind them. -/
theorem starting_turn (m : Move) (h : Coupled r.requests r.lanes)
    (fresh : ∀ q, m.admitted? r = some q → ∀ p ∈ r.requests, p.id ≠ q.id) :
    (m.turn r).state.lanes.starting.Sublist (r.lanes.starting ++ (m.launched? r).toList) := by
  obtain ⟨around, ask⟩ := m
  have hleft : ∀ {l : List RequestId} {o : Option RequestId}, l.Sublist r.lanes.starting →
      l.Sublist (r.lanes.starting ++ o.toList) := fun hl => hl.trans (List.sublist_append_left _ _)
  cases ask with
  | catalog call => exact hleft (List.Sublist.refl _)
  | router call =>
    cases call with
    | submit id now s => exact hleft (Router.starting_submit around h id now s fresh)
    | resolve id selected | reject id | reply application id isError payload =>
      exact hleft (Router.starting_report around h rfl)
    | announceStart application =>
      have hturn : r.announceStart around application = _ := Router.announceStart_eq h application
      refine hleft ?_
      change (r.announceStart around application).state.lanes.starting.Sublist _
      rw [hturn]
      exact List.filter_sublist
    | process => exact Router.starting_process around h
    | handle event =>
      cases event with
      | process => exact Router.starting_process around h
      | timeout stage id millis => exact hleft (Router.starting_report around h rfl)
    | setTimeout stage duration =>
      refine hleft ?_
      simp only [turn, Router.perform, Router.setTimeout]
      cases r.settings.setTimeout stage duration <;> exact List.Sublist.refl _
    | _ => exact hleft (List.Sublist.refl _)

end Move

namespace Run

variable {run : Run} {n k l : Nat} {m : Move} {id : RequestId}

/-- The request that a move brings to wait for the start of its handler, if it is a step that
does. -/
def launched? (run : Run) (k : Nat) : Option RequestId :=
  run.moves[k]?.bind fun m => m.launched? (run.router k)

/-- The requests that so many moves have brought to wait for a start, in order. -/
def launches (run : Run) (n : Nat) : List RequestId := (List.range n).filterMap run.launched?

/-- Those who wait for a start stand in the order in which they have come to wait. -/
theorem starting_sublist (run : Run) (n : Nat) :
    (run.router n).lanes.starting.Sublist (run.launches n) := by
  induction n with
  | zero =>
    rw [router_zero, start_eq_fresh]
    exact List.Sublist.refl _
  | succ n ih =>
    have hsucc : run.launches (n + 1) = run.launches n ++ (run.launched? n).toList := by
      rw [launches, List.range_succ, List.filterMap_append, launches, List.filterMap_cons]
      cases run.launched? n <;> rfl
    rw [hsucc]
    cases hm : run.moves[n]? with
    | none =>
      rw [router_succ_of_none hm]
      exact ih.trans (List.sublist_append_left _ _)
    | some m =>
      have hturn := m.starting_turn (run.coupled n) fun q => fresh_admitted (run.traced n) hm
      have hlaunched : run.launched? n = m.launched? (run.router n) := by rw [launched?, hm]; rfl
      rw [router_succ hm, hlaunched]
      exact hturn.trans (ih.append_right _)

/-- What a move has done that has brought a request to wait for a start. -/
structure Launches (run : Run) (k : Nat) (id : RequestId) (q : Request) : Prop where
  /-- The request is in flight, and waits for the start. -/
  waits : q ∈ (run.router (k + 1)).requests ∧ q.id = id ∧ q.state = .awaitingStart
  /-- It stood in the main lane before. -/
  taken : run.taken? k = some id
  /-- What has gone out is the order to start its handler, if orders are carried out. -/
  outs : ∃ m handler, run.moves[k]? = some m ∧ q.handler = some handler ∧
    Effect.outputs (run.effects k) = m.around.host.carried (.started handler)

/-- A move brings a request to wait for a start by a step that has its handler started. -/
theorem exists_launches (h : run.launched? k = some id) : ∃ q, run.Launches k id q := by
  obtain ⟨m, hm, hlaunched⟩ := Option.bind_eq_some_iff.mp h
  obtain ⟨htaken, hstands⟩ := Option.filter_eq_some_iff.mp hlaunched
  have hstarting : id ∈ (run.router (k + 1)).lanes.get .starting := by
    rw [router_succ hm]
    exact of_decide_eq_true hstands
  rcases m.step_or_not (run.router k) with ⟨hstate, heffects, hnext, -⟩ | ⟨hnone, -⟩
  · rcases Router.idle_or_steps (run.coupled k) m.around with hmain | ⟨p, pass, hs⟩
    · rw [hnext, hmain] at htaken
      cases htaken
    · have hid : p.id = id := by
        rw [hnext, hs.next] at htaken
        exact Option.some.inj htaken
      have hafter : run.router (k + 1) = ((run.router k).process m.around).state :=
        (router_succ hm).trans hstate
      have hcoupled := run.coupled (k + 1)
      rcases hs.waits_or_settled (run.coupled k) with ⟨stage, hw⟩ | hq
      · have hname : pass.request.id = id := (hs.onWay (run.coupled k)).id_eq.trans hid
        have hmem : pass.request ∈ (run.router (k + 1)).requests := by
          rw [hafter, Router.process_of_waits hs (run.coupled k) hw]
          exact Request.mem_replaceIn_self hs.known (hname.trans hid.symm)
        have hstart : pass.request.state = .awaitingStart := by
          rw [← RequestState.lane_eq_starting, ← hcoupled.mem_lane_iff hmem, hname]
          exact hstarting
        obtain ⟨handler, hhandler, houts⟩ := (hs.course (run.coupled k)).started hstart
        refine ⟨pass.request, ⟨hmem, hname, hstart⟩, (taken?_eq hm).trans htaken, m, handler, hm,
          hhandler, ?_⟩
        rw [effects_eq hm, heffects, (hs.leaves (run.coupled k)).outputs_eq, hstart, ← houts]
        rfl
      · -- Nobody who has been returned stands in a lane.
        rw [hafter, Router.process_of_settled hs (run.coupled k) hq, ← hid] at hstarting
        exact absurd hstarting (hs.absent (run.coupled k) .starting)
  · rw [hnone] at htaken
    cases htaken

/-- A request comes to wait for a start once. -/
theorem launched?_unique (hk : run.launched? k = some id) (hl : run.launched? l = some id) :
    k = l := by
  have hnot : ∀ {k l : Nat}, run.launched? k = some id → run.launched? l = some id → ¬ k < l := by
    intro k l hk hl hlt
    obtain ⟨p, hp⟩ := exists_launches hk
    obtain ⟨q, hq⟩ := exists_launches hl
    obtain ⟨hmem, rfl, hstate⟩ := hp.waits
    obtain ⟨hmem', hid, hstate'⟩ := hq.waits
    obtain ⟨i, hi, q₀, hadmitted, hbecomes⟩ := run.traced (k + 1) p hmem
    have hpath := path_of_le hadmitted hi hlt
    have hback := path_of_le hadmitted (by omega : i < l) (Nat.le_succ l)
    have hname : q₀.id = p.id := hbecomes.alike.id.symm
    rw [hname] at hpath hback
    have hagain : run.phase p.id (l + 1) = run.phase p.id (k + 1) := by
      rw [phase_eq_inFlight hmem, ← hid, phase_eq_inFlight hmem', hstate, hstate']
    -- So the request has waited for the start when a step was made with it, which it cannot.
    obtain ⟨m, p', pass, -, hs, hid', -⟩ := steps_of_taken hq.taken
    have hwaits := phase_eq_inFlight hs.known
    rw [hid', ← Phase.Path.antisymm hpath (hagain ▸ hback), phase_eq_inFlight hmem,
      hstate] at hwaits
    have hready := hs.ready
    rw [← Phase.inFlight.inj hwaits] at hready
    cases hready
  have hle := hnot hk hl
  have hge := hnot hl hk
  omega

/-- Nobody is brought to wait for a start twice. -/
theorem nodup_launches (run : Run) (n : Nat) : (run.launches n).Nodup := by
  refine List.nodup_range.filterMap fun k l id hk hl => ?_
  exact launched?_unique (Option.mem_def.mp hk) (Option.mem_def.mp hl)

end Run

/-! ## What becomes of those who are released -/

namespace Router

variable {r : Router} {around : Surroundings} {p : Request} {pass : Passage} {application : String}

/-- A step with a request whose handler is reached sends it to the handler. -/
theorem Steps.sent {channel : Connection} (hs : r.Steps around p pass)
    (h : Coupled r.requests r.lanes) (hstate : p.state = .started)
    (hhandler : p.handler = some application)
    (hchannel : around.host.connection? application = some channel) :
    pass.request = { p with state := .awaitingReply } ∧
      outputs (r.process around).effects = around.host.carried (.sent channel pass.request) := by
  have hcourse := hs.course h
  obtain ⟨hrequest, -, houts⟩ := hcourse.unique (.send hstate hhandler hchannel)
  have hne : pass.request.state ≠ .settled := by
    rw [← hrequest]
    exact nofun
  refine ⟨hrequest.symm, ?_⟩
  rw [(hs.leaves h).outputs_eq, if_neg hne, ← houts, hrequest]

/-- A step with a request whose handler has no channel returns it as a failure. -/
theorem Steps.lost (hs : r.Steps around p pass) (h : Coupled r.requests r.lanes)
    (hstate : p.state = .started) (hhandler : p.handler = some application)
    (hnone : around.host.connection? application = none) :
    r.returned? around = some (around.host.returnOf
      { p with state := .settled, outcome := some (.failed noChannelMessage) }) := by
  obtain ⟨hrequest, -, -⟩ := (hs.course h).unique (.lose hstate hhandler hnone)
  rw [hs.returned?_eq h, ← hrequest, if_pos rfl]

end Router

namespace Sweeps

variable {r s : Router} {k : Nat} {rounds : List Round} {ids : List RequestId}
  {application : String}

/-- Requests whose handler runs and is reached all the time are sent to it one after another. -/
theorem deliveries (h : Sweeps r k rounds s) (hd : r.Due k)
    (ready : ∀ q ∈ r.requests, q.id ∈ ids → q.state = .started ∧ q.handler = some application)
    (reached : ∀ x ∈ rounds, x.around.host.attended = true ∧
      (x.around.host.connection? application).isSome = true) :
    ((rounds.flatMap Round.outs).filterMap Output.delivers?).filter (· ∈ ids) =
      r.lanes.main.filter (· ∈ ids) := by
  rw [List.filterMap_flatMap, ← List.map_id (r.lanes.main.filter _)]
  refine h.filter_flatMap_eq_map hd (fun x hx id hid => ?_) fun x hx p pass hs hid => ?_
  · obtain ⟨o, ho, hdelivers⟩ := List.mem_filterMap.mp hid
    exact Round.taken?_of_mem_outs (h.coupled_of_mem hd hx) ho (.inl hdelivers)
  · obtain ⟨hstate, hhandler⟩ := ready p (h.of_steps hd hx hs).1 hid
    obtain ⟨hatt, hreached⟩ := reached x hx
    obtain ⟨channel, hchannel⟩ := Option.isSome_iff_exists.mp hreached
    obtain ⟨hrequest, houts⟩ := hs.sent (h.coupled_of_mem hd hx) hstate hhandler hchannel
    rw [Round.outs, Round.turn, houts, Host.carried, if_pos hatt, hrequest]
    rfl

/-- Requests whose handler runs and is reached wait for a reply in the end. -/
theorem mem_of_reached {q : Request} (h : Sweeps r k rounds s) (hd : r.Due k) (hq : q ∈ r.requests)
    (hstate : q.state = .started) (hhandler : q.handler = some application)
    (reached : ∀ x ∈ rounds, (x.around.host.connection? application).isSome = true) :
    { q with state := .awaitingReply } ∈ s.requests := by
  have hmain : q.id ∈ r.lanes.get .main := (hd.coupled.mem_lane_iff hq).mpr (by rw [hstate]; rfl)
  obtain ⟨before, x, after, pass, rfl, hs, -⟩ := h.exists_round hd hq hmain
  have hx : x ∈ before ++ x :: after := List.mem_append_right _ List.mem_cons_self
  obtain ⟨channel, hchannel⟩ := Option.isSome_iff_exists.mp (reached x hx)
  obtain ⟨hrequest, -⟩ := hs.sent (h.coupled_of_mem hd hx) hstate hhandler hchannel
  have hw : pass.request.state.stage? = some .reply := by
    rw [hrequest]
    rfl
  rw [← hrequest]
  exact h.mem_of_waits hd hs hw

/-- Requests whose handler runs and never has a channel are returned as failures one after
another. -/
theorem failures (h : Sweeps r k rounds s) (hd : r.Due k)
    (ready : ∀ q ∈ r.requests, q.id ∈ ids → q.state = .started ∧ q.handler = some application)
    (unreached : ∀ x ∈ rounds, x.around.host.connection? application = none) :
    ((rounds.filterMap Round.returned?).map fun y => (y.request.id, y.request.outcome)).filter
        (fun z => z.1 ∈ ids) =
      (r.lanes.main.filter (· ∈ ids)).map fun id =>
        (id, some (.failed Router.noChannelMessage)) := by
  rw [List.filterMap_eq_flatMap_toList, List.map_flatMap]
  refine h.filter_flatMap_eq_map hd (fun x hx z hz => ?_) fun x hx p pass hs hid => ?_
  · obtain ⟨y, hy, rfl⟩ := List.mem_map.mp hz
    exact Round.taken?_of_returned? (h.coupled_of_mem hd hx) (Option.mem_toList.mp hy)
  · obtain ⟨hstate, hhandler⟩ := ready p (h.of_steps hd hx hs).1 hid
    rw [Round.returned?, hs.lost (h.coupled_of_mem hd hx) hstate hhandler (unreached x hx)]
    rfl

end Sweeps

namespace Router

variable {r : Router} {around : Surroundings} {application : String}

/-- As many are released as there are requests in flight that wait for the application. -/
theorem length_awaiting (h : Coupled r.requests r.lanes) (application : String) :
    (r.awaiting application).length =
      r.requests.countP fun q => q.state = .awaitingStart ∧ q.handler = some application := by
  have honce : (r.awaiting application).Nodup := (h.once .starting).filter _
  have honce' : ((r.requests.filter fun q =>
      q.state = .awaitingStart ∧ q.handler = some application).map Request.id).Nodup :=
    h.names.sublist (List.filter_sublist.map Request.id)
  have hperm := (List.perm_ext_iff_of_nodup honce honce').mpr fun id => by
    constructor
    · intro hid
      obtain ⟨q, hq, rfl⟩ := exists_of_mem_awaiting h hid
      exact List.mem_map_of_mem (List.mem_filter.mpr
        ⟨hq, decide_eq_true ((mem_awaiting h hq application).mp hid)⟩)
    · intro hid
      obtain ⟨q, hmem, rfl⟩ := List.mem_map.mp hid
      obtain ⟨hq, hwaits⟩ := List.mem_filter.mp hmem
      exact (mem_awaiting h hq application).mpr (of_decide_eq_true hwaits)
  rw [hperm.length_eq, List.length_map, List.countP_eq_length_filter]

/-- What the start of an application does, said of those who wait for it. -/
theorem perform_announceStart (around : Surroundings) (h : Coupled r.requests r.lanes)
    (application : String) :
    (r.perform around (.announceStart application)).value =
        .count (r.awaiting application).length ∧
      (r.perform around (.announceStart application)).state = { r with
        requests := r.requests.map fun q =>
          if q.state = .awaitingStart ∧ q.handler = some application then
            { q with state := .started }
          else q
        lanes := { r.lanes with
          main := r.lanes.main ++ r.awaiting application
          starting := r.lanes.starting.filter (· ∉ r.awaiting application) } } ∧
      Shows (r.perform around (.announceStart application)).effects [] []
        (if r.awaiting application = [] then [] else around.wakes) [] := by
  have hkept : (r.lanes.starting.filter fun id => ! r.handledBy application id) =
      r.lanes.starting.filter (· ∉ r.awaiting application) := by
    refine List.filter_congr fun id hid => ?_
    have hiff : id ∈ r.awaiting application ↔ r.handledBy application id = true := by
      rw [awaiting, List.mem_filter]
      exact and_iff_right hid
    by_cases hhandled : r.handledBy application id = true
    · rw [hhandled, decide_eq_false (not_not.mpr (hiff.mpr hhandled))]
      rfl
    · rw [Bool.eq_false_iff.mpr hhandled, decide_eq_true (mt hiff.mp hhandled)]
      rfl
  have hperform : r.perform around (.announceStart application) =
      (r.announceStart around application).map .count := rfl
  rw [hperform, announceStart_eq h, hkept]
  have hwake : Shows (if r.awaiting application = [] then [] else [wake around]) [] []
      (if r.awaiting application = [] then [] else around.wakes) [] := by
    by_cases hempty : r.awaiting application = []
    · rw [if_pos hempty, if_pos hempty]
      exact Silent.nil
    · rw [if_neg hempty, if_neg hempty]
      exact wake_shows around
  exact ⟨rfl, rfl, hwake.after_silent (silent_released application _)⟩

/-- The handler of those who are released runs. -/
theorem ready_of_released (h : Coupled r.requests r.lanes) {q : Request}
    (hq : q ∈ (r.perform around (.announceStart application)).state.requests)
    (hid : q.id ∈ r.awaiting application) :
    q.state = .started ∧ q.handler = some application := by
  rw [(perform_announceStart around h application).2.1] at hq
  obtain ⟨p, hp, rfl⟩ := List.mem_map.mp hq
  by_cases hwaits : p.state = .awaitingStart ∧ p.handler = some application
  · rw [if_pos hwaits]
    exact ⟨rfl, hwaits.2⟩
  · rw [if_neg hwaits] at hid
    exact absurd ((mem_awaiting h hp application).mp hid) hwaits

/-- Nobody who is released has stood in the main lane before. -/
theorem filter_main_released (h : Coupled r.requests r.lanes) (application : String) :
    (r.lanes.main ++ r.awaiting application).filter (· ∈ r.awaiting application) =
      r.awaiting application := by
  have hmain : r.lanes.main.filter (· ∈ r.awaiting application) = [] := by
    refine List.filter_eq_nil_iff.mpr fun id hid hin => ?_
    have hstarting : id ∈ r.lanes.get .starting := (List.mem_filter.mp (of_decide_eq_true hin)).1
    have hboth : id ∈ r.lanes.get .main := hid
    cases h.lane_unique hboth hstarting
  rw [List.filter_append, hmain, List.nil_append, List.filter_eq_self]
  exact fun id hid => decide_eq_true hid

end Router

namespace Run

/-- After any moves, the start of an application is answered with the number of requests in flight
that wait for it. It moves exactly these to the end of the main lane, in the order in which steps
have had it started for them, with the record that their handler runs. Every other request, name
and order stays, and a step is asked for exactly if anyone has been moved. When the posted steps
have then been made until none is left, those who have been moved have been sent to the application
in this order, one delivery each, if it is reached all the time and commands are carried out. They
have been returned as failures in this order, if it never has a channel. -/
theorem start_releases (run : Run) (n : Nat) (around : Surroundings) (application : String) :
    let r := run.router n
    let t := r.perform around (.announceStart application)
    let released := r.awaiting application
    (∀ id, id ∈ released ↔
        ∃ q ∈ r.requests, q.id = id ∧ q.state = .awaitingStart ∧ q.handler = some application) ∧
      (released.Sublist (run.launches n) ∧ (run.launches n).Nodup ∧
        ∀ k id, run.launched? k = some id → ∃ q, run.Launches k id q) ∧
      t.value = .count
        (r.requests.countP fun q => q.state = .awaitingStart ∧ q.handler = some application) ∧
      t.state = { r with
        requests := r.requests.map fun q =>
          if q.state = .awaitingStart ∧ q.handler = some application then
            { q with state := .started }
          else q
        lanes := { r.lanes with
          main := r.lanes.main ++ released
          starting := r.lanes.starting.filter (· ∉ released) } } ∧
      Shows t.effects [] [] (if released = [] then [] else around.wakes) [] ∧
      t.state.Sweepable ∧
      ∀ k rounds s, 0 < k → Sweeps t.state k rounds s →
        ((∀ x ∈ rounds, (x.around.host.connection? application).isSome = true) →
          (∀ q ∈ r.requests, q.id ∈ released → { q with state := .awaitingReply } ∈ s.requests) ∧
          ((∀ x ∈ rounds, x.around.host.attended = true) →
            ((rounds.flatMap Round.outs).filterMap Output.delivers?).filter (· ∈ released) =
              released)) ∧
        ((∀ x ∈ rounds, x.around.host.connection? application = none) →
          ((rounds.filterMap Round.returned?).map fun y => (y.request.id, y.request.outcome)).filter
              (fun z => z.1 ∈ released) =
            released.map fun id =>
              (id, some (.failed "No IPC channel to reach target application."))) := by
  intro r t released
  have hcoupled : Coupled r.requests r.lanes := run.coupled n
  have hchanges : r.Changes around t.state t.effects none none :=
    Router.changes_announceStart hcoupled application
  have hafter := hchanges.1
  have hwaits := fun q (hq : q ∈ r.requests) => Router.mem_awaiting hcoupled hq application
  obtain ⟨hvalue, hstate, hshows⟩ := Router.perform_announceStart around hcoupled application
  have hline : t.state.lanes.main.filter (· ∈ released) = released := by
    rw [hstate]
    exact Router.filter_main_released hcoupled application
  have hmoved : ∀ q ∈ r.requests, q.id ∈ released →
      { q with state := .started } ∈ t.state.requests := by
    intro q hq hid
    rw [hstate]
    exact List.mem_map.mpr ⟨q, hq, if_pos ((hwaits q hq).mp hid)⟩
  have hready : ∀ q ∈ t.state.requests, q.id ∈ released →
      q.state = .started ∧ q.handler = some application := fun _ =>
    Router.ready_of_released hcoupled
  refine ⟨fun id => ⟨fun hid => ?_, ?_⟩, ⟨?_, run.nodup_launches n, fun k id => exists_launches⟩,
    ?_, hstate, hshows, Router.sweepable hafter, fun k rounds s hk hsweeps =>
      ⟨fun hreached => ⟨fun q hq hid => ?_, fun hatt => ?_⟩, fun hnone => ?_⟩⟩
  · obtain ⟨q, hq, rfl⟩ := Router.exists_of_mem_awaiting hcoupled hid
    exact ⟨q, hq, rfl, (hwaits q hq).mp hid⟩
  · rintro ⟨q, hq, rfl, hwait⟩
    exact (hwaits q hq).mpr hwait
  · exact List.filter_sublist.trans (run.starting_sublist n)
  · exact hvalue.trans (congrArg Answer.count (Router.length_awaiting hcoupled application))
  · have hwait := (hwaits q hq).mp hid
    have hend := hsweeps.mem_of_reached ⟨hafter, fun _ => hk⟩ (hmoved q hq hid) rfl hwait.2 hreached
    exact hend
  · have hall := hsweeps.deliveries ⟨hafter, fun _ => hk⟩ hready
      fun x hx => ⟨hatt x hx, hreached x hx⟩
    rw [hall, hline]
  · have hall := hsweeps.failures ⟨hafter, fun _ => hk⟩ hready hnone
    rw [hall, hline]
    rfl

/-- Surroundings in which the printer does not run. -/
def night : Surroundings :=
  { office with host := Host.fresh.run "editor" (some ⟨"editor", "e"⟩) }

/-- The two requests of a rush are admitted while the printer does not run, and have it started. -/
def vigilMoves : List Move := rushMoves.map fun m => { m with around := night }

/-- The third and the fourth of these moves admit a request each. -/
theorem vigil_admission? {i : Nat} {q : Request}
    (h : (Router.fresh .standard).admission? vigilMoves i = some q) :
    i = 2 ∧ q.id = .ofNat 1 ∨ i = 3 ∧ q.id = .ofNat 2 := by
  match i with
  | 0 | 1 | 4 | 5 => cases h
  | 2 => cases h; exact .inl ⟨rfl, rfl⟩
  | 3 => cases h; exact .inr ⟨rfl, rfl⟩
  | _ + 6 => cases h

/-- A run after which two requests wait for the same application to start. -/
def vigil : Run where
  settings := .standard
  start := .fresh .standard
  created := create_standard
  moves := vigilMoves
  fresh := fun _ _ _ _ => eq_of_two (by decide) fun _ _ => vigil_admission?

/-- When the printer has started at last, both requests are sent to it, the earlier one first. -/
theorem start_releases_vigil :
    let t := (vigil.router 6).perform office (.announceStart "printer")
    (vigil.router 6).awaiting "printer" = [.ofNat 1, .ofNat 2] ∧ t.value = .count 2 ∧
      ∃ rounds s, Sweeps t.state 1 rounds s ∧
        ((rounds.flatMap Round.outs).filterMap Output.delivers?).filter
          (· ∈ [.ofNat 1, .ofNat 2]) = [.ofNat 1, .ofNat 2] := by
  intro t
  have hreleased : (vigil.router 6).awaiting "printer" = [.ofNat 1, .ofNat 2] := rfl
  obtain ⟨-, -, hvalue, -, -, hmade, hall⟩ := vigil.start_releases 6 office "printer"
  refine ⟨hreleased, hvalue, ?_⟩
  obtain ⟨rounds, s, hsweeps, hworld⟩ := hmade 1 [office, office, office] Nat.one_pos
    (by simp [office]) rfl
  have hoffice : ∀ x ∈ rounds, x.around = office := by
    intro x hx
    have hmem : x.around ∈ rounds.map Round.around := List.mem_map_of_mem hx
    rw [hworld] at hmem
    simpa using hmem
  have hsent := ((hall 1 rounds s Nat.one_pos hsweeps).1 fun x hx => by rw [hoffice x hx]; rfl).2
    fun x hx => by rw [hoffice x hx]; rfl
  rw [hreleased] at hsent
  exact ⟨rounds, s, hsweeps, hsent⟩

end Run

end IntentRouter
