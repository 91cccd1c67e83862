import IntentRouter.Proofs.Agenda
import IntentRouter.Proofs.Visit

/-!
# Making steps until none is posted

Each step that finds somebody in the main lane posts another one. So once a step is posted, making
the steps that are posted takes everyone through a step who stands in the main lane, one after
another, and comes to an end when the lane is empty. What becomes of each of them can be told
beforehand, and so can what becomes of the router as a whole.
-/

namespace IntentRouter

open Effect

theorem Counters.plus_assoc (m k l : Counters) : (m.plus k).plus l = m.plus (k.plus l) := by
  simp only [plus, Nat.add_assoc]

/-- What can become of a router and its agenda, with the effects, when the steps that are posted
are made, and the steps that these post, until none is left. No timer runs out meanwhile, and the
surroundings stay as they are. -/
inductive Pumps (around : Surroundings) :
    Router → Agenda → Router → Agenda → List Effect → Prop where
  /-- No step is posted, or posted events are not taken. -/
  | done {r : Router} {a : Agenda} (idle : around.inboxOpen = true → .process ∉ a.posted) :
    Pumps around r a r a []
  /-- A step is made. -/
  | step {r s : Router} {a b : Agenda} {es : List Effect} (isOpen : around.inboxOpen = true)
    (isPosted : .process ∈ a.posted)
    (rest : Pumps around (r.handle around .process).state
      ((a.without .process).extend (r.handle around .process).effects) s b es) :
    Pumps around r a s b ((r.handle around .process).effects ++ es)

namespace Router

variable {r s t : Router} {around : Surroundings} {p q : Request} {pass : Passage}
  {es fs : List Effect}

/-- The requests in the main lane, the next in line first. -/
def queue (r : Router) : List Request := r.lanes.main.filterMap r.request?

/-- What is returned when everyone in the main lane is taken through a step. -/
def upcoming (r : Router) (around : Surroundings) : List Return :=
  r.queue.filterMap fun q => (r.passage around q).return? around.host

/-- What holds once everyone in the main lane has been taken through a step. -/
structure Emptied (r : Router) (around : Surroundings) (after : Router) (effects : List Effect) :
    Prop where
  /-- The requests are coupled with the lanes. -/
  coupled : Coupled after.requests after.lanes
  /-- The catalog is the same. -/
  catalog : after.catalog = r.catalog
  /-- The settings are the same. -/
  settings : after.settings = r.settings
  /-- The listener is the same, unless it is gone. -/
  listener : after.liveListener? around = r.liveListener? around
  /-- Nobody is left in the main lane. -/
  main : after.lanes.main = []
  /-- Everyone else is as before. -/
  requests : after.requests = r.requests.filterMap fun q =>
    if q.id ∈ r.lanes.main then (r.passage around q).remains? else some q
  /-- What has been returned is counted. -/
  counters : after.counters = r.counters.plus (.tally [] (r.upcoming around))
  /-- What has been returned is remembered. -/
  history : after.history = r.history.recordAll ((r.upcoming around).map fun x => x.request.id)
  /-- What has gone out. -/
  outputs : outputs effects = r.queue.flatMap fun q => (r.passage around q).outs around.host
  /-- The timers that have been armed. -/
  armed : armed effects = r.queue.flatMap fun q => armed (r.passage around q).effects

/-- Without anyone in the main lane there is nothing to do. -/
theorem Emptied.refl (h : Coupled r.requests r.lanes) (hmain : r.lanes.main = []) :
    r.Emptied around r [] := by
  have hqueue : r.queue = [] := by
    rw [queue, hmain]
    rfl
  have hupcoming : r.upcoming around = [] := by
    rw [upcoming, hqueue]
    rfl
  refine ⟨h, rfl, rfl, rfl, hmain, ?_, ?_, ?_, ?_, ?_⟩
  · simp only [hmain, List.not_mem_nil, if_false, List.filterMap_some]
  · rw [hupcoming]
    rfl
  · rw [hupcoming]
    rfl
  · rw [hqueue]
    rfl
  · rw [hqueue]
    rfl

/-- A step with somebody in the main lane leaves the name as it is. -/
theorem passage_id (around : Surroundings) (h : Coupled r.requests r.lanes) (hq : q ∈ r.requests)
    (hmain : q.id ∈ r.lanes.main) : (r.passage around q).request.id = q.id := by
  have hlane : q.state.lane = .main := (h.mem_lane_iff hq).mp hmain
  exact (onWay_advance around r.settings _ (h.sound q hq) hlane).1.id_eq

namespace Visited

/-- After a step everyone else gets as far as before. -/
theorem passage_eq (v : r.Visited around p s es) : s.passage around = r.passage around := by
  funext q
  rw [passage, passage, v.settings, v.listener]

/-- Everyone else in the main lane stays in line. -/
theorem queue_eq (v : r.Visited around p s es) (h : Coupled r.requests r.lanes)
    (hs : r.Steps around p pass) : r.queue = p :: s.queue := by
  have honce : (p.id :: r.lanes.main.tail).Nodup := hs.main_eq ▸ h.once .main
  have hothers : r.lanes.main.tail.filterMap r.request? =
      r.lanes.main.tail.filterMap s.request? := by
    refine List.filterMap_congr fun id hid => ?_
    have hstands : id ∈ r.lanes.get .main := List.mem_of_mem_tail hid
    obtain ⟨q, hq, rfl, -⟩ := (h.stands .main id).mp hstands
    have hne : q.id ≠ p.id := fun he => (List.nodup_cons.mp honce).1 (he ▸ hid)
    have hq' : q ∈ s.requests := by
      rw [v.requests]
      exact List.mem_filterMap.mpr ⟨q, hq, if_neg hne⟩
    rw [request?_eq_some h.names hq, request?_eq_some v.coupled.names hq']
  rw [queue, hs.main_eq, List.filterMap_cons, request?_eq_some h.names hs.known, queue, v.main,
    hothers]

/-- What becomes of a request when everyone is taken through a step is what becomes of it in the
first step and then in the others. -/
theorem remains?_eq (v : r.Visited around p s es) (h : Coupled r.requests r.lanes)
    (hs : r.Steps around p pass) (hq : q ∈ r.requests) :
    (if q.id = p.id then (r.passage around q).remains? else some q).bind
        (fun q => if q.id ∈ s.lanes.main then (s.passage around q).remains? else some q) =
      if q.id ∈ r.lanes.main then (r.passage around q).remains? else some q := by
  have honce : (p.id :: r.lanes.main.tail).Nodup := hs.main_eq ▸ h.once .main
  rw [v.passage_eq, v.main]
  by_cases he : q.id = p.id
  · have hmain : q.id ∈ r.lanes.main := by
      rw [hs.main_eq, he]
      exact List.mem_cons_self
    rw [if_pos he, if_pos hmain]
    cases hremains : (r.passage around q).remains? with
    | none => rfl
    | some q' =>
      -- What is left of the request has its name, and is not in line any more.
      have hid : q'.id = p.id := by
        have hname := passage_id around h hq hmain
        unfold Passage.remains? at hremains
        split at hremains
        · cases hremains
        · rw [← Option.some.inj hremains, hname, he]
      rw [Option.bind_some, hid, if_neg (List.nodup_cons.mp honce).1]
  · rw [if_neg he, Option.bind_some]
    have hiff : q.id ∈ r.lanes.main ↔ q.id ∈ r.lanes.main.tail := by
      rw [hs.main_eq, List.tail_cons, List.mem_cons]
      exact or_iff_right he
    simp only [hiff]

end Visited

/-- One step, and then everyone else. -/
theorem Emptied.step (h : Coupled r.requests r.lanes) (hs : r.Steps around p pass)
    (v : r.Visited around p s es) (e : s.Emptied around t fs) : r.Emptied around t (es ++ fs) := by
  have hqueue := v.queue_eq h hs
  have hupcoming : r.upcoming around =
      ((r.passage around p).return? around.host).toList ++ s.upcoming around := by
    rw [upcoming, hqueue, List.filterMap_cons, upcoming, v.passage_eq]
    cases (r.passage around p).return? around.host <;> rfl
  refine ⟨e.coupled, e.catalog.trans v.catalog, e.settings.trans v.settings,
    e.listener.trans v.listener, e.main, ?_, ?_, ?_, ?_, ?_⟩
  · rw [e.requests, v.requests, List.filterMap_filterMap]
    exact List.filterMap_congr fun q hq => v.remains?_eq h hs hq
  · rw [e.counters, v.counters, hupcoming, Counters.plus_assoc, Counters.plus_tally,
      List.nil_append]
  · rw [e.history, v.history, ← History.recordAll_append, ← List.map_append, hupcoming]
  · rw [outputs_append, v.shows.outputs, e.outputs, v.passage_eq, hqueue, List.flatMap_cons]
  · rw [armed_append, v.shows.armed, e.armed, v.passage_eq, hqueue, List.flatMap_cons]

/-- A step posts another one exactly when it has found somebody in the main lane, if posted events
are taken. -/
theorem posted_process (h : Coupled r.requests r.lanes) (isOpen : around.inboxOpen = true) :
    posted (r.process around).effects = if r.lanes.main = [] then [] else [.process] := by
  rcases idle_or_steps h around with hmain | ⟨p, pass, hs⟩
  · rw [process_of_idle hmain, if_pos hmain]
    rfl
  · rw [(hs.visited h).shows.posted, if_neg hs.main_ne_nil, Surroundings.wakes, if_pos isOpen]

end Router

namespace Agenda

variable {a : Agenda} {r : Router} {around : Surroundings}

/-- The posted events that ask for no step. -/
def others (a : Agenda) : List ScheduledEvent := a.posted.filter fun e => e ≠ .process

/-- The agenda after a step that has been posted. -/
def afterStep (a : Agenda) (r : Router) (around : Surroundings) : Agenda :=
  (a.without .process).extend (r.handle around .process).effects

/-- Whatever else is posted stays so during a step. -/
theorem others_afterStep (h : Coupled r.requests r.lanes) (isOpen : around.inboxOpen = true) :
    (a.afterStep r around).others = a.others := by
  have herase : ∀ l : List ScheduledEvent,
      (l.erase .process).filter (fun e => e ≠ .process) = l.filter fun e => e ≠ .process := by
    intro l
    induction l with
    | nil => rfl
    | cons e rest ih =>
      by_cases he : e = .process
      · rw [he, List.erase_cons_head, List.filter_cons_of_neg (by decide)]
      · rw [List.erase_cons_tail (by simpa using he), List.filter_cons, List.filter_cons, ih]
  have hposted :
      (Effect.posted (r.process around).effects).filter (fun e => e ≠ .process) = [] := by
    rw [Router.posted_process h isOpen]
    split <;> rfl
  have hall : (a.afterStep r around).others =
      (a.posted.erase .process).filter (fun e => e ≠ .process) ++
        (Effect.posted (r.process around).effects).filter fun e => e ≠ .process :=
    List.filter_append ..
  rw [hall, herase, hposted, List.append_nil, others]

/-- A step takes somebody out of the main lane and posts another one, or it posts none. -/
theorem steps_afterStep (h : Coupled r.requests r.lanes) (isOpen : around.inboxOpen = true)
    (isPosted : .process ∈ a.posted) :
    (r.process around).state.lanes.main.length + (a.afterStep r around).posted.count .process <
      r.lanes.main.length + a.posted.count .process := by
  have hcount : (a.afterStep r around).posted.count .process =
      a.posted.count .process - 1 + (Effect.posted (r.process around).effects).count .process := by
    have hall : (a.afterStep r around).posted =
        a.posted.erase .process ++ Effect.posted (r.process around).effects := rfl
    rw [hall, List.count_append, List.count_erase_self]
  have hpos := List.count_pos_iff.mpr isPosted
  rw [hcount, Router.posted_process h isOpen]
  rcases Router.idle_or_steps h around with hmain | ⟨p, pass, hs⟩
  · rw [Router.process_of_idle hmain, if_pos hmain, List.count_nil]
    simp only [Turn.quiet]
    omega
  · have hlength := congrArg List.length hs.main_eq
    rw [List.length_cons] at hlength
    rw [(hs.visited h).main, if_neg hs.main_ne_nil, List.count_singleton_self]
    omega

end Agenda

namespace Pumps

open Router

variable {around : Surroundings} {r s : Router} {a b : Agenda} {es : List Effect}

/-- Where no step is to be made none is made. -/
theorem of_idle (h : Pumps around r a s b es)
    (idle : around.inboxOpen = true → .process ∉ a.posted) : s = r ∧ b = a ∧ es = [] := by
  cases h with
  | done => exact ⟨rfl, rfl, rfl⟩
  | step isOpen isPosted => exact absurd isPosted (idle isOpen)

/-- What comes of making all posted steps, if a step is posted as long as anyone stands in the main
lane: everyone who stands there is taken through a step, the timers armed on the way are added to
the agenda, and of the posted events only the steps are gone. -/
theorem emptied (h : Pumps around r a s b es) (isOpen : around.inboxOpen = true)
    (hc : Coupled r.requests r.lanes) (hw : r.lanes.main = [] ∨ .process ∈ a.posted) :
    r.Emptied around s es ∧ b.sleeping = a.sleeping ++ armed es ∧ b.posted = a.others := by
  induction h with
  | @done r a idle =>
    have hnone := idle isOpen
    have hmain := hw.resolve_right hnone
    refine ⟨.refl hc hmain, (List.append_nil _).symm, ?_⟩
    rw [eq_comm, Agenda.others, List.filter_eq_self]
    intro e he
    rw [decide_eq_true_eq]
    exact fun hsame => hnone (hsame ▸ he)
  | @step r s a b es _ isPosted _ ih =>
    have hothers := a.others_afterStep hc isOpen
    rcases idle_or_steps hc around with hmain | ⟨p, pass, hs⟩
    · -- Nobody stands in the main lane, and the step does nothing.
      have hquiet : r.handle around .process = .quiet () r := process_of_idle hmain
      obtain ⟨hemptied, hsleeping, hposted⟩ :=
        ih (by rwa [hquiet]) (.inl (by rw [hquiet]; exact hmain))
      rw [hquiet] at hemptied ⊢
      refine ⟨hemptied, ?_, hposted.trans hothers⟩
      rw [hsleeping, hquiet]
      exact congrArg (· ++ armed es) (List.append_nil a.sleeping)
    · have v := hs.visited hc
      have hwake : .process ∈ (a.afterStep r around).posted := by
        refine List.mem_append_right _ ?_
        change .process ∈ Effect.posted (r.process around).effects
        rw [posted_process hc isOpen, if_neg hs.main_ne_nil]
        exact List.mem_cons_self
      obtain ⟨hemptied, hsleeping, hposted⟩ := ih v.coupled (.inr hwake)
      refine ⟨.step hc hs v hemptied, ?_, hposted.trans hothers⟩
      rw [hsleeping, armed_append, ← List.append_assoc]
      rfl

/-- Making the posted steps comes to an end. -/
theorem exists_pumps (around : Surroundings) (hc : Coupled r.requests r.lanes) (a : Agenda) :
    ∃ s b es, Pumps around r a s b es := by
  generalize hn : r.lanes.main.length + a.posted.count .process = n
  induction n using Nat.strong_induction_on generalizing r a with
  | _ n ih =>
    by_cases hidle : around.inboxOpen = true → .process ∉ a.posted
    · exact ⟨r, a, [], .done hidle⟩
    · obtain ⟨isOpen, hposted⟩ := Classical.not_imp.mp hidle
      have isPosted := not_not.mp hposted
      have hless := a.steps_afterStep hc isOpen isPosted
      have hafter := coupled_process around hc
      obtain ⟨s, b, es, hrest⟩ := ih _ (hn ▸ hless) hafter (a.afterStep r around) rfl
      exact ⟨s, b, _, .step isOpen isPosted hrest⟩

end Pumps

end IntentRouter
