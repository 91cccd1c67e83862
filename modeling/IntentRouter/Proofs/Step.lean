import IntentRouter.Proofs.Change

/-!
# One step of a router

A step is made with the next request of the main lane, if anyone stands there, and takes
it as far as it gets. Either the request waits in the end, and joins the lane of its
stage, or it is settled. Then it is taken back to its requester, counted and forgotten.
-/

namespace IntentRouter

open Effect

/-- The request has ended with a success. -/
def Request.succeeded (q : Request) : Bool := q.outcome.any Outcome.isSuccess

/-- The request has ended with a failure. -/
def Request.failed (q : Request) : Bool := q.outcome.any fun o => ! o.isSuccess

/-- A request with an outcome has ended with a success or with a failure. -/
theorem Request.failed_eq_not_succeeded {q : Request} (h : q.outcome.isSome = true) :
    q.failed = ! q.succeeded := by
  obtain ⟨o, ho⟩ := Option.isSome_iff_exists.mp h
  rw [failed, succeeded, ho]
  rfl

/-- The counters with one more request that has ended. -/
def Counters.record (m : Counters) (host : Host) (q : Request) : Counters :=
  { m with
    succeeded := m.succeeded + if q.succeeded then 1 else 0
    failed := m.failed + if q.failed then 1 else 0
    undeliverable := m.undeliverable + if (host.connection? q.requester).isSome then 0 else 1 }

namespace Host

/-- What happens when a settled request is taken back to its requester. -/
def takeBack (h : Host) (q : Request) : List Effect :=
  match h.connection? q.requester with
  | some channel => [.about q.id (.returning q.requester), h.issue (.deliverReply channel q)]
  | none => [.about q.id (.requesterUnreachable q.requester)]

/-- What goes out when a settled request is taken back to its requester. -/
def parting (h : Host) (q : Request) : List Output :=
  match h.connection? q.requester with
  | some channel => if h.attended then [.returned channel q] else []
  | none => [.dropped q.requester]

/-- A request that is taken back is the only one, and nothing but its reply goes out. -/
theorem takeBack_shows (h : Host) (q : Request) :
    Shows (h.takeBack q) (h.parting q) [] [] [q.id] := by
  unfold takeBack parting
  cases h.connection? q.requester with
  | none => exact ⟨rfl, rfl, rfl, rfl⟩
  | some channel =>
    by_cases hatt : h.attended = true
    · simp only [issue, if_pos hatt]
      exact ⟨rfl, rfl, rfl, rfl⟩
    · simp only [issue, if_neg hatt]
      exact ⟨rfl, rfl, rfl, rfl⟩

/-- At most one output goes out for a request that is taken back, that of its settled record. -/
theorem parting_spec (around : Surroundings) {q : Request} (hs : q.state = .settled) :
    (around.host.parting q).length ≤ 1 ∧ ∀ o ∈ around.host.parting q, o.Marks around q := by
  unfold parting
  cases hc : around.host.connection? q.requester with
  | none => exact ⟨Nat.le_refl 1, List.forall_mem_singleton.mpr ⟨hs, rfl, hc⟩⟩
  | some channel =>
    by_cases hatt : around.host.attended = true
    · simp only [if_pos hatt]
      exact ⟨Nat.le_refl 1, List.forall_mem_singleton.mpr ⟨hs, rfl, hc⟩⟩
    · simp only [if_neg hatt]
      exact ⟨Nat.zero_le 1, List.forall_mem_nil _⟩

end Host

namespace Router

variable {r : Router} {around : Surroundings} {p q : Request} {pass : Passage} {stage : Stage}

/-- A step of the router in these surroundings takes the request `p` as far as `pass`. -/
structure Steps (r : Router) (around : Surroundings) (p : Request) (pass : Passage) : Prop where
  /-- The request is in flight. -/
  known : p ∈ r.requests
  /-- It is the next in line. -/
  next : r.lanes.main.head? = some p.id
  /-- It does not wait. -/
  ready : p.state.lane = .main
  /-- This is how far it gets. -/
  pass_eq : advance around r.settings r.listener p = pass

/-- A step is made unless nobody stands in the main lane. -/
theorem idle_or_steps (h : Coupled r.requests r.lanes) (around : Surroundings) :
    r.lanes.main = [] ∨ ∃ p pass, r.Steps around p pass := by
  cases hmain : r.lanes.main with
  | nil => exact .inl rfl
  | cons id rest =>
    have hnext : id ∈ r.lanes.get .main := by
      change id ∈ r.lanes.main
      rw [hmain]
      exact List.mem_cons_self
    obtain ⟨p, hp, rfl, hlane⟩ := (h.stands .main id).mp hnext
    exact .inr ⟨p, _, hp, by rw [hmain]; rfl, hlane, rfl⟩

/-- Nothing happens while nobody stands in the main lane. -/
theorem process_of_idle (hmain : r.lanes.main = []) : r.process around = .quiet () r := by
  rw [process, Lanes.takeNext?_eq_none hmain]

namespace Steps

/-- A step follows the graph of the request's life. -/
theorem onWay (hs : r.Steps around p pass) (h : Coupled r.requests r.lanes) :
    pass.OnWay around r.settings p := by
  rw [← hs.pass_eq]
  exact (onWay_advance around r.settings r.listener (h.sound p hs.known) hs.ready).1

/-- In the end the request waits, or it is settled. -/
theorem waits_or_settled (hs : r.Steps around p pass) (h : Coupled r.requests r.lanes) :
    (∃ stage, pass.request.state.stage? = some stage) ∨ pass.request.state = .settled := by
  have hend := (onWay_advance around r.settings r.listener (h.sound p hs.known) hs.ready).2
  rw [hs.pass_eq] at hend
  exact hend.imp_left Option.isSome_iff_exists.mp

/-- A step takes a settled request as it is. -/
theorem request_eq (hs : r.Steps around p pass) (hsettled : p.state = .settled) :
    pass.request = p := by
  rw [← hs.pass_eq]
  exact advance_of_settled around r.settings r.listener hsettled

/-- Whoever is next is in front of the others. -/
theorem main_eq (hs : r.Steps around p pass) : r.lanes.main = p.id :: r.lanes.main.tail := by
  obtain ⟨rest, hmain⟩ := List.head?_eq_some_iff.mp hs.next
  rw [hmain, List.tail_cons]

/-- A step is made with somebody. -/
theorem main_ne_nil (hs : r.Steps around p pass) : r.lanes.main ≠ [] := by
  rw [hs.main_eq]
  exact List.cons_ne_nil _ _

/-- A step advances the next request of the main lane and puts it where it belongs. -/
theorem process_eq (hs : r.Steps around p pass) (h : Coupled r.requests r.lanes) {left : Router}
    (hleft : { r with lanes := r.lanes.parted .main p.id, listener := pass.listener } = left) :
    r.process around =
      ⟨(), (left.conclude around pass.request).state,
        pass.effects ++ (left.conclude around pass.request).effects ++ [wake around]⟩ := by
  obtain ⟨rest, hmain⟩ := List.head?_eq_some_iff.mp hs.next
  have hfind : ({ r with lanes := r.lanes.parted .main p.id } : Router).request? p.id = some p :=
    request?_eq_some (r := r) h.names hs.known
  rw [process, Lanes.takeNext?_eq hmain]
  simp only [hfind, hs.pass_eq, hleft]

/-- Whoever is next has left the main lane during a step, and stands in no lane. -/
theorem absent (hs : r.Steps around p pass) (h : Coupled r.requests r.lanes) (lane : Lane) :
    p.id ∉ (r.lanes.parted .main p.id).get lane := by
  rw [← hs.ready]
  exact h.absent_parted hs.known lane

end Steps

/-- The request joins the lane of the stage in which it waits after a step. -/
theorem process_of_waits (hs : r.Steps around p pass) (h : Coupled r.requests r.lanes)
    (hw : pass.request.state.stage? = some stage) :
    r.process around =
      ⟨(), { r with
          requests := pass.request.replaceIn r.requests
          lanes := (r.lanes.parted .main p.id).joined stage.lane p.id
          listener := pass.listener },
        pass.effects ++ [wake around]⟩ := by
  have hjoin := Lanes.join?_eq_some (hs.absent h) stage.lane
  rw [hs.process_eq h rfl]
  simp only [conclude, hw, update, Request.replaceIn, (hs.onWay h).id_eq, hjoin, Option.getD_some,
    Turn.quiet, List.append_nil]

/-- Returning a request with an outcome counts it and forgets it. -/
theorem deliver_eq (r : Router) (around : Surroundings) (hq : q.outcome.isSome = true) :
    r.deliver around q =
      ⟨(), { r with
          requests := r.requests.filter fun p => p.id ≠ q.id
          history := r.history.record q.id
          counters := r.counters.record around.host q },
        around.host.takeBack q⟩ := by
  obtain ⟨o, ho⟩ := Option.isSome_iff_exists.mp hq
  simp only [deliver, Counters.record, Host.takeBack, Request.succeeded, Request.failed, ho]
  cases o <;> cases around.host.connection? q.requester <;> rfl

/-- The request is taken back and forgotten if it is settled after a step. -/
theorem process_of_settled (hs : r.Steps around p pass) (h : Coupled r.requests r.lanes)
    (hq : pass.request.state = .settled) :
    r.process around =
      ⟨(), { r with
          requests := r.requests.filter fun q => q.id ≠ p.id
          lanes := r.lanes.parted .main p.id
          listener := pass.listener
          history := r.history.record p.id
          counters := r.counters.record around.host pass.request },
        pass.effects ++ around.host.takeBack pass.request ++ [wake around]⟩ := by
  have hway := hs.onWay h
  rw [hs.process_eq h rfl]
  simp only [conclude, hq, RequestState.stage?, if_true,
    deliver_eq _ around (hway.sound.outcome.mpr hq), hway.id_eq]

/-- A step takes the next request of the main lane to its next wait or to its end. -/
theorem changes_process (h : Coupled r.requests r.lanes) :
    r.Changes around (r.process around).state (r.process around).effects
      r.lanes.main.head? none := by
  rcases idle_or_steps h around with hmain | ⟨p, pass, hs⟩
  · rw [process_of_idle hmain, hmain]
    exact changes_still h Silent.nil
  · have hway := hs.onWay h
    rw [hs.next]
    rcases hs.waits_or_settled h with ⟨stage, hw⟩ | hq
    · have hcoupled := h.transfer hs.known hway.id_eq hway.sound
      have harm : armed pass.effects = [.timeout stage p.id (r.settings.timeout stage)] := by
        rw [hway.armed, hw]
        rfl
      have hshows : Shows pass.effects (outputs pass.effects)
          [.timeout stage p.id (r.settings.timeout stage)] [] [] :=
        ⟨rfl, harm, hway.posted, hway.ended⟩
      rw [hs.ready, RequestState.lane_of_stage hw] at hcoupled
      rw [process_of_waits hs h hw]
      exact ⟨hcoupled, .parked p pass.request stage _ _ hs.known hs.ready hway.becomes hway.sound
        hw hway.single hway.marks (hshows.before_wake around)⟩
    · -- What goes out is the reply alone.
      obtain ⟨hsingle, hmarks⟩ := Host.parting_spec around hq
      have hsilent := hway.silent (by rw [hq]; rfl)
      have htaken := around.host.takeBack_shows pass.request
      have hcoupled := h.dispose hs.known
      rw [hway.id_eq] at htaken
      rw [hs.ready] at hcoupled
      rw [process_of_settled hs h hq]
      exact ⟨hcoupled, .delivered p pass.request _ hs.known hs.ready hway.becomes hway.sound hq
        hsingle hmarks ((htaken.after_silent hsilent).before_wake around)⟩

end Router

end IntentRouter
