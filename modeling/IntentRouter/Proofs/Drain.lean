import IntentRouter.Proofs.Agenda

/-!
# No request is lost

A run whose agenda is kept may stop anywhere. What is on the agenda then suffices to
take every request that is in flight back to its requester, in whatever order the
timers run out and the posted events are handled, and whatever the host and the
listeners are like each time.
-/

namespace IntentRouter

/-- An agenda that has been kept during the first moves of a run. -/
inductive Run.Keeps (run : Run) : Nat → Agenda → Prop where
  /-- In the beginning nothing is outstanding. -/
  | start : run.Keeps 0 .empty
  /-- A timer runs out and posts its event. -/
  | expire {n : Nat} {a : Agenda} {e : ScheduledEvent} (kept : run.Keeps n a)
    (sleeps : e ∈ a.sleeping) : run.Keeps n (a.expire e)
  /-- A move is made, which may handle an event that was never posted. -/
  | move {n : Nat} {a : Agenda} {m : Move} (kept : run.Keeps n a)
    (made : run.moves[n]? = some m) (isOpen : m.around.inboxOpen = true) :
    run.Keeps (n + 1) (a.extend (run.effects n))
  /-- A move handles a posted event. -/
  | feed {n : Nat} {a : Agenda} {m : Move} {e : ScheduledEvent} (kept : run.Keeps n a)
    (made : run.moves[n]? = some m) (isOpen : m.around.inboxOpen = true)
    (handles : m.ask = .router (.handle e)) (isPosted : e ∈ a.posted) :
    run.Keeps (n + 1) ((a.without e).extend (run.effects n))

/-- What can become of a router and its agenda in so many steps, with the effects they have,
when only what is on the agenda is handled. -/
inductive Drain (r : Router) (a : Agenda) : Nat → Router → Agenda → List Effect → Prop where
  /-- Nothing has been done. -/
  | start : Drain r a 0 r a []
  /-- A timer runs out and posts its event. -/
  | expire {k : Nat} {s : Router} {b : Agenda} {es : List Effect} {e : ScheduledEvent}
    (before : Drain r a k s b es) (sleeps : e ∈ b.sleeping) : Drain r a (k + 1) s (b.expire e) es
  /-- A posted event is handled, in any surroundings in which events are taken. -/
  | handle {k : Nat} {s : Router} {b : Agenda} {es : List Effect} {e : ScheduledEvent}
    (around : Surroundings) (before : Drain r a k s b es) (isPosted : e ∈ b.posted)
    (isOpen : around.inboxOpen = true) :
    Drain r a (k + 1) (s.handle around e).state
      ((b.without e).extend (s.handle around e).effects) (es ++ (s.handle around e).effects)

namespace Router

variable {r : Router} {a : Agenda}

/-- Handling an event admits nothing. -/
theorem changes_handle (h : Coupled r.requests r.lanes) (around : Surroundings)
    (e : ScheduledEvent) :
    ∃ taken, r.Changes around (r.handle around e).state (r.handle around e).effects taken none := by
  cases e with
  | process => exact ⟨_, changes_process h⟩
  | timeout stage id millis => exact ⟨none, changes_timeOut h stage id millis⟩

/-- No request is in flight when nothing is outstanding. -/
theorem requests_eq_nil (h : Watched r.requests .empty) : r.requests = [] := by
  rw [List.eq_nil_iff_forall_not_mem]
  intro q hq
  cases hw : q.state.stage? with
  | none => cases h.wake q hq (RequestState.lane_eq_main.mpr hw)
  | some stage =>
    obtain ⟨millis, hheld⟩ := h.timers q hq stage hw
    cases hheld with
    | inl hposted => cases hposted
    | inr hsleeping => cases hsleeping

end Router

namespace Drain

variable {r s : Router} {a b : Agenda} {k : Nat} {es : List Effect}

/-- What holds however far a router has been drained: the requests are coupled with the lanes and
watched by the agenda, each step has lightened the burden, and the requests taken back are those
no longer in flight. -/
theorem invariant (hc : Coupled r.requests r.lanes) (hw : Watched r.requests a)
    (h : Drain r a k s b es) :
    Coupled s.requests s.lanes ∧ Watched s.requests b ∧
      k + b.burden s.requests ≤ a.burden r.requests ∧
      (Effect.ended es ++ s.requests.map Request.id).Perm (r.requests.map Request.id) := by
  induction h with
  | start =>
    refine ⟨hc, hw, ?_, List.Perm.refl _⟩
    omega
  | @expire k s b es e _ sleeps ih =>
    obtain ⟨hcoupled, hwatched, hburden, hnames⟩ := ih
    refine ⟨hcoupled, hwatched.expire e, ?_, hnames⟩
    have hlength := List.length_erase_of_mem sleeps
    have hpos := List.length_pos_of_mem sleeps
    simp only [Agenda.burden, Agenda.expire, List.length_append, List.length_singleton] at hburden ⊢
    omega
  | @handle k s b es e around _ isPosted isOpen ih =>
    obtain ⟨hcoupled, hwatched, hburden, hnames⟩ := ih
    obtain ⟨taken, hafter, hchange⟩ := s.changes_handle hcoupled around e
    refine ⟨hafter, hwatched.handle hcoupled isOpen e, ?_, ?_⟩
    · -- The event that is handled makes up for this step, and the load for what it causes.
      have hloads := hchange.loads_le hcoupled.names
      have hlength := List.length_erase_of_mem isPosted
      have hpos := List.length_pos_of_mem isPosted
      simp only [Agenda.burden, Agenda.without, Agenda.extend, List.length_append] at hburden ⊢
      omega
    · have hone := hchange.names_perm hcoupled.names
      rw [Option.toList_none, List.map_nil, List.append_nil] at hone
      rw [Effect.ended_append, List.append_assoc]
      exact (hone.append_left _).trans hnames

/-- As long as something is outstanding, there is something to do. -/
theorem exists_next (h : Drain r a k s b es) (hb : b ≠ .empty) :
    ∃ s' b' es', Drain r a (k + 1) s' b' es' := by
  obtain ⟨posted, sleeping⟩ := b
  cases posted with
  | cons e rest =>
    exact ⟨_, _, _, h.handle ⟨.fresh, true, fun _ => false⟩ List.mem_cons_self rfl⟩
  | nil =>
    cases sleeping with
    | nil => exact absurd rfl hb
    | cons e rest => exact ⟨_, _, _, h.expire List.mem_cons_self⟩

end Drain

namespace Run

variable {run : Run} {n : Nat} {a : Agenda}

/-- The agenda of a run watches over the requests in flight. -/
theorem watched (h : run.Keeps n a) : Watched (run.router n).requests a := by
  induction h with
  | start =>
    rw [router_zero, start_eq_fresh]
    constructor
    · intro q hq
      cases hq
    · intro q hq
      cases hq
  | expire _ _ ih => exact ih.expire _
  | @move n a m _ hm isOpen ih =>
    exact ih.change (run.change hm) isOpen (fun _ _ _ _ _ hheld => hheld) fun _ => ih.wake
  | @feed n a m e _ hm isOpen handles _ ih =>
    have hturn : (m.turn (run.router n)).state = ((run.router n).handle m.around e).state := by
      rw [Move.turn, handles]
      rfl
    have heffects : run.effects n = ((run.router n).handle m.around e).effects := by
      rw [effects_eq hm, Move.turn, handles]
      rfl
    rw [router_succ hm, hturn, heffects]
    exact ih.handle (run.coupled n) isOpen e

/-- In a run whose agenda is kept every waiting request has a timer for the stage it waits in,
posted or sleeping. When from then on only what is on the agenda is handled, in any order and in
any surroundings, this comes to an end within the burden of the agenda, and only when nothing is
outstanding any more; then nobody is in flight or in a lane, and every request that was in flight
has been taken back to its requester exactly once. -/
theorem nothing_lost (run : Run) {n : Nat} {a : Agenda} (h : run.Keeps n a) :
    (∀ q ∈ (run.router n).requests, ∀ stage, q.state.stage? = some stage →
        ∃ millis, .timeout stage q.id millis ∈ a.posted ∨ .timeout stage q.id millis ∈ a.sleeping) ∧
      ∀ k s b es, Drain (run.router n) a k s b es →
        k ≤ a.burden (run.router n).requests ∧
          (b ≠ .empty → ∃ s' b' es', Drain (run.router n) a (k + 1) s' b' es') ∧
          (b = .empty → s.requests = [] ∧ (∀ lane, s.lanes.get lane = []) ∧
            ∀ q ∈ (run.router n).requests, (Effect.ended es).count q.id = 1) := by
  have hwatched := watched h
  refine ⟨hwatched.timers, fun k s b es hdrain => ?_⟩
  obtain ⟨hcoupled, hstill, hburden, hnames⟩ := hdrain.invariant (run.coupled n) hwatched
  refine ⟨by omega, hdrain.exists_next, fun hempty => ?_⟩
  rw [hempty] at hstill
  have hnone := Router.requests_eq_nil hstill
  rw [hnone] at hcoupled
  rw [hnone, List.map_nil, List.append_nil] at hnames
  refine ⟨hnone, hcoupled.get_eq_nil, fun q hq => ?_⟩
  rw [hnames.count_eq]
  exact List.count_eq_one_of_mem (run.coupled n).names (List.mem_map_of_mem hq)

/-- Once its request has been admitted, an errand is over after 14 steps at most, with the
request taken back once. -/
theorem nothing_lost_errand :
    errand.Keeps 3 ⟨[.process], []⟩ ∧
      ∀ k s es, Drain (errand.router 3) ⟨[.process], []⟩ k s .empty es →
        k ≤ 14 ∧ (Effect.ended es).count printing.id = 1 := by
  have hfirst : errand.Keeps 1 .empty := Keeps.start.move rfl rfl
  have hsecond : errand.Keeps 2 .empty := hfirst.move rfl rfl
  have hkept : errand.Keeps 3 ⟨[.process], []⟩ := hsecond.move rfl rfl
  refine ⟨hkept, fun k s es hdrain => ?_⟩
  have hall := (errand.nothing_lost hkept).2 k s .empty es hdrain
  exact ⟨hall.1, (hall.2.2 rfl).2.2 printing List.mem_cons_self⟩

end Run

end IntentRouter
