import IntentRouter.Proofs.Load
import IntentRouter.Proofs.Run

/-!
# Outstanding events

Whoever runs a router keeps an agenda: the events that the router has posted, and the
timers that it has armed, until they are handed back to it. As long as nothing of the
agenda gets lost, every waiting request has a timer on it for the stage it waits in, and
a step is on it while anyone stands in the main lane.

When nothing is asked of the router any more and what is on the agenda is handled in any
order, in surroundings that may change each time, the agenda gets empty after a bounded
number of steps. By then every request that was in flight has been taken back to its
requester, once each.
-/

namespace IntentRouter

/-- The events that have not been handled yet. -/
structure Agenda where
  /-- The events that have been posted. -/
  posted : List ScheduledEvent
  /-- The events of the timers that have not run out. -/
  sleeping : List ScheduledEvent

namespace Agenda

/-- Nothing is outstanding. -/
def empty : Agenda := ⟨[], []⟩

/-- An event has been posted, or will be by a timer. -/
def Holds (a : Agenda) (e : ScheduledEvent) : Prop := e ∈ a.posted ∨ e ∈ a.sleeping

/-- The agenda with the events that effects post and the timers that they arm. -/
def extend (a : Agenda) (effects : List Effect) : Agenda :=
  ⟨a.posted ++ Effect.posted effects, a.sleeping ++ Effect.armed effects⟩

/-- The agenda without a posted event, which is being handled. -/
def without (a : Agenda) (e : ScheduledEvent) : Agenda := { a with posted := a.posted.erase e }

/-- The agenda after a timer has run out. -/
def expire (a : Agenda) (e : ScheduledEvent) : Agenda :=
  ⟨a.posted ++ [e], a.sleeping.erase e⟩

/-- A bound for the steps it takes until nothing is outstanding. A timer takes two, one to run
out and one to be handled. -/
def burden (a : Agenda) (requests : List Request) : Nat :=
  Request.loads requests + a.posted.length + 2 * a.sleeping.length

variable {a : Agenda} {e f : ScheduledEvent}

theorem Holds.extend (h : a.Holds e) (effects : List Effect) : (a.extend effects).Holds e := by
  cases h with
  | inl h => exact .inl (List.mem_append_left _ h)
  | inr h => exact .inr (List.mem_append_left _ h)

theorem Holds.without (h : a.Holds e) (hne : e ≠ f) : (a.without f).Holds e := by
  cases h with
  | inl h => exact .inl ((List.mem_erase_of_ne hne).mpr h)
  | inr h => exact .inr h

theorem Holds.expire (h : a.Holds e) (f : ScheduledEvent) : (a.expire f).Holds e := by
  cases h with
  | inl h => exact .inl (List.mem_append_left _ h)
  | inr h =>
    by_cases he : e = f
    · rw [he]
      exact .inl (List.mem_append_right _ List.mem_cons_self)
    · exact .inr ((List.mem_erase_of_ne he).mpr h)

end Agenda

/-- The agenda has a timer for every waiting request, and a step as long as any is needed. -/
structure Watched (requests : List Request) (a : Agenda) : Prop where
  /-- A waiting request has a timer for the stage it waits in. -/
  timers : ∀ q ∈ requests, ∀ stage, q.state.stage? = some stage →
    ∃ millis, a.Holds (.timeout stage q.id millis)
  /-- A step has been posted while a request stands in the main lane. -/
  wake : ∀ q ∈ requests, q.state.lane = .main → .process ∈ a.posted

namespace Change

variable {around : Surroundings} {before after : List Request} {effects : List Effect}
  {taken : Option RequestId} {admitted : Option Request} {q : Request} {stage : Stage}

/-- A request that waits afterwards has waited there before, or its timer is armed. -/
theorem waiting (h : Change around before after effects taken admitted) (hq : q ∈ after)
    (hw : q.state.stage? = some stage) :
    (∃ p ∈ before, p.id = q.id ∧ p.state.stage? = some stage) ∨
      ∃ millis, .timeout stage q.id millis ∈ Effect.armed effects := by
  cases h with
  | still => exact .inl ⟨q, hq, rfl, hw⟩
  | admitted r hs =>
    rcases List.mem_append.mp hq with hq | hq
    · exact .inl ⟨q, hq, rfl, hw⟩
    · rw [List.mem_singleton.mp hq, hs] at hw
      cases hw
  | resumed p r _ _ _ _ hready =>
    rcases Request.mem_replaceIn hq with he | ⟨hq, -⟩
    · rw [he, RequestState.lane_eq_main.mp hready] at hw
      cases hw
    · exact .inl ⟨q, hq, rfl, hw⟩
  | released application =>
    obtain ⟨p, hp, hpq⟩ := List.mem_map.mp hq
    unfold Request.releasedBy at hpq
    split at hpq
    · rw [← hpq] at hw
      cases hw
    · rw [hpq] at hp
      exact .inl ⟨q, hp, rfl, hw⟩
  | parked p r stage' millis _ _ _ hb _ hstage _ _ shows =>
    rcases Request.mem_replaceIn hq with he | ⟨hq, -⟩
    · rw [he, hstage] at hw
      rw [he, hb.alike.id, ← Option.some.inj hw, shows.armed]
      exact .inr ⟨millis, List.mem_cons_self⟩
    · exact .inl ⟨q, hq, rfl, hw⟩
  | delivered => exact .inl ⟨q, (List.mem_filter.mp hq).1, rfl, hw⟩

/-- An operation asks for a step, or it is none and leaves everything as it is. -/
theorem posted_or (h : Change around before after effects taken admitted) :
    Effect.posted effects = around.wakes ∨ (after = before ∧ taken = none) := by
  cases h with
  | still => exact .inr ⟨rfl, rfl⟩
  | admitted _ _ _ shows => exact .inl shows.posted
  | resumed _ _ _ _ _ _ _ shows => exact .inl shows.posted
  | released _ _ shows => exact .inl shows.posted
  | parked _ _ _ _ _ _ _ _ _ _ _ _ shows => exact .inl shows.posted
  | delivered _ _ _ _ _ _ _ _ _ _ shows => exact .inl shows.posted

end Change

namespace Watched

variable {around : Surroundings} {before after : List Request} {effects : List Effect}
  {taken : Option RequestId} {admitted : Option Request} {a rest : Agenda} {e : ScheduledEvent}
  {r : Router}

/-- An operation leaves the requests watched by what remains of the agenda with what it adds,
if the timers of all requests that wait afterwards remain, and a step where none is made. -/
theorem change (h : Watched before a) (c : Change around before after effects taken admitted)
    (isOpen : around.inboxOpen = true)
    (timers : ∀ q ∈ after, ∀ stage millis, q.state.stage? = some stage →
      a.Holds (.timeout stage q.id millis) → rest.Holds (.timeout stage q.id millis))
    (wake : taken = none → ∀ q ∈ before, q.state.lane = .main → .process ∈ rest.posted) :
    Watched after (rest.extend effects) := by
  constructor
  · intro q hq stage hw
    rcases c.waiting hq hw with ⟨p, hp, hid, hold⟩ | ⟨millis, harm⟩
    · obtain ⟨millis, hheld⟩ := h.timers p hp stage hold
      rw [hid] at hheld
      exact ⟨millis, (timers q hq stage millis hw hheld).extend effects⟩
    · exact ⟨millis, .inr (List.mem_append_right _ harm)⟩
  · intro q hq hlane
    rcases c.posted_or with hposted | ⟨hsame, hnone⟩
    · have hwakes : .process ∈ around.wakes := by
        rw [Surroundings.wakes, if_pos isOpen]
        exact List.mem_cons_self
      rw [← hposted] at hwakes
      exact List.mem_append_right _ hwakes
    · rw [hsame] at hq
      exact List.mem_append_left _ (wake hnone q hq hlane)

/-- Nothing is lost when a timer runs out. -/
theorem expire (h : Watched before a) (e : ScheduledEvent) : Watched before (a.expire e) := by
  constructor
  · intro q hq stage hw
    obtain ⟨millis, hheld⟩ := h.timers q hq stage hw
    exact ⟨millis, hheld.expire e⟩
  · intro q hq hlane
    exact List.mem_append_left _ (h.wake q hq hlane)

/-- Nothing is lost when a posted event is handled: a step is followed by another as long as one
is needed, and a timer that is used up has no waiting request left. -/
theorem handle (hc : Coupled r.requests r.lanes) (h : Watched r.requests a)
    (isOpen : around.inboxOpen = true) (e : ScheduledEvent) :
    Watched (r.handle around e).state.requests
      ((a.without e).extend (r.handle around e).effects) := by
  cases e with
  | process =>
    refine h.change (Router.changes_process hc).2 isOpen ?_ ?_
    · intro q _ stage millis _ hheld
      exact hheld.without (fun hsame => by cases hsame)
    · -- No step is made only when nobody stands in the main lane.
      intro hnone q hq hlane
      have hmem : q.id ∈ r.lanes.get .main := (hc.mem_lane_iff hq).mpr hlane
      have hmain : r.lanes.get .main = [] := List.head?_eq_none_iff.mp hnone
      rw [hmain] at hmem
      cases hmem
  | timeout stage id millis =>
    refine h.change (Router.changes_timeOut hc stage id millis).2 isOpen ?_ ?_
    · intro q hq stage' millis' hw hheld
      refine hheld.without fun hsame => ?_
      cases hsame
      have hcall : (RouterCall.handle (.timeout stage q.id millis)).wait? = some (stage, q.id) :=
        rfl
      exact Router.not_waits_perform around hc hcall ⟨q, hq, rfl, hw⟩
    · intro _ q hq hlane
      have hne : ScheduledEvent.process ≠ .timeout stage id millis := fun hsame => by cases hsame
      exact (List.mem_erase_of_ne hne).mpr (h.wake q hq hlane)

end Watched

end IntentRouter
