import IntentRouter.Proofs.Drain
import IntentRouter.Proofs.Served
import IntentRouter.Proofs.Spared
import IntentRouter.Session.World

/-!
# How long handling posted events takes

While someone stands in the main lane a step is posted. Each step takes one request out of the main
lane and posts the next step, or finds nobody and posts none. So if nothing but steps is posted and
no timer runs out, as many events are handled as there are steps posted and requests in the main
lane, and then every one of these requests has been returned or waits.
-/

namespace IntentRouter

open Effect

/-- What can become of a router and its inbox when so many posted events are handled one after
another, in any surroundings in which events are taken, while no timer runs out. -/
inductive Feeds : Router → List ScheduledEvent → Nat → Router → List ScheduledEvent →
    List Effect → Prop where
  /-- Nothing is handled. -/
  | start {r : Router} {inbox : List ScheduledEvent} : Feeds r inbox 0 r inbox []
  /-- The first event is handled, and what it posts comes last. -/
  | next {r s : Router} {e : ScheduledEvent} {inbox left : List ScheduledEvent} {c : Nat}
    {es : List Effect} (around : Surroundings) (isOpen : around.inboxOpen = true)
    (rest : Feeds (r.handle around e).state (inbox ++ posted (r.handle around e).effects) c s left
      es) :
    Feeds r (e :: inbox) (c + 1) s left ((r.handle around e).effects ++ es)

namespace Router

variable {r s : Router} {around : Surroundings} {p : Request} {pass : Passage} {id : RequestId}
  {inbox left : List ScheduledEvent} {e : ScheduledEvent} {es : List Effect} {c : Nat}

/-- How many events are handled at most until none is left. -/
def work (r : Router) (inbox : List ScheduledEvent) : Nat :=
  (inbox.map World.workOf).sum + r.lanes.main.length

/-- A request is no longer in the main lane: it has been returned, is in flight no more and stands
in no lane, or it stands in one other lane only. -/
def PutAway (s : Router) (es : List Effect) (id : RequestId) : Prop :=
  (id ∈ ended es ∧ (∀ q ∈ s.requests, q.id ≠ id) ∧ ∀ lane, id ∉ s.lanes.get lane) ∨
    ∃ lane, lane ≠ .main ∧ ∀ other, id ∈ s.lanes.get other ↔ other = lane

/-- There is nothing to do when no event is posted and nobody stands in the main lane. -/
theorem work_eq_zero_iff : r.work inbox = 0 ↔ inbox = [] ∧ r.lanes.main = [] := by
  rw [work, Nat.add_eq_zero_iff, List.length_eq_zero_iff]
  refine and_congr_left' ?_
  cases inbox with
  | nil => exact iff_of_true rfl rfl
  | cons e inbox =>
    have hpos : 0 < World.workOf e := by cases e <;> exact Nat.succ_pos _
    rw [List.map_cons, List.sum_cons]
    exact iff_of_false (by omega) (List.cons_ne_nil _ _)

/-- Whoever has been put away does not stand in the main lane. -/
theorem PutAway.notMem_main (h : s.PutAway es id) : id ∉ s.lanes.main := by
  intro hmem
  rcases h with ⟨-, -, hnone⟩ | ⟨lane, hne, honly⟩
  · exact hnone .main hmem
  · exact hne ((honly .main).mp hmem).symm

/-- Whoever has been put away stays so while they stand where they are. -/
theorem PutAway.of_lanes {r : Router} {fs : List Effect} (h : r.PutAway es id)
    (hc : Coupled s.requests s.lanes)
    (hlanes : ∀ lane, id ∈ s.lanes.get lane ↔ id ∈ r.lanes.get lane)
    (hended : id ∈ ended es → id ∈ ended fs) : s.PutAway fs id := by
  rcases h with ⟨hmem, -, hnone⟩ | ⟨lane, hne, honly⟩
  · have habsent : ∀ lane, id ∉ s.lanes.get lane := fun lane => mt (hlanes lane).mp (hnone lane)
    refine .inl ⟨hended hmem, fun q hq hid => ?_, habsent⟩
    exact habsent q.state.lane (hid ▸ (hc.mem_lane_iff hq).mpr rfl)
  · exact .inr ⟨lane, hne, fun other => (hlanes other).trans (honly other)⟩

/-- Nothing but steps is posted, and one is while anyone stands in the main lane. -/
structure Stepping (r : Router) (inbox : List ScheduledEvent) : Prop where
  /-- The requests are coupled with the lanes. -/
  coupled : Coupled r.requests r.lanes
  /-- Every posted event is a step. -/
  only : ∀ e ∈ inbox, e = .process
  /-- A step is posted while anyone stands in the main lane. -/
  wake : r.lanes.main ≠ [] → inbox ≠ []

/-- A step is one event less to handle. -/
theorem work_process (h : Coupled r.requests r.lanes) (isOpen : around.inboxOpen = true) :
    (r.process around).state.work (inbox ++ posted (r.process around).effects) + 1 =
      r.work (.process :: inbox) := by
  rw [posted_process h isOpen]
  simp only [work, List.map_append, List.sum_append, List.map_cons, List.sum_cons, World.workOf]
  rcases idle_or_steps h around with hmain | ⟨p, pass, hs⟩
  · rw [process_of_idle hmain, if_pos hmain, List.map_nil, List.sum_nil]
    dsimp only [Turn.quiet]
    omega
  · have hlength := congrArg List.length hs.main_eq
    rw [List.length_cons] at hlength
    rw [(hs.visited h).main, if_neg hs.main_ne_nil]
    simp only [List.map_cons, List.map_nil, List.sum_cons, List.sum_nil, World.workOf]
    omega

/-- A step leaves those where they are who do not stand in the main lane. -/
theorem mem_lane_process_iff (around : Surroundings) (h : Coupled r.requests r.lanes)
    (hid : id ∉ r.lanes.main) (lane : Lane) :
    id ∈ (r.process around).state.lanes.get lane ↔ id ∈ r.lanes.get lane := by
  rcases idle_or_steps h around with hmain | ⟨p, pass, hs⟩
  · rw [process_of_idle hmain]
    exact Iff.rfl
  · have hne : id ≠ p.id := by
      intro he
      rw [he, hs.main_eq] at hid
      exact hid List.mem_cons_self
    exact (hs.spares h).mem_lane_iff hne lane

/-- A timer that has run out is one event less to handle, even if it ends a wait. -/
theorem work_timeOut (h : Coupled r.requests r.lanes) (isOpen : around.inboxOpen = true)
    (stage : Stage) (id : RequestId) (millis : Nat) :
    (r.timeOut around stage id millis).state.work
        (inbox ++ posted (r.timeOut around stage id millis).effects) + 1 ≤
      r.work (.timeout stage id millis :: inbox) := by
  have hcall : (RouterCall.handle (.timeout stage id millis)).wait? = some (stage, id) := rfl
  have hstate : (r.timeOut around stage id millis).state =
      (r.perform around (.handle (.timeout stage id millis))).state := rfl
  have heffects : (r.timeOut around stage id millis).effects =
      (r.perform around (.handle (.timeout stage id millis))).effects := rfl
  rw [hstate, heffects]
  simp only [work, List.map_append, List.sum_append, List.map_cons, List.sum_cons, World.workOf]
  by_cases hw : r.Waits stage id
  · obtain ⟨p, hp, rfl, hstage⟩ := hw
    obtain ⟨es, hshows, hperform⟩ := perform_of_waits around h hp hstage hcall
    rw [hperform, hshows.posted, main_resume hstage, Surroundings.wakes, if_pos isOpen]
    simp only [List.map_cons, List.map_nil, List.sum_cons, List.sum_nil, World.workOf,
      List.length_append, List.length_singleton]
    omega
  · obtain ⟨note, hsilent, hperform⟩ := perform_of_not_waits around h hw hcall
    rw [hperform, hsilent.posted, List.map_nil, List.sum_nil]
    dsimp only
    omega

/-- Whoever a step has been made with is put away. -/
theorem Steps.putAway (hs : r.Steps around p pass) (h : Coupled r.requests r.lanes) :
    (r.process around).state.PutAway (r.process around).effects p.id := by
  have hafter := coupled_process around h
  rcases hs.waits_or_settled h with ⟨stage, hw⟩ | hq
  · rw [process_of_waits hs h hw] at hafter ⊢
    have hmem : p.id ∈ ((r.lanes.parted .main p.id).joined stage.lane p.id).get stage.lane :=
      Lanes.mem_joined.mpr (.inr ⟨rfl, rfl⟩)
    have hne : stage.lane ≠ .main := by cases stage <;> decide
    refine .inr ⟨stage.lane, hne, fun other => ⟨fun hother => hafter.lane_unique hother hmem, ?_⟩⟩
    rintro rfl
    exact hmem
  · have hended := ended_process h around
    rw [hs.returned?_eq h, if_pos hq] at hended
    have hid := (hs.onWay h).id_eq
    refine .inl ⟨?_, ?_⟩
    · rw [hended, ← hid]
      exact List.mem_cons_self
    · rw [process_of_settled hs h hq]
      refine ⟨fun q hmem => ?_, hs.absent h⟩
      exact of_decide_eq_true (List.mem_filter.mp hmem).2

/-- Handling an event leaves the requests coupled with the lanes. -/
theorem coupled_handle (around : Surroundings) (h : Coupled r.requests r.lanes)
    (e : ScheduledEvent) :
    Coupled (r.handle around e).state.requests (r.handle around e).state.lanes := by
  obtain ⟨taken, hafter, -⟩ := r.changes_handle h around e
  exact hafter

/-- Handling an event is one event less to handle. -/
theorem work_handle (h : Coupled r.requests r.lanes) (isOpen : around.inboxOpen = true)
    (e : ScheduledEvent) (inbox : List ScheduledEvent) :
    (r.handle around e).state.work (inbox ++ posted (r.handle around e).effects) + 1 ≤
      r.work (e :: inbox) := by
  cases e with
  | process => exact Nat.le_of_eq (work_process h isOpen)
  | timeout stage id millis => exact work_timeOut h isOpen stage id millis

/-- After a step nothing but steps is posted either, and one is if anyone is left. -/
theorem Stepping.process (h : r.Stepping (.process :: inbox)) (isOpen : around.inboxOpen = true) :
    (r.process around).state.Stepping (inbox ++ posted (r.process around).effects) := by
  have hposted := posted_process h.coupled isOpen
  refine ⟨coupled_process around h.coupled, fun e he => ?_, fun hleft => ?_⟩
  · rcases List.mem_append.mp he with he | he
    · exact h.only e (List.mem_cons_of_mem _ he)
    · rw [hposted] at he
      split at he
      · cases he
      · exact List.mem_singleton.mp he
  · have hmain : r.lanes.main ≠ [] := by
      intro hnone
      have hline := main_process around h.coupled
      rw [hnone] at hline
      exact hleft hline.symm
    rw [hposted, if_neg hmain]
    exact List.append_ne_nil_of_right_ne_nil _ (List.cons_ne_nil _ _)

end Router

namespace Feeds

variable {r s : Router} {inbox left : List ScheduledEvent} {c : Nat} {es : List Effect}
  {id : RequestId}

/-- No more events are handled than there is work. -/
theorem add_work_le (f : Feeds r inbox c s left es) (h : Coupled r.requests r.lanes) :
    c + s.work left ≤ r.work inbox := by
  induction f with
  | start => omega
  | @next r s e inbox left c es around isOpen rest ih =>
    have hless := Router.work_handle h isOpen e inbox
    have hrest := ih (Router.coupled_handle around h e)
    omega

/-- However many steps have been handled, nothing but steps is posted, and as many have been handled
as there is less work. -/
theorem stepping (f : Feeds r inbox c s left es) (h : r.Stepping inbox) :
    s.Stepping left ∧ c + s.work left = r.work inbox := by
  induction f with
  | start => exact ⟨h, Nat.zero_add _⟩
  | @next r s e inbox left c es around isOpen rest ih =>
    obtain rfl := h.only e List.mem_cons_self
    obtain ⟨hafter, hwork⟩ := ih (h.process isOpen)
    have hless : (r.handle around .process).state.work
        (inbox ++ posted (r.handle around .process).effects) + 1 = r.work (.process :: inbox) :=
      Router.work_process h.coupled isOpen
    exact ⟨hafter, by omega⟩

/-- Whoever does not stand in the main lane stays where they are while steps are handled. -/
theorem mem_lane_iff (f : Feeds r inbox c s left es) (h : r.Stepping inbox)
    (hid : id ∉ r.lanes.main) (lane : Lane) : id ∈ s.lanes.get lane ↔ id ∈ r.lanes.get lane := by
  induction f with
  | start => exact Iff.rfl
  | @next r s e inbox left c es around isOpen rest ih =>
    obtain rfl := h.only e List.mem_cons_self
    have hstep := Router.mem_lane_process_iff around h.coupled hid
    exact (ih (h.process isOpen) (mt (hstep .main).mp hid)).trans (hstep lane)

/-- Whoever has stood in the main lane stands there still, or has been put away. -/
theorem putAway (f : Feeds r inbox c s left es) (h : r.Stepping inbox) (hid : id ∈ r.lanes.main) :
    id ∈ s.lanes.main ∨ s.PutAway es id := by
  induction f with
  | start => exact .inl hid
  | @next r s e inbox left c es around isOpen rest ih =>
    obtain rfl := h.only e List.mem_cons_self
    have hnext := h.process isOpen
    rcases Router.idle_or_steps h.coupled around with hmain | ⟨p, pass, hs⟩
    · rw [hmain] at hid
      cases hid
    · by_cases he : id = p.id
      · -- The step has been made with this request, and nothing becomes of it later.
        have hput := hs.putAway h.coupled
        rw [← he] at hput
        have hgone : id ∉ (r.process around).state.lanes.main := hput.notMem_main
        exact .inr (hput.of_lanes (rest.stepping hnext).1.coupled
          (fun lane => rest.mem_lane_iff hnext hgone lane) fun hmem => by
            rw [ended_append]
            exact List.mem_append_left _ hmem)
      · have hstays : id ∈ (r.process around).state.lanes.main :=
          ((hs.spares h.coupled).mem_lane_iff he .main).mpr hid
        refine (ih hnext hstays).imp_right fun hput => ?_
        exact hput.of_lanes (rest.stepping hnext).1.coupled (fun _ => Iff.rfl) fun hmem => by
          rw [ended_append]
          exact List.mem_append_right _ hmem

/-- Nobody is left in the main lane once no step is posted. -/
theorem main_eq_nil (f : Feeds r inbox c s [] es) (h : r.Stepping inbox) : s.lanes.main = [] := by
  by_contra hne
  exact (f.stepping h).1.wake hne rfl

/-- No step is posted any more exactly when all the work has been done. -/
theorem eq_nil_iff (f : Feeds r inbox c s left es) (h : r.Stepping inbox) :
    left = [] ↔ c = r.work inbox := by
  have hsum := (f.stepping h).2
  constructor
  · rintro rfl
    have hzero := Router.work_eq_zero_iff.mpr ⟨rfl, f.main_eq_nil h⟩
    omega
  · intro hc
    exact (Router.work_eq_zero_iff.mp (by omega : s.work left = 0)).1

/-- Handling posted events comes to an end. -/
theorem exists_feeds (around : Surroundings) (isOpen : around.inboxOpen = true)
    (h : Coupled r.requests r.lanes) (inbox : List ScheduledEvent) :
    ∃ c s es, Feeds r inbox c s [] es := by
  generalize hn : r.work inbox = n
  induction n using Nat.strong_induction_on generalizing r inbox with
  | _ n ih =>
    cases inbox with
    | nil => exact ⟨0, r, [], .start⟩
    | cons e inbox =>
      have hless := Router.work_handle h isOpen e inbox
      obtain ⟨c, s, es, hrest⟩ := ih _ (hn ▸ hless) (Router.coupled_handle around h e) _ rfl
      exact ⟨c + 1, s, _, .next around isOpen hrest⟩

end Feeds

/-! ## The pump of a world -/

namespace World

variable {w : World} {inbox : List ScheduledEvent} {e : ScheduledEvent}

/-- Effects do not act on the router. -/
theorem router_absorb (es : List Effect) (w : World) : (es.foldl absorb w).router = w.router := by
  induction es generalizing w with
  | nil => rfl
  | cons effect es ih =>
    rw [List.foldl_cons, ih]
    cases effect <;> rfl

/-- Of the effects the posted events come to the inbox. -/
theorem inbox_absorb (es : List Effect) (w : World) :
    (es.foldl absorb w).inbox = w.inbox.map (· ++ posted es) := by
  induction es generalizing w with
  | nil =>
    cases hinbox : w.inbox <;> simp [posted, hinbox]
  | cons effect es ih =>
    rw [List.foldl_cons, ih]
    cases effect with
    | post event =>
      have hposted : posted (.post event :: es) = event :: posted es := rfl
      simp only [absorb, hposted, Option.map_map]
      congr 1
      funext events
      exact List.append_assoc events [event] (posted es)
    | _ => rfl

/-- The next event is handled in surroundings in which events are taken. -/
theorem step_eq (h : w.inbox = some (e :: inbox)) :
    ∃ around : Surroundings, around.inboxOpen = true ∧ w.step.value = some e ∧
      w.step.state.router = (w.router.handle around e).state ∧
      w.step.state.inbox = some (inbox ++ posted (w.router.handle around e).effects) := by
  refine ⟨({ w with inbox := some inbox } : World).around, rfl, ?_⟩
  rw [step, h]
  refine ⟨rfl, ?_, ?_⟩
  · exact router_absorb _ _
  · exact inbox_absorb _ _

/-- Pumping handles the events one after another, until none is left or as many have been handled
as are allowed. -/
theorem pumpAtMost_feeds (more : Nat) (h : w.inbox = some inbox) :
    ∃ left es, (pumpAtMost more w).state.inbox = some left ∧
      Feeds w.router inbox (pumpAtMost more w).value.length (pumpAtMost more w).state.router left
        es ∧
      (left = [] ∨ (pumpAtMost more w).value.length = more) := by
  induction more generalizing w inbox with
  | zero => exact ⟨inbox, [], h, .start, .inr rfl⟩
  | succ more ih =>
    cases inbox with
    | nil =>
      have hstep : w.step = .quiet none w := by rw [step, h]
      refine ⟨[], [], ?_⟩
      simp only [pumpAtMost, hstep]
      exact ⟨h, .start, .inl trivial⟩
    | cons e inbox =>
      obtain ⟨around, isOpen, hvalue, hrouter, hinbox⟩ := step_eq h
      obtain ⟨left, es, hleft, hfeeds, hend⟩ := ih hinbox
      rw [hrouter] at hfeeds
      simp only [pumpAtMost, hvalue]
      exact ⟨left, _, hleft, .next around isOpen hfeeds, hend.imp_right fun hn => by
        simp only [Turn.after, Turn.map, List.length_cons, hn]⟩

/-- The bound of a pump is the work there is to do. -/
theorem workload_eq (h : w.inbox = some inbox) : w.workload = w.router.work inbox := by
  rw [workload, h, Option.getD_some, Router.work]
  clear h
  induction inbox with
  | nil => exact (Nat.zero_add _).symm
  | cons e inbox ih =>
    rw [List.foldr_cons, ih, List.map_cons, List.sum_cons, Nat.add_assoc]

/-- A pump stops because no event is left, never because of its bound. -/
theorem pump_feeds (hc : Coupled w.router.requests w.router.lanes) (h : w.inbox = some inbox) :
    ∃ es, w.pump.state.inbox = some [] ∧
      Feeds w.router inbox w.pump.value.length w.pump.state.router [] es := by
  obtain ⟨left, es, hleft, hfeeds, hend⟩ := pumpAtMost_feeds w.workload h
  have hnone : left = [] := by
    rcases hend with hnone | hbound
    · exact hnone
    · have hwork := hfeeds.add_work_le hc
      have hload := workload_eq h
      have hzero : (pumpAtMost w.workload w).state.router.work left = 0 := by omega
      exact (Router.work_eq_zero_iff.mp hzero).1
  rw [hnone] at hleft hfeeds
  exact ⟨es, hleft, hfeeds⟩

end World

namespace Run

variable {run : Run} {n : Nat} {a : Agenda}

/-- No wake-up is lost. -/
theorem wake_posted (kept : run.Keeps n a) (hne : (run.router n).lanes.main ≠ []) :
    .process ∈ a.posted := by
  obtain ⟨id, hid⟩ := List.exists_mem_of_ne_nil _ hne
  obtain ⟨q, hq, -, hlane⟩ := ((run.coupled n).stands .main id).mp hid
  exact (watched kept).wake q hq hlane

/-- An agenda that has been kept may hold nothing but steps. -/
theorem stepping (kept : run.Keeps n a) {k : Nat} (hk : a.posted = List.replicate k .process) :
    (run.router n).Stepping a.posted := by
  refine ⟨run.coupled n, fun e he => ?_, fun hne => List.ne_nil_of_mem (wake_posted kept hne)⟩
  rw [hk] at he
  exact List.eq_of_mem_replicate he

/-- In a run whose agenda is kept a step is posted whenever anyone stands in the main lane. If
nothing is posted but so many steps, then handling what is posted, in any surroundings and while no
timer runs out, goes on until as many events have been handled as steps are posted and requests
stand in the main lane, neither longer nor shorter. Then nobody stands in the main lane, and each of
these requests has been returned or waits in one other lane. So it is with the pump of a world that
holds the router. -/
theorem pump_length (run : Run) {n : Nat} {a : Agenda} (kept : run.Keeps n a) :
    let r := run.router n
    (r.lanes.main ≠ [] → .process ∈ a.posted) ∧
      ∀ k, a.posted = List.replicate k .process →
        (∃ s es, Feeds r a.posted (r.lanes.main.length + k) s [] es) ∧
        (∀ c s left es, Feeds r a.posted c s left es →
          c ≤ r.lanes.main.length + k ∧ (left = [] ↔ c = r.lanes.main.length + k) ∧
          (left = [] → s.lanes.main = [] ∧ ∀ id ∈ r.lanes.main, s.PutAway es id)) ∧
        ∀ w : World, w.router = r → w.inbox = some a.posted →
          w.pump.value.length = r.lanes.main.length + k ∧ w.pump.state.inbox = some [] ∧
            ∃ es, Feeds r a.posted (r.lanes.main.length + k) w.pump.state.router [] es := by
  intro r
  have hcoupled : Coupled r.requests r.lanes := run.coupled n
  refine ⟨wake_posted kept, fun k hk => ?_⟩
  have hstepping : r.Stepping a.posted := stepping kept hk
  have hwork : r.work a.posted = r.lanes.main.length + k := by
    rw [Router.work, hk, List.map_replicate, List.sum_replicate_nat, World.workOf, Nat.mul_one,
      Nat.add_comm]
  rw [← hwork]
  refine ⟨?_, fun c s left es f => ⟨?_, f.eq_nil_iff hstepping, fun hnone => ?_⟩,
    fun w hrouter hinbox => ?_⟩
  · obtain ⟨c, s, es, f⟩ := Feeds.exists_feeds ⟨.fresh, true, fun _ => false⟩ rfl hcoupled
      a.posted
    rw [← (f.eq_nil_iff hstepping).mp rfl]
    exact ⟨s, es, f⟩
  · exact Nat.le_of_add_right_le (f.add_work_le hcoupled)
  · rw [hnone] at f
    have hmain := f.main_eq_nil hstepping
    refine ⟨hmain, fun id hid => (f.putAway hstepping hid).resolve_left fun hstill => ?_⟩
    rw [hmain] at hstill
    cases hstill
  · obtain ⟨es, hempty, f⟩ := World.pump_feeds (hrouter ▸ hcoupled) hinbox
    rw [hrouter] at f
    have hall := (f.eq_nil_iff hstepping).mp rfl
    rw [hall] at f
    exact ⟨hall, hempty, es, f⟩

/-- After its request has been admitted an errand takes two steps until none is posted. -/
theorem pump_length_errand :
    errand.Keeps 3 ⟨[.process], []⟩ ∧
      ∃ s es, Feeds (errand.router 3) [.process] 2 s [] es ∧
        s.PutAway es printing.id := by
  have hfirst : errand.Keeps 1 .empty := Keeps.start.move rfl rfl
  have hsecond : errand.Keeps 2 .empty := hfirst.move rfl rfl
  have hkept : errand.Keeps 3 ⟨[.process], []⟩ := hsecond.move rfl rfl
  obtain ⟨⟨s, es, f⟩, hall, -⟩ := (errand.pump_length hkept).2 1 rfl
  exact ⟨hkept, s, es, f, ((hall 2 s [] es f).2.2 rfl).2 printing.id List.mem_cons_self⟩

end Run

end IntentRouter
