import IntentRouter.Proofs.Session

/-!
# Timers and posted events about a wait

A timer runs for the wait of one request in one stage, and the event that it posts is about this
wait. While a request waits there is exactly one of either about its wait: a timer until its time
has come, and from then on a posted event, which moves up in the inbox as those before it are
handled. What happens to anyone else leaves it.
-/

namespace IntentRouter

open Effect

/-! ## Which events are about a wait -/

/-- Whether an event reports the end of the wait of a request in a stage. -/
def ScheduledEvent.isAbout (stage : Stage) (id : RequestId) : ScheduledEvent → Bool
  | .timeout stage' id' _ => stage' = stage && id' = id
  | .process => false

theorem ScheduledEvent.isAbout_iff {stage : Stage} {id : RequestId} {e : ScheduledEvent} :
    e.isAbout stage id = true ↔ ∃ millis, e = .timeout stage id millis := by
  cases e with
  | process => exact iff_of_false Bool.false_ne_true fun ⟨_, he⟩ => by cases he
  | timeout stage' id' millis =>
    simp only [isAbout, Bool.and_eq_true, decide_eq_true_eq, timeout.injEq, exists_and_left,
      exists_eq', and_true]

theorem ScheduledEvent.event_timer (now : Nat) (e : ScheduledEvent) : (e.timer now).event = e := by
  cases e <;> rfl

namespace World

variable {w w' : World} {stage : Stage} {id : RequestId} {left : List ScheduledEvent →
  List ScheduledEvent} {t : Turn Router Answer}

/-- The timers about a wait. -/
def sleeping (w : World) (stage : Stage) (id : RequestId) : List Timer :=
  w.timers.filter fun t => t.event.isAbout stage id

/-- The posted events about a wait. -/
def reported (w : World) (stage : Stage) (id : RequestId) : List ScheduledEvent :=
  (w.inbox.getD []).filter fun e => e.isAbout stage id

/-- In a turn only a timer that is armed joins those about a wait. -/
theorem Turned.sleeping (h : w.Turned left t w') (stage : Stage) (id : RequestId) :
    w'.sleeping stage id = w.sleeping stage id ++
      ((armed t.effects).filter fun e => e.isAbout stage id).map fun e => e.timer w.now := by
  have hevent : ((fun t : Timer => t.event.isAbout stage id) ∘
      fun e : ScheduledEvent => e.timer w.now) = fun e => e.isAbout stage id := by
    funext e
    rw [Function.comp_apply, e.event_timer]
  rw [World.sleeping, h.timers, List.filter_append, List.filter_map, hevent, World.sleeping]

/-- In a turn that posts nothing about a wait the posted events about it are those left. -/
theorem Turned.reported (h : w.Turned left t w')
    (hposted : ∀ e ∈ posted t.effects, e.isAbout stage id = false) :
    w'.reported stage id = ((w.inbox.map left).getD []).filter fun e => e.isAbout stage id := by
  have hnone : (posted t.effects).filter (fun e => e.isAbout stage id) = [] :=
    List.filter_eq_nil_iff.mpr fun e he => Bool.eq_false_iff.mp (hposted e he)
  rw [World.reported, h.inbox]
  cases w.inbox with
  | none => rfl
  | some events => exact (List.filter_append ..).trans (by rw [hnone, List.append_nil]; rfl)

/-- The posted events about a wait that are left in an operation are among those that there were. -/
theorem filter_left_sublist (w : World) (op : Op) (stage : Stage) (id : RequestId) :
    (((w.inbox.map op.left).getD []).filter fun e => e.isAbout stage id).Sublist
      (w.reported stage id) := by
  refine List.Sublist.filter _ ?_
  cases w.inbox with
  | none => exact List.nil_sublist _
  | some events =>
    change (op.left events).Sublist events
    cases op with
    | step => exact List.tail_sublist events
    | _ => exact List.Sublist.refl events

/-- While time passes timers run out. -/
theorem sleeping_advance (w : World) (millis : Nat) (stage : Stage) (id : RequestId) :
    (w.advance millis).sleeping stage id =
      (w.sleeping stage id).filter fun t => ! decide (t.due ≤ w.now + millis) := by
  simp only [sleeping, advance, List.partition_eq_filter_filter, List.filter_filter]
  congr 1
  funext t
  exact Bool.and_comm _ _

/-- The timers that have run out have posted their events. -/
theorem reported_advance {events : List ScheduledEvent} (hopen : w.inbox = some events)
    (millis : Nat) (stage : Stage) (id : RequestId) :
    ((w.advance millis).reported stage id).Perm (w.reported stage id ++
      ((w.sleeping stage id).filter fun t => t.due ≤ w.now + millis).map Timer.event) := by
  let due := w.timers.filter fun t => t.due ≤ w.now + millis
  have hsorted := ((due.mergeSort_perm fun s t => s.due ≤ t.due).filter
    ((fun e : ScheduledEvent => e.isAbout stage id) ∘ Timer.event)).map Timer.event
  have hswap : due.filter ((fun e : ScheduledEvent => e.isAbout stage id) ∘ Timer.event) =
      (w.sleeping stage id).filter fun t => t.due ≤ w.now + millis := by
    rw [sleeping, List.filter_filter, List.filter_filter]
    congr 1
    funext t
    exact Bool.and_comm _ _
  rw [hswap] at hsorted
  simp only [reported, advance, hopen, List.partition_eq_filter_filter, Option.map_some,
    Option.getD_some, List.filter_append, List.filter_map]
  exact hsorted.append_left _

/-- Where events are not taken none is posted. -/
theorem reported_advance_of_closed (hclosed : w.inbox = none) (millis : Nat) (stage : Stage)
    (id : RequestId) : (w.advance millis).reported stage id = [] := by
  rw [reported, advance, hclosed]
  rfl

/-! ## The event about a wait that goes on -/

/-- A request waits with exactly one timer or posted event about its wait. As long as its time has
not come that is a timer; then it is a posted event, unless events are not taken any more. -/
structure Awaits (w : World) (stage : Stage) (q : Request) (due millis : Nat) : Prop where
  /-- The request is in flight. -/
  known : q ∈ w.router.requests
  /-- The timer runs until it is due. -/
  before : w.now < due →
    w.sleeping stage q.id = [⟨due, .timeout stage q.id millis⟩] ∧ w.reported stage q.id = []
  /-- From then on the event is to be handled. -/
  after : due ≤ w.now → w.sleeping stage q.id = [] ∧
    (w.inbox.isSome = true → w.reported stage q.id = [.timeout stage q.id millis])

variable {q : Request} {due millis : Nat}

/-- A turn that has nothing to do with a wait leaves the event about it. -/
theorem Awaits.turned (h : w.Awaits stage q due millis) (ht : w.Turned left t w')
    (hq : q ∈ w'.router.requests)
    (harmed : ∀ e ∈ armed t.effects, e.isAbout stage q.id = false)
    (hposted : ∀ e ∈ posted t.effects, e.isAbout stage q.id = false)
    (hleft : ((w.inbox.map left).getD []).filter (fun e => e.isAbout stage q.id) =
      w.reported stage q.id) : w'.Awaits stage q due millis := by
  have hnone : (armed t.effects).filter (fun e => e.isAbout stage q.id) = [] :=
    List.filter_eq_nil_iff.mpr fun e he => Bool.eq_false_iff.mp (harmed e he)
  have hsleeping := ht.sleeping stage q.id
  rw [hnone, List.map_nil, List.append_nil] at hsleeping
  have hreported := (ht.reported hposted).trans hleft
  have hopen : w'.inbox.isSome = w.inbox.isSome := by rw [ht.inbox, Option.isSome_map]
  refine ⟨hq, ?_, ?_⟩
  · rw [ht.now, hsleeping, hreported]
    exact h.before
  · rw [ht.now, hsleeping, hreported, hopen]
    exact h.after

/-- While time passes the timer goes on until it is due. -/
theorem Awaits.sleeping_advance (h : w.Awaits stage q due millis) (passed : Nat) :
    (w.advance passed).sleeping stage q.id =
      if due ≤ w.now + passed then [] else [⟨due, .timeout stage q.id millis⟩] := by
  rw [w.sleeping_advance]
  by_cases hnow : w.now < due
  · rw [(h.before hnow).1]
    simp only [List.filter_cons, List.filter_nil, Bool.not_eq_true', decide_eq_false_iff_not,
      ite_not]
  · rw [(h.after (Nat.le_of_not_lt hnow)).1, if_pos (by omega), List.filter_nil]

/-- When its time comes the timer posts the event. -/
theorem Awaits.reported_advance (h : w.Awaits stage q due millis) (hopen : w.inbox.isSome = true)
    (passed : Nat) :
    (w.advance passed).reported stage q.id =
      if due ≤ w.now + passed then [.timeout stage q.id millis] else [] := by
  obtain ⟨events, hinbox⟩ := Option.isSome_iff_exists.mp hopen
  have hperm := w.reported_advance hinbox passed stage q.id
  by_cases hnow : w.now < due
  · obtain ⟨htimer, hnothing⟩ := h.before hnow
    rw [htimer, hnothing, List.nil_append] at hperm
    simp only [List.filter_cons, List.filter_nil, decide_eq_true_eq] at hperm
    by_cases hdue : due ≤ w.now + passed
    · rw [if_pos hdue] at hperm ⊢
      exact List.perm_singleton.mp hperm
    · rw [if_neg hdue] at hperm ⊢
      exact hperm.eq_nil
  · obtain ⟨htimer, hevent⟩ := h.after (Nat.le_of_not_lt hnow)
    rw [htimer, hevent hopen, List.filter_nil, List.map_nil, List.append_nil] at hperm
    rw [if_pos (by omega)]
    exact List.perm_singleton.mp hperm

/-- While time passes there remains one timer or posted event about the wait. -/
theorem Awaits.advance (h : w.Awaits stage q due millis) (passed : Nat) :
    (w.advance passed).Awaits stage q due millis := by
  have hopened : (w.advance passed).inbox.isSome = w.inbox.isSome := Option.isSome_map ..
  have hsleeping := h.sleeping_advance passed
  refine ⟨h.known, fun hbefore => ?_, fun hafter => ?_⟩
  · change w.now + passed < due at hbefore
    have hearly : ¬ due ≤ w.now + passed := Nat.not_le_of_lt hbefore
    rw [hsleeping, if_neg hearly]
    refine ⟨rfl, ?_⟩
    cases hinbox : w.inbox with
    | none => exact reported_advance_of_closed hinbox passed stage q.id
    | some events => rw [h.reported_advance (by rw [hinbox]; rfl), if_neg hearly]
  · change due ≤ w.now + passed at hafter
    rw [hsleeping, if_pos hafter, hopened]
    exact ⟨rfl, fun hopen => by rw [h.reported_advance hopen, if_pos hafter]⟩

/-- Where events are not taken any more the timer posts none. -/
theorem Awaits.close (h : w.Awaits stage q due millis) :
    ({ w with inbox := none } : World).Awaits stage q due millis where
  known := h.known
  before := fun hnow => ⟨(h.before hnow).1, rfl⟩
  after := fun hnow => ⟨(h.after hnow).1, fun hopen => by cases hopen⟩

/-- If the next event is about the wait, the time has come, and the event says how long it was. -/
theorem Awaits.of_head (h : w.Awaits stage q due millis) {passed : Nat}
    {rest : List ScheduledEvent} (hinbox : w.inbox = some (.timeout stage q.id passed :: rest)) :
    due ≤ w.now ∧ passed = millis := by
  have hmem : ScheduledEvent.timeout stage q.id passed ∈ w.reported stage q.id := by
    rw [World.reported, hinbox]
    exact List.mem_filter.mpr
      ⟨List.mem_cons_self, ScheduledEvent.isAbout_iff.mpr ⟨passed, rfl⟩⟩
  have hlate : due ≤ w.now := by
    by_contra hearly
    rw [(h.before (Nat.lt_of_not_le hearly)).2] at hmem
    cases hmem
  rw [(h.after hlate).2 (by rw [hinbox]; rfl), List.mem_singleton] at hmem
  exact ⟨hlate, (ScheduledEvent.timeout.inj hmem).2.2⟩

/-! ## The place of a posted event -/

/-- An event has been posted, and so many are to be handled before it. -/
def Queued (w : World) (e : ScheduledEvent) (n : Nat) : Prop :=
  ∃ front back, w.inbox = some (front ++ e :: back) ∧ front.length = n

variable {e : ScheduledEvent} {n : Nat}

/-- A turn in which no event is handled posts its own after the others. -/
theorem Queued.turned (h : w.Queued e n) (ht : w.Turned left t w')
    (hleft : ∀ events, left events = events) : w'.Queued e n := by
  obtain ⟨front, back, hinbox, hlength⟩ := h
  refine ⟨front, back ++ posted t.effects, ?_, hlength⟩
  rw [ht.inbox, hinbox, Option.map_some, hleft, List.append_assoc, List.cons_append]

/-- When an event is handled, those after it have one less before them. -/
theorem Queued.turned_tail (h : w.Queued e (n + 1)) (ht : w.Turned left t w')
    (hleft : ∀ events, left events = events.tail) : w'.Queued e n := by
  obtain ⟨front, back, hinbox, hlength⟩ := h
  cases front with
  | nil => cases hlength
  | cons first front =>
    refine ⟨front, back ++ posted t.effects, ?_, Nat.succ.inj hlength⟩
    rw [ht.inbox, hinbox, Option.map_some, hleft, List.cons_append, List.tail_cons,
      List.append_assoc, List.cons_append]

/-- The events of timers that run out come after the others. -/
theorem Queued.advance (h : w.Queued e n) (millis : Nat) : (w.advance millis).Queued e n := by
  obtain ⟨front, back, hinbox, hlength⟩ := h
  obtain ⟨events, hposts⟩ : ∃ events, (w.advance millis).inbox = w.inbox.map (· ++ events) :=
    ⟨_, rfl⟩
  refine ⟨front, back ++ events, ?_, hlength⟩
  rw [hposts, hinbox, Option.map_some, List.append_assoc, List.cons_append]

/-- Less events are before an event than are posted. -/
theorem exists_queued {events : List ScheduledEvent} (hinbox : w.inbox = some events)
    (he : e ∈ events) : ∃ n < events.length, w.Queued e n := by
  obtain ⟨front, back, rfl⟩ := List.append_of_mem he
  refine ⟨front.length, ?_, front, back, hinbox, rfl⟩
  rw [List.length_append, List.length_cons]
  omega

end World

end IntentRouter
