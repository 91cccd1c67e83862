import IntentRouter.Proofs.Subscription

/-!
# Subscribers that lag

The bus keeps the newest sixty-four events. A subscriber that has left more of them unread is told
how many it has missed and goes on with the oldest event that is kept. Events are published in
pairs, and the bus has room for pairs: wherever a subscriber has stopped, between the two events of
a pair say, it goes on with the first event of a pair, which says what has changed.
-/

namespace IntentRouter

/-! ## Getting past events -/

/-- How many events have been missed, if that is what is received. -/
def Received.missed? : Received → Option Nat
  | .lagged missed => some missed
  | _ => none

/-- How many events have been missed altogether, as far as that has been told. -/
def missedIn (rs : List Received) : Nat := (rs.filterMap Received.missed?).sum

/-- How many events a subscriber has got past, by receiving them or by being told that it has
missed them. -/
def passedIn (rs : List Received) : Nat := (rs.filterMap Received.event?).length + missedIn rs

theorem passedIn_append (rs later : List Received) :
    passedIn (rs ++ later) = passedIn rs + passedIn later := by
  simp only [passedIn, missedIn, List.filterMap_append, List.length_append, List.sum_append]
  omega

theorem passedIn_lagged (missed : Nat) : passedIn [.lagged missed] = missed :=
  (Nat.zero_add _).trans (Nat.add_zero missed)

/-- What is received until events have been missed again. -/
def untilMissed (rs : List Received) : List Received := rs.takeWhile fun r => r.missed?.isNone

/-- From a place on each event is received where it has been published, and events are missed up to
where a pair begins. -/
def Trail (events : List CatalogEvent) : Nat → List Received → Prop
  | _, [] => True
  | place, .event e :: rs => events[place]? = some e ∧ Trail events (place + 1) rs
  | place, .lagged missed :: rs => 2 ∣ place + missed ∧ Trail events (place + missed) rs
  | place, .empty :: rs => Trail events place rs
  | place, .closed :: rs => Trail events place rs

variable {events changes : List CatalogEvent} {place : Nat} {rs later : List Received}

theorem trail_append :
    Trail events place (rs ++ later) ↔
      Trail events place rs ∧ Trail events (place + passedIn rs) later := by
  induction rs generalizing place with
  | nil => exact (and_iff_right trivial).symm
  | cons r rs ih =>
    cases r with
    | event e =>
      have hpassed : passedIn (.event e :: rs) = 1 + passedIn rs := passedIn_append [.event e] rs
      rw [List.cons_append, Trail, Trail, ih, and_assoc, hpassed, Nat.add_assoc]
    | lagged missed =>
      have hpassed : passedIn (.lagged missed :: rs) = missed + passedIn rs := by
        have happend := passedIn_append [.lagged missed] rs
        rwa [passedIn_lagged] at happend
      rw [List.cons_append, Trail, Trail, ih, and_assoc, hpassed, Nat.add_assoc]
    | empty => exact ih
    | closed => exact ih

/-- It does not matter what is published later. -/
theorem Trail.append_events (h : Trail events place rs) (more : List CatalogEvent) :
    Trail (events ++ more) place rs := by
  induction rs generalizing place with
  | nil => trivial
  | cons r rs ih =>
    cases r with
    | event e =>
      have hlt := (List.getElem?_eq_some_iff.mp h.1).1
      exact ⟨(List.getElem?_append_left hlt).trans h.1, ih h.2⟩
    | lagged missed => exact ⟨h.1, ih h.2⟩
    | empty => exact ih h
    | closed => exact ih h

/-- Until events are missed the next ones are received in their order. -/
theorem Trail.isPrefix (h : Trail events place rs) :
    (untilMissed rs).filterMap Received.event? <+: events.drop place := by
  induction rs generalizing place with
  | nil => exact List.nil_prefix
  | cons r rs ih =>
    cases r with
    | event e =>
      have hdrop : events.drop place = e :: events.drop (place + 1) := by
        rw [List.drop_eq_getElem?_toList_append, h.1]
        rfl
      rw [hdrop]
      exact List.cons_prefix_cons.mpr ⟨rfl, ih h.2⟩
    | lagged missed => exact List.nil_prefix
    | empty => exact ih h
    | closed => exact ih h

/-- Without the first pairs there are the pairs of the later changes. -/
theorem drop_announcements (changes : List CatalogEvent) (k : Nat) :
    (changes.flatMap CatalogEvent.announcement).drop (2 * k) =
      (changes.drop k).flatMap CatalogEvent.announcement := by
  induction changes generalizing k with
  | nil => rw [List.drop_nil, List.flatMap_nil, List.drop_nil]
  | cons change changes ih =>
    cases k with
    | zero => rfl
    | succ k => exact ih k

theorem length_announcements (changes : List CatalogEvent) :
    (changes.flatMap CatalogEvent.announcement).length = 2 * changes.length := by
  induction changes with
  | nil => rfl
  | cons change changes ih =>
    rw [List.flatMap_cons, List.length_append, ih, List.length_cons]
    exact Nat.add_comm 2 (2 * changes.length)

/-- From the beginning of a pair on, the first event that is received says what has changed, even
if others are missed before it. -/
theorem Trail.isChange_head (h : Trail (changes.flatMap CatalogEvent.announcement) place rs)
    (hpair : 2 ∣ place) (hchanges : ∀ change ∈ changes, change.isChange = true) :
    ∀ e ∈ (rs.filterMap Received.event?).head?, e.isChange = true := by
  induction rs generalizing place with
  | nil => nofun
  | cons r rs ih =>
    cases r with
    | event e =>
      obtain ⟨k, rfl⟩ := hpair
      intro e' he'
      obtain rfl : e = e' := Option.some.inj he'
      have hhead : ((changes.drop k).flatMap CatalogEvent.announcement).head? = some e := by
        rw [← drop_announcements, List.head?_drop]
        exact h.1
      cases hdrop : changes.drop k with
      | nil =>
        rw [hdrop] at hhead
        cases hhead
      | cons change rest =>
        rw [hdrop] at hhead
        obtain rfl : change = e := Option.some.inj hhead
        exact hchanges change (List.mem_of_mem_drop (hdrop ▸ List.mem_cons_self))
    | lagged missed => exact ih h.2 h.1
    | empty => exact ih h hpair
    | closed => exact ih h hpair

/-- After each notice of missed events a pair begins: the first event that is received then says
what has changed, and until events are missed again the pairs from there on follow. -/
theorem Trail.resumes {front back : List Received} {missed : Nat}
    (h : Trail (changes.flatMap CatalogEvent.announcement) 0 (front ++ .lagged missed :: back))
    (hchanges : ∀ change ∈ changes, change.isChange = true) :
    (∀ e ∈ (back.filterMap Received.event?).head?, e.isChange = true) ∧
      ∃ k, passedIn front + missed = 2 * k ∧
        (untilMissed back).filterMap Received.event? <+:
          (changes.drop k).flatMap CatalogEvent.announcement := by
  obtain ⟨hpair, hback⟩ := (trail_append.mp h).2
  rw [Nat.zero_add] at hpair hback
  have ⟨k, hk⟩ := hpair
  have hprefix := hback.isPrefix
  rw [hk, drop_announcements] at hprefix
  exact ⟨hback.isChange_head hpair hchanges, k, hk, hprefix⟩

/-! ## Reading from the bus -/

namespace Bus

variable {b : Bus} {start next : Nat}

/-- The bus keeps as many events as it has room for. -/
def IsFull (b : Bus) : Prop := b.kept.length = min capacity b.published

theorem isFull_fresh : fresh.IsFull := rfl

theorem IsFull.publish (h : b.IsFull) (e : CatalogEvent) : (b.publish e).IsFull := by
  unfold IsFull at h ⊢
  simp only [Bus.publish, List.length_drop, List.length_append, List.length_singleton]
  omega

theorem IsFull.publishAll (h : b.IsFull) (more : List CatalogEvent) :
    (more.foldl Bus.publish b).IsFull := by
  induction more generalizing b with
  | nil => exact h
  | cons e more ih => exact ih (h.publish e)

theorem IsFull.oldest_eq (h : b.IsFull) : b.oldest = b.published - capacity := by
  rw [oldest, h]
  omega

/-- Events are missed where they are older than those that are kept, and only there. -/
theorem receive_eq_lagged_iff {missed : Nat} :
    (b.receive next).1 = .lagged missed ↔ next < b.oldest ∧ missed = b.oldest - next := by
  unfold receive
  by_cases hlost : next < b.oldest
  · rw [if_pos hlost]
    exact ⟨fun h => ⟨hlost, (Received.lagged.inj h).symm⟩, fun h => congrArg _ h.2.symm⟩
  · rw [if_neg hlost]
    refine ⟨fun h => ?_, fun h => absurd h.1 hlost⟩
    split at h
    · cases h
    · dsimp only at h
      split at h <;> cases h

/-- Whoever has received something waits for none that is not kept. -/
theorem oldest_le_receive (b : Bus) (next : Nat) : b.oldest ≤ (b.receive next).2 := by
  unfold receive
  split
  · exact Nat.le_refl _
  · next hkept =>
    have hle := Nat.not_lt.mp hkept
    split
    · exact Nat.le_succ_of_le hle
    · exact hle

/-- From what is kept nothing is missed. -/
theorem lossless_receiveMany (times : Nat) (h : b.oldest ≤ next) :
    Lossless (b.receiveMany times next).1 := by
  induction times generalizing next with
  | zero => exact fun _ => List.not_mem_nil
  | succ times ih =>
    have hfirst : Lossless [(b.receive next).1] := fun missed hmem =>
      Nat.not_lt.mpr h (receive_eq_lagged_iff.mp (List.mem_singleton.mp hmem).symm).1
    rcases b.receiveMany_succ times next with heq | heq
    · rwa [heq]
    · rw [heq]
      exact fun missed hmem => (List.mem_cons.mp hmem).elim
        (fun hr => hfirst missed (List.mem_singleton.mpr hr)) (ih (oldest_le_receive b next) missed)

/-- If anything is received, events can have been missed before it only. -/
theorem receiveMany_eq_cons {times : Nat} (h : times ≠ 0) (b : Bus) (next : Nat) :
    ∃ rest, (b.receiveMany times next).1 = (b.receive next).1 :: rest ∧ Lossless rest := by
  obtain ⟨times, rfl⟩ := Nat.exists_eq_succ_of_ne_zero h
  rcases b.receiveMany_succ times next with heq | heq
  · exact ⟨[], by rw [heq], fun _ => List.not_mem_nil⟩
  · exact ⟨_, by rw [heq], lossless_receiveMany times (oldest_le_receive b next)⟩

/-- Receiving once leaves a trail to where the subscriber gets. -/
theorem Carries.trail_receive (h : b.Carries start (changes.flatMap CatalogEvent.announcement))
    (full : b.IsFull) (hle : start + place ≤ b.published) :
    let r := b.receive (start + place)
    Trail (changes.flatMap CatalogEvent.announcement) place [r.1] ∧
      r.2 = start + (place + passedIn [r.1]) := by
  have hpublished := h.published
  have holdest := full.oldest_eq
  rw [length_announcements] at hpublished
  unfold Bus.receive
  by_cases hlost : start + place < b.oldest
  · rw [if_pos hlost]
    dsimp only
    rw [passedIn_lagged]
    refine ⟨⟨?_, trivial⟩, by omega⟩
    -- Both what has been published and what is kept is an even number of events.
    refine ⟨changes.length - 32, ?_⟩
    unfold capacity at holdest
    omega
  · rw [if_neg hlost]
    have hsame := h.getElem?_kept (Nat.le_add_right ..) (Nat.not_lt.mp hlost) hle
    rw [Nat.add_sub_cancel_left] at hsame
    cases hnext : b.kept[start + place - b.oldest]? with
    | some e => exact ⟨⟨hsame.symm.trans hnext, trivial⟩, rfl⟩
    | none => cases b.isOpen <;> exact ⟨trivial, rfl⟩

/-- So does receiving up to so many times. -/
theorem Carries.trail_receiveMany (h : b.Carries start (changes.flatMap CatalogEvent.announcement))
    (full : b.IsFull) (times : Nat) (hle : start + place ≤ b.published) :
    let reading := b.receiveMany times (start + place)
    Trail (changes.flatMap CatalogEvent.announcement) place reading.1 ∧
      reading.2 = start + (place + passedIn reading.1) := by
  induction times generalizing place with
  | zero => exact ⟨trivial, rfl⟩
  | succ times ih =>
    obtain ⟨htrail, hafter⟩ := h.trail_receive full hle
    have hbounded := (h.receive (Nat.le_add_right ..) hle).bounded
    rcases b.receiveMany_succ times (start + place) with heq | heq
    · rw [heq]
      exact ⟨htrail, hafter⟩
    · rw [hafter] at hbounded heq
      obtain ⟨hlater, hplace⟩ := ih hbounded
      rw [heq]
      refine ⟨trail_append.mpr ⟨htrail, hlater⟩, ?_⟩
      dsimp only
      rw [hplace, Nat.add_assoc place, ← passedIn_append]
      rfl

end Bus

/-! ## Subscribers -/

/-- A subscriber has left a trail from where it subscribed to where it has got. -/
structure Lags (start : Nat) (changes : List CatalogEvent) (subscriber : Nat) (rs : List Received)
    (w : World) : Prop where
  /-- The bus keeps what it has room for. -/
  full : w.bus.IsFull
  /-- The subscriber has got past so many events. -/
  place : w.subscribers[subscriber]? = some (start + passedIn rs)
  /-- They have been published. -/
  bounded : start + passedIn rs ≤ w.bus.published
  /-- It has received what belongs there. -/
  trail : Trail (changes.flatMap CatalogEvent.announcement) 0 rs

/-- Whatever is done, a subscriber goes on with its trail. -/
theorem Lags.perform {start subscriber : Nat} {known : List Intent} {w : World}
    (h : Lags start changes subscriber rs w) (hannounced : Announced known start changes w)
    {op : Op} (hsingle : op.isSingle = true) :
    let t := World.perform op w
    Lags start (changes ++ (op.change? t.value).toList) subscriber
      (rs ++ op.received subscriber t.value) t.state := by
  intro t
  have hheard : w.Heard op t := World.heard_perform hannounced.keyed hsingle
  have hbus := hheard.bus
  rcases hheard.delivers h.place with ⟨hnothing, hplace⟩ | ⟨hnone, times, hreceived, hplace⟩
  · rw [hnothing, List.append_nil]
    have hbefore := hannounced.carries.published
    have hafter : t.state.bus.published = _ := (hannounced.perform hsingle).carries.published
    have hbounded := h.bounded
    refine ⟨hbus ▸ h.full.publishAll _, hplace, ?_, ?_⟩
    · rw [List.flatMap_append, List.length_append] at hafter
      omega
    · rw [List.flatMap_append]
      exact h.trail.append_events _
  · rw [hnone] at hbus
    have hsame : t.state.bus = w.bus := hbus
    obtain ⟨htrail, hafter⟩ := hannounced.carries.trail_receiveMany h.full times h.bounded
    have hbounded := (hannounced.carries.receiveMany times (Nat.le_add_right ..) h.bounded).bounded
    rw [hafter, ← passedIn_append, ← hreceived] at hbounded hplace
    rw [hnone, Option.toList_none, List.append_nil]
    refine ⟨hsame ▸ h.full, hplace, hsame ▸ hbounded, trail_append.mpr ⟨h.trail, ?_⟩⟩
    rw [hreceived, Nat.zero_add]
    exact htrail

/-! ## Subscriptions -/

namespace Subscription

/-- How many events are left that the subscriber has yet to read. -/
def unread (s : Subscription) : Nat := s.now.bus.published - s.now.subscribers.getD s.subscriber 0

theorem isFull_before (s : Subscription) : s.before.bus.IsFull := by
  have hunrolls := unrolls.2 s.earlier
  have hbefore := (World.performEach_keeps
    (P := fun changes _ w => Announced [] 0 changes w ∧ w.bus.IsFull) 0 []
    (fun h hop => ⟨h.1.perform hop, (World.heard_perform h.1.keyed hop).bus ▸ h.2.publishAll _⟩)
    ⟨s.announced_origin, Bus.isFull_fresh⟩ hunrolls.single).2
  rwa [hunrolls.same] at hbefore

/-- Since the subscription the subscriber has left its trail. -/
theorem lags_now (s : Subscription) :
    Lags s.before.bus.published s.changes s.subscriber s.received s.now := by
  have hunrolls := unrolls.2 s.later
  have hopened : Lags s.before.bus.published [] s.subscriber [] s.opened :=
    ⟨s.isFull_before, List.getElem?_concat_length, Nat.le_refl _, trivial⟩
  have hnow := (World.performEach_keeps
    (P := fun changes rs w => Announced s.before.router.catalog.intents s.before.bus.published
      changes w ∧ Lags s.before.bus.published changes s.subscriber rs w)
    s.subscriber [] (fun h hop => ⟨h.1.perform hop, h.2.perform h.1 hop⟩)
    ⟨s.announced_opened, hopened⟩ hunrolls.single).2
  rwa [hunrolls.same] at hnow

/-- The events that are left are those that the subscriber has not got past. -/
theorem unread_eq (s : Subscription) :
    s.unread = s.now.bus.published - (s.opened.bus.published + passedIn s.received) := by
  rw [unread, List.getD_eq_getElem?_getD, s.lags_now.place]
  rfl

/-- Events are missed if more are left than the bus keeps, and then just those. -/
theorem receive_now (s : Subscription) {limit : Option Nat} (h : limit ≠ some 0) :
    ∃ r rest, (World.perform (.receive s.subscriber limit) s.now).value =
        .received (some (r :: rest)) ∧
      (∀ missed, r = .lagged missed ↔ 64 < s.unread ∧ missed = s.unread - 64) ∧
      Lossless rest := by
  have hlags := s.lags_now
  have htimes : limit.getD (s.now.bus.kept.length + 2) ≠ 0 := by
    cases limit with
    | none => exact Nat.succ_ne_zero _
    | some times => exact fun hzero => h (congrArg some hzero)
  obtain ⟨rest, hreading, hlossless⟩ := Bus.receiveMany_eq_cons htimes s.now.bus
    (s.before.bus.published + passedIn s.received)
  have hvalue : (World.perform (.receive s.subscriber limit) s.now).value = .received
      (some ((s.now.bus.receive (s.before.bus.published + passedIn s.received)).1 :: rest)) := by
    rw [World.perform, World.receive_eq hlags.place, hreading]
    rfl
  refine ⟨_, rest, hvalue, fun missed => ?_, hlossless⟩
  have hunread := s.unread_eq
  have hopened : s.opened.bus.published = s.before.bus.published := rfl
  have hbounded := hlags.bounded
  rw [Bus.receive_eq_lagged_iff, hlags.full.oldest_eq]
  unfold Bus.capacity
  omega

/-- Whatever is done, a subscriber that reads is told of missed events if more than sixty-four have
been published that it has yet to read, of as many as are more than that, and otherwise it is not.
The events that it has received, those that it has been told it has missed and those that it has
yet to read are together all that have been published since it subscribed, two for each change.
After each notice of missed events the first event that it receives says what has changed; and until
events are missed again it receives the events of whole pairs from there on, in their order, each
event that says what has changed before the one that says that the list has. -/
theorem resumes_at_change (s : Subscription) :
    (∀ limit, limit ≠ some 0 → ∃ r rest,
      (World.perform (.receive s.subscriber limit) s.now).value = .received (some (r :: rest)) ∧
        (∀ missed, r = .lagged missed ↔ 64 < s.unread ∧ missed = s.unread - 64) ∧
        Lossless rest) ∧
      s.opened.bus.published + (s.events.length + missedIn s.received + s.unread) =
        s.now.bus.published ∧
      s.now.bus.published = s.opened.bus.published + 2 * s.changes.length ∧
      (∀ change ∈ s.changes, change.isChange = true) ∧
      ∀ front missed back, s.received = front ++ .lagged missed :: back →
        (∀ e ∈ (back.filterMap Received.event?).head?, e.isChange = true) ∧
          ∃ k, (front.filterMap Received.event?).length + missedIn front + missed = 2 * k ∧
            (untilMissed back).filterMap Received.event? <+:
              (s.changes.drop k).flatMap fun change => [change, .listChanged] := by
  have hannounced := s.announced_now
  have hlags := s.lags_now
  refine ⟨fun limit h => s.receive_now h, ?_, ?_, hannounced.isChange,
    fun front missed back h => ?_⟩
  · have hunread := s.unread_eq
    have hbounded : s.opened.bus.published + passedIn s.received ≤ s.now.bus.published :=
      hlags.bounded
    have hpassed : passedIn s.received = s.events.length + missedIn s.received := rfl
    omega
  · have hpublished := hannounced.carries.published
    rw [length_announcements] at hpublished
    exact hpublished
  · have htrail := hlags.trail
    rw [h] at htrail
    exact htrail.resumes hannounced.isChange

/-- A subscriber reads one event of a pair. Then there are so many changes that it misses the other
one and two pairs more. -/
def dozing : Subscription where
  settings := .standard
  earlier := [.catalog (.addApplication "printer")]
  later := [.catalog (.add (.plain "scan" "printer")), .receive 0 (some 1),
    .again 17 [.catalog (.add (.plain "print" "printer")),
      .catalog (.remove (.plain "print" "printer"))],
    .receive 0 (some 3)]

set_option maxRecDepth 8000 in
/-- It goes on with the first event of a pair, and misses no others. -/
theorem resumes_at_change_dozing :
    dozing.received = [.event (.added (.plain "scan" "printer")), .lagged 5,
        .event (.added (.plain "print" "printer")), .event .listChanged] ∧
      dozing.unread = 62 ∧
      (∃ r rest, (World.perform (.receive dozing.subscriber none) dozing.now).value =
          .received (some (r :: rest)) ∧
        (∀ missed, r = .lagged missed ↔ 64 < dozing.unread ∧ missed = dozing.unread - 64) ∧
        Lossless rest) ∧
      ∃ k, 1 + 5 = 2 * k ∧ [.added (.plain "print" "printer"), .listChanged] <+:
        (dozing.changes.drop k).flatMap fun change => [change, .listChanged] := by
  have hreceived : dozing.received = [.event (.added (.plain "scan" "printer")), .lagged 5,
      .event (.added (.plain "print" "printer")), .event .listChanged] := rfl
  obtain ⟨hreads, -, -, -, hresumes⟩ := resumes_at_change dozing
  exact ⟨hreceived, rfl, hreads none nofun, (hresumes [_] 5 [_, _] hreceived).2⟩

end Subscription

end IntentRouter
