import IntentRouter.Bus

/-!
# What a subscriber receives

The bus keeps the newest events only. A subscriber that is never told of missed events receives what
has been published since it subscribed, in that order, each event once and none left out, however
slowly it reads; once there is nothing more to read it has received all of it.
-/

namespace IntentRouter

/-- The event, if one is received. -/
def Received.event? : Received → Option CatalogEvent
  | .event e => some e
  | _ => none

/-- No notice of missed events is among what has been received. -/
def Lossless (rs : List Received) : Prop := ∀ missed, .lagged missed ∉ rs

theorem Lossless.of_append {rs later : List Received} (h : Lossless (rs ++ later)) :
    Lossless rs ∧ Lossless later :=
  ⟨fun missed hmem => h missed (List.mem_append_left _ hmem),
    fun missed hmem => h missed (List.mem_append_right _ hmem)⟩

namespace Bus

variable {b : Bus} {start next after : Nat} {events : List CatalogEvent} {rs : List Received}

/-! ## Publishing -/

/-- The events have been published since so many had been, and those of them that are kept are the
newest. -/
structure Carries (b : Bus) (start : Nat) (events : List CatalogEvent) : Prop where
  /-- So many events have been published by now. -/
  published : b.published = start + events.length
  /-- What is kept has been published. -/
  bounded : b.kept.length ≤ b.published
  /-- From any number on that is kept, the events are kept that have been published from there. -/
  kept : ∀ n, start ≤ n → b.oldest ≤ n → n ≤ b.published →
    b.kept.drop (n - b.oldest) = events.drop (n - start)

theorem carries_fresh : fresh.Carries 0 [] where
  published := rfl
  bounded := Nat.le_refl 0
  kept _ _ _ _ := List.drop_nil.trans List.drop_nil.symm

/-- Whoever subscribes now waits for the events that are still to come. -/
theorem Carries.here (h : b.Carries start events) : b.Carries b.published [] where
  published := rfl
  bounded := h.bounded
  kept n hstart _ _ := by
    have hlength : b.kept.length ≤ n - b.oldest := by
      have hbounded := h.bounded
      unfold oldest
      omega
    rw [List.drop_eq_nil_of_le hlength, List.drop_nil]

/-- One event more. -/
theorem Carries.publish (h : b.Carries start events) (e : CatalogEvent) :
    (b.publish e).Carries start (events ++ [e]) := by
  have hpublished := h.published
  have hbounded := h.bounded
  -- So many of the events that are kept have to make room.
  obtain ⟨dropped, hdropped⟩ : ∃ k, k = (b.kept ++ [e]).length - capacity := ⟨_, rfl⟩
  have hkept : (b.publish e).kept = (b.kept ++ [e]).drop dropped := by rw [hdropped]; rfl
  have hnumber : (b.publish e).published = b.published + 1 := rfl
  have hlength : (b.publish e).kept.length = b.kept.length + 1 - dropped := by
    rw [hkept, List.length_drop, List.length_append, List.length_singleton]
  have hfew : dropped ≤ b.kept.length + 1 := by
    rw [List.length_append, List.length_singleton] at hdropped
    omega
  have holdest : (b.publish e).oldest = b.oldest + dropped := by
    unfold oldest
    rw [hnumber, hlength]
    omega
  refine ⟨?_, ?_, fun n hstart hold hle => ?_⟩
  · rw [hnumber, List.length_append, List.length_singleton]
    omega
  · rw [hnumber, hlength]
    omega
  · rw [holdest] at hold
    rw [hnumber] at hle
    have hplace : dropped + (n - (b.oldest + dropped)) = n - b.oldest := by omega
    rw [hkept, holdest, List.drop_drop, hplace]
    rcases Nat.lt_or_eq_of_le hle with hlt | rfl
    · have hold' : b.kept.drop (n - b.oldest) = events.drop (n - start) :=
        h.kept n hstart (by omega) (by omega)
      rw [List.drop_append_of_le_length (by unfold oldest; omega), hold',
        List.drop_append_of_le_length (by omega)]
    · rw [List.drop_eq_nil_of_le, List.drop_eq_nil_of_le]
      · rw [List.length_append, List.length_singleton]
        omega
      · rw [List.length_append, List.length_singleton]
        unfold oldest
        omega

/-- However many events more. -/
theorem Carries.publishAll (h : b.Carries start events) (more : List CatalogEvent) :
    (more.foldl Bus.publish b).Carries start (events ++ more) := by
  induction more generalizing b events with
  | nil => rwa [List.append_nil]
  | cons e more ih =>
    have hmore := ih (h.publish e)
    rwa [List.append_assoc, List.singleton_append] at hmore

/-! ## Receiving -/

/-- A subscriber gets from one place among the events to a later one, and unless it is told of
missed events it receives those in between. -/
structure Reads (b : Bus) (start : Nat) (events : List CatalogEvent) (next : Nat)
    (rs : List Received) (after : Nat) : Prop where
  /-- It does not go back. -/
  forward : next ≤ after
  /-- It does not get ahead of what has been published. -/
  bounded : after ≤ b.published
  /-- It receives what lies in between. -/
  between : Lossless rs →
    events.take (after - start) = events.take (next - start) ++ rs.filterMap Received.event?

theorem Reads.nothing (hle : next ≤ b.published) : b.Reads start events next [] next :=
  ⟨Nat.le_refl next, hle, fun _ => (List.append_nil _).symm⟩

theorem Reads.append {mid : Nat} {later : List Received} (h : b.Reads start events next rs mid)
    (h' : b.Reads start events mid later after) :
    b.Reads start events next (rs ++ later) after := by
  refine ⟨Nat.le_trans h.forward h'.forward, h'.bounded, fun hlossless => ?_⟩
  obtain ⟨hfirst, hlater⟩ := hlossless.of_append
  rw [h'.between hlater, h.between hfirst, List.filterMap_append, List.append_assoc]

/-- What else is published does not matter to what a subscriber has received. -/
theorem Reads.publishAll (h : b.Reads start events start rs next)
    (hcarries : b.Carries start events) (more : List CatalogEvent) :
    (more.foldl Bus.publish b).Reads start (events ++ more) start rs next := by
  have hbounded := h.bounded
  have hnow := hcarries.published
  have hlater := (hcarries.publishAll more).published
  rw [List.length_append] at hlater
  refine ⟨h.forward, by omega, fun hlossless => ?_⟩
  rw [List.take_append_of_le_length (by omega), Nat.sub_self, List.take_zero, h.between hlossless,
    Nat.sub_self, List.take_zero]

/-- What is kept at a place is what has been published there. -/
theorem Carries.getElem?_kept (h : b.Carries start events) (hstart : start ≤ next)
    (hold : b.oldest ≤ next) (hle : next ≤ b.published) :
    b.kept[next - b.oldest]? = events[next - start]? := by
  have hhead := congrArg List.head? (h.kept next hstart hold hle)
  rwa [List.head?_drop, List.head?_drop] at hhead

/-- There is nothing to read where the events end, and only there. -/
theorem Carries.kept_eq_none_iff (h : b.Carries start events) (hold : b.oldest ≤ next)
    (hle : next ≤ b.published) : b.kept[next - b.oldest]? = none ↔ next = b.published := by
  have hbounded := h.bounded
  rw [List.getElem?_eq_none_iff]
  unfold oldest at hold ⊢
  omega

/-- Receiving once. -/
theorem Carries.receive (h : b.Carries start events) (hstart : start ≤ next)
    (hle : next ≤ b.published) :
    b.Reads start events next [(b.receive next).1] (b.receive next).2 := by
  have hpublished := h.published
  unfold Bus.receive
  by_cases hlost : next < b.oldest
  · rw [if_pos hlost]
    refine ⟨Nat.le_of_lt hlost, Nat.sub_le .., fun hlossless => ?_⟩
    exact absurd List.mem_cons_self (hlossless (b.oldest - next))
  · rw [if_neg hlost]
    cases hnext : b.kept[next - b.oldest]? with
    | some e =>
      have hevent : events[next - start]? = some e :=
        (h.getElem?_kept hstart (Nat.not_lt.mp hlost) hle).symm.trans hnext
      have hlt := (List.getElem?_eq_some_iff.mp hevent).1
      refine ⟨Nat.le_succ next, by dsimp only; omega, fun _ => ?_⟩
      have hplace : next + 1 - start = next - start + 1 := by omega
      rw [hplace, List.take_add_one, hevent]
      rfl
    | none =>
      refine ⟨Nat.le_refl next, hle, fun _ => ?_⟩
      cases b.isOpen <;> exact (List.append_nil _).symm

/-- To receive up to some times and once more is to receive once, and then to go on if there has
been something to read. -/
theorem receiveMany_succ (b : Bus) (times next : Nat) :
    let first := b.receive next
    let more := b.receiveMany times first.2
    b.receiveMany (times + 1) next = ([first.1], first.2) ∨
      b.receiveMany (times + 1) next = (first.1 :: more.1, more.2) := by
  dsimp only
  rw [receiveMany]
  split
  · next hreceive => exact .inl (by rw [hreceive])
  · next hreceive => exact .inl (by rw [hreceive])
  · next hreceive => exact .inr (by rw [hreceive])

/-- Receiving up to so many times. -/
theorem Carries.receiveMany (h : b.Carries start events) (times : Nat) (hstart : start ≤ next)
    (hle : next ≤ b.published) :
    b.Reads start events next (b.receiveMany times next).1 (b.receiveMany times next).2 := by
  induction times generalizing next with
  | zero => exact .nothing hle
  | succ times ih =>
    have hfirst := h.receive hstart hle
    rcases b.receiveMany_succ times next with heq | heq
    · rwa [heq]
    · rw [heq]
      exact hfirst.append (ih (Nat.le_trans hstart hfirst.forward) hfirst.bounded)

/-- To receive once at most is to receive once. -/
theorem receiveMany_one (b : Bus) (next : Nat) :
    (b.receiveMany 1 next).1 = [(b.receive next).1] := by
  rcases b.receiveMany_succ 0 next with heq | heq
  · rw [heq]
  · rw [heq]
    rfl

/-- A subscriber that finds nothing to read is at the end of the events. -/
theorem Carries.next_eq_of_empty (h : b.Carries start events) (hle : next ≤ b.published)
    (hempty : (b.receive next).1 = .empty) : next = b.published := by
  unfold Bus.receive at hempty
  split at hempty
  · cases hempty
  · next hkept =>
    split at hempty
    · cases hempty
    · next hnone => exact (h.kept_eq_none_iff (Nat.not_lt.mp hkept) hle).mp hnone

end Bus

end IntentRouter
