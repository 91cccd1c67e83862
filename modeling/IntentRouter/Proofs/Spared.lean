import IntentRouter.Proofs.Visit

/-!
# What befalls one request spares the others

All requests share one list, four lanes and one listener. A report on a request and a step with
it go to the place of that request only: the other records stay as they are, the other names
stand where they stood and in the order in which they stood, and nothing that is registered or
set changes, however the operation ends.
-/

namespace IntentRouter

/-- Putting a record in place leaves the records under other names as they are. -/
theorem Request.filter_replaceIn (q : Request) (requests : List Request) :
    (q.replaceIn requests).filter (fun p => p.id ≠ q.id) =
      requests.filter fun p => p.id ≠ q.id := by
  have hkept : ((fun p : Request => decide (p.id ≠ q.id)) ∘ fun p => if p.id = q.id then q else p) =
      fun p => decide (p.id ≠ q.id) := by
    funext p
    by_cases he : p.id = q.id
    · rw [Function.comp_apply, if_pos he, he]
    · rw [Function.comp_apply, if_neg he]
  rw [replaceIn, List.filter_map, hkept]
  -- No record that is left bears the name that is replaced.
  refine (List.map_congr_left fun p hp => ?_).trans (List.map_id _)
  exact if_neg (of_decide_eq_true (List.mem_filter.mp hp).2)

namespace Router

variable {r s t : Router} {around : Surroundings} {p q : Request} {pass : Passage}
  {call : RouterCall} {stage : Stage} {id other : RequestId}

/-- Between two routers nothing has happened but to the request with the given name. -/
structure Spares (r : Router) (id : RequestId) (s : Router) : Prop where
  /-- The other requests have the same records. -/
  requests : (s.requests.filter fun q => q.id ≠ id) = r.requests.filter fun q => q.id ≠ id
  /-- The other names stand in the same lanes, in the same order. -/
  lanes : ∀ lane, (s.lanes.get lane).filter (· ≠ id) = (r.lanes.get lane).filter (· ≠ id)
  /-- The catalog is the same. -/
  catalog : s.catalog = r.catalog
  /-- The settings are the same. -/
  settings : s.settings = r.settings

namespace Spares

theorem refl (r : Router) (id : RequestId) : r.Spares id r := ⟨rfl, fun _ => rfl, rfl, rfl⟩

/-- A request under another name keeps its record. -/
theorem mem_iff (h : r.Spares id s) (hne : q.id ≠ id) : q ∈ s.requests ↔ q ∈ r.requests := by
  have hmem : q ∈ (s.requests.filter fun q => q.id ≠ id) ↔
      q ∈ r.requests.filter fun q => q.id ≠ id := by rw [h.requests]
  simpa only [List.mem_filter, decide_eq_true_eq, hne, ne_eq, not_false_eq_true, and_true]
    using hmem

/-- Another name stands in the same lanes. -/
theorem mem_lane_iff (h : r.Spares id s) (hne : other ≠ id) (lane : Lane) :
    other ∈ s.lanes.get lane ↔ other ∈ r.lanes.get lane := by
  have hmem : other ∈ (s.lanes.get lane).filter (· ≠ id) ↔
      other ∈ (r.lanes.get lane).filter (· ≠ id) := by rw [h.lanes]
  simpa only [List.mem_filter, decide_eq_true_eq, hne, ne_eq, not_false_eq_true, and_true]
    using hmem

/-- Another name is found in the same lane. -/
theorem laneOf?_eq (h : r.Spares id s) (hne : other ≠ id) :
    s.lanes.laneOf? other = r.lanes.laneOf? other :=
  Lanes.laneOf?_congr fun lane => h.mem_lane_iff hne lane

end Spares

/-! ## Reports and steps -/

/-- A request that is resumed is resumed alone. -/
theorem spares_resume (h : Coupled r.requests r.lanes) (hid : q.id = p.id) :
    r.Spares p.id (r.resume p q) where
  requests := hid ▸ q.filter_replaceIn r.requests
  lanes lane := by
    have hjoined := (r.lanes.parted p.state.lane p.id).filter_joined .main lane p.id
    exact hjoined.trans (Lanes.filter_parted h.once p.state.lane lane p.id)
  catalog := rfl
  settings := rfl

/-- A report spares all requests but its own, which it may find waiting or not. -/
theorem spares_report (around : Surroundings) (h : Coupled r.requests r.lanes)
    (hcall : call.wait? = some (stage, id)) : r.Spares id (r.perform around call).state := by
  by_cases hw : r.Waits stage id
  · obtain ⟨p, hp, rfl, hstage⟩ := hw
    obtain ⟨es, -, hperform⟩ := perform_of_waits around h hp hstage hcall
    obtain ⟨hbecomes, -, -⟩ := Request.resumedBy_spec (h.sound p hp) hstage hcall
    rw [hperform]
    exact spares_resume h hbecomes.alike.id
  · obtain ⟨note, -, hperform⟩ := perform_of_not_waits around h hw hcall
    rw [hperform]
    exact .refl r id

/-- A step spares all requests but the one it is made with, which it may leave waiting or not. -/
theorem Steps.spares (hs : r.Steps around p pass) (h : Coupled r.requests r.lanes) :
    r.Spares p.id (r.process around).state := by
  have hid := (hs.onWay h).id_eq
  have hparted := fun lane => Lanes.filter_parted h.once .main lane p.id
  rcases hs.waits_or_settled h with ⟨stage, hw⟩ | hq
  · rw [process_of_waits hs h hw]
    refine ⟨hid ▸ pass.request.filter_replaceIn r.requests, fun lane => ?_, rfl, rfl⟩
    have hjoined := (r.lanes.parted .main p.id).filter_joined stage.lane lane p.id
    exact hjoined.trans (hparted lane)
  · rw [process_of_settled hs h hq]
    refine ⟨?_, hparted, rfl, rfl⟩
    simp only [List.filter_filter, Bool.and_self]

/-- The listener after a step. -/
theorem Steps.listener_eq (hs : r.Steps around p pass) (h : Coupled r.requests r.lanes) :
    (r.process around).state.listener = pass.listener := by
  rcases hs.waits_or_settled h with ⟨stage, hw⟩ | hq
  · rw [process_of_waits hs h hw]
  · rw [process_of_settled hs h hq]

/-- The request that a call concerns: the one it reports on, or the one it makes a step with. -/
def concerned? (r : Router) : RouterCall → Option RequestId
  | .process | .handle .process => r.lanes.main.head?
  | call => call.wait?.map Prod.snd

/-- A call that concerns a request is a report on it or a step with it. -/
theorem concerned_cases (h : Coupled r.requests r.lanes) (around : Surroundings)
    (hcall : r.concerned? call = some id) :
    (∃ stage, call.wait? = some (stage, id)) ∨
      call.wait? = none ∧ (r.perform around call).state = (r.process around).state ∧
        ∃ p pass, r.Steps around p pass ∧ p.id = id := by
  have hstep : r.lanes.main.head? = some id → ∃ p pass, r.Steps around p pass ∧ p.id = id := by
    intro hnext
    rcases idle_or_steps h around with hmain | ⟨p, pass, hs⟩
    · rw [hmain] at hnext
      cases hnext
    · exact ⟨p, pass, hs, Option.some.inj (hs.next.symm.trans hnext)⟩
  have hreport : call.wait?.map Prod.snd = some id → ∃ stage, call.wait? = some (stage, id) := by
    intro hwait
    obtain ⟨⟨stage, id'⟩, hsome, rfl⟩ := Option.map_eq_some_iff.mp hwait
    exact ⟨stage, hsome⟩
  cases call with
  | process => exact .inr ⟨rfl, rfl, hstep hcall⟩
  | handle event =>
    cases event with
    | process => exact .inr ⟨rfl, rfl, hstep hcall⟩
    | timeout stage id millis => exact .inl (hreport hcall)
  | _ => exact .inl (hreport hcall)

end Router

namespace Run

/-- After any moves, a call that concerns one request leaves every other request in flight with the
record it has, in the lane in which it stands, and the other names of each lane in their order. It
leaves the catalog and the settings as they are, and the listener as well, unless it is a step that
finds the listener gone and detaches it. -/
theorem others_spared (run : Run) (n : Nat) (around : Surroundings) {call : RouterCall}
    {id : RequestId} (hcall : (run.router n).concerned? call = some id) :
    let r := run.router n
    let s := (r.perform around call).state
    r.Spares id s ∧
      (∀ q ∈ r.requests, q.id ≠ id →
        q ∈ s.requests ∧ s.lanes.laneOf? q.id = r.lanes.laneOf? q.id) ∧
      around.KeepsListener r.listener s.listener ∧
      (call.wait?.isSome = true → s.listener = r.listener) := by
  intro r s
  have hcoupled : Coupled r.requests r.lanes := run.coupled n
  obtain ⟨hspares, hkeeps, hsame⟩ : r.Spares id s ∧ around.KeepsListener r.listener s.listener ∧
      (call.wait?.isSome = true → s.listener = r.listener) := by
    rcases Router.concerned_cases hcoupled around hcall with
      ⟨stage, hwait⟩ | ⟨hnone, hstate, p, pass, hs, rfl⟩
    · obtain ⟨requests, lanes, -, hframe, -⟩ := Router.report_frame around hcoupled hwait
      have hlistener : s.listener = r.listener := by
        change (r.perform around call).state.listener = r.listener
        rw [hframe]
      exact ⟨Router.spares_report around hcoupled hwait, .inl hlistener, fun _ => hlistener⟩
    · have hs' : s = (r.process around).state := hstate
      rw [hs', hs.listener_eq hcoupled, hnone]
      exact ⟨hs.spares hcoupled, hs.keepsListener, fun hsome => by cases hsome⟩
  exact ⟨hspares, fun q hq hne => ⟨(hspares.mem_iff hne).mpr hq, hspares.laneOf?_eq hne⟩,
    hkeeps, hsame⟩

/-- While one of two requests is taken through a step, and when it is replied to later, the other
keeps its record and its place. -/
theorem others_spared_rush :
    (rush.router 4).concerned? .process = some (.ofNat 1) ∧
      (∀ q ∈ (rush.router 4).requests, q.id = .ofNat 2 →
        q ∈ ((rush.router 4).perform office .process).state.requests) ∧
      (∀ q ∈ (rush.router 6).requests, q.id = .ofNat 2 →
        q ∈ ((rush.router 6).perform office
          (.reply "printer" (.ofNat 1) false .empty)).state.requests) ∧
      ((rush.router 6).perform office
        (.reply "printer" (.ofNat 1) false .empty)).state.lanes.sent = [.ofNat 2] := by
  have hne : RequestId.ofNat 2 ≠ .ofNat 1 := by decide
  have hstep : (rush.router 4).concerned? .process = some (.ofNat 1) := rfl
  have hreply : (rush.router 6).concerned? (.reply "printer" (.ofNat 1) false .empty) =
      some (.ofNat 1) := rfl
  refine ⟨hstep, fun q hq hid => ?_, fun q hq hid => ?_, rfl⟩
  · exact ((rush.others_spared 4 office hstep).2.1 q hq (hid ▸ hne)).1
  · exact ((rush.others_spared 6 office hreply).2.1 q hq (hid ▸ hne)).1

end Run

end IntentRouter
