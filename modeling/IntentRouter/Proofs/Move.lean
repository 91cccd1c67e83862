import IntentRouter.Proofs.Step

/-!
# Admission and released requests

The operations that are left: admission, and the release of all requests of an
application that has started. With these every call of a router and of its catalog
does one of the six things to the requests in flight.
-/

namespace IntentRouter

open Effect

/-- Screening reports on no request. -/
theorem Screening.subject?_report (h : Host) (requester : String) (intents : List Intent) :
    ∀ held, ∀ e ∈ (Screening.run h requester held intents).report, e.subject? = none := by
  have hlook : ∀ e ∈ h.lookReport, e.subject? = none := by
    unfold Host.lookReport
    split
    · exact List.forall_mem_singleton.mpr rfl
    · exact List.forall_mem_nil _
  induction intents with
  | nil => exact fun _ => List.forall_mem_nil _
  | cons i rest ih =>
    intro held
    unfold Screening.run
    by_cases hown : i.owner = requester
    · rw [if_pos hown]
      exact ih held
    rw [if_neg hown]
    by_cases hhidden : i.visibility = .owner
    · rw [if_pos hhidden]
      exact List.forall_mem_cons.mpr ⟨rfl, ih held⟩
    rw [if_neg hhidden]
    by_cases hopen : i.requiredCapabilities.isEmpty = true
    · rw [if_pos hopen]
      exact ih held
    rw [if_neg hopen]
    cases held with
    | some granted =>
      simp only
      split
      · exact List.forall_mem_append.mpr ⟨List.forall_mem_nil _, ih (some granted)⟩
      · exact List.forall_mem_cons.mpr ⟨rfl, ih (some granted)⟩
    | none =>
      have hothers := ih (some (h.capabilities requester))
      simp only
      split
      · exact List.forall_mem_append.mpr ⟨hlook, hothers⟩
      · have hguarded : ∀ e ∈ [Entry.guardedIntent i.name], e.subject? = none :=
          List.forall_mem_singleton.mpr rfl
        exact List.forall_mem_append.mpr ⟨List.forall_mem_append.mpr ⟨hlook, hguarded⟩, hothers⟩

namespace Router

variable {r : Router} {around : Surroundings} {p q : Request} {id : RequestId} {stage : Stage}

/-- Assessing a submission reports on no request, and what it lets pass has candidates. -/
theorem assess_spec (r : Router) (host : Host) (s : Submission) :
    Silent ((r.assess host s).2.map .note) ∧
      ∀ candidates, (r.assess host s).1 = .ok candidates → candidates ≠ [] := by
  unfold assess
  by_cases hrun : ¬ host.isRunning s.requester
  · rw [if_pos hrun]
    exact ⟨Silent.nil, fun _ hc => by cases hc⟩
  · rw [if_neg hrun]
    cases answering r.catalog s with
    | nil => exact ⟨Silent.nil, fun _ hc => by cases hc⟩
    | cons i rest =>
      have hreport : Silent ((host.screen s.requester (i :: rest)).report.map .note) :=
        silent_map_note (Screening.subject?_report host s.requester (i :: rest) none)
      simp only
      cases hvisible : (host.screen s.requester (i :: rest)).visible with
      | nil => exact ⟨hreport, fun _ hc => by cases hc⟩
      | cons first others =>
        refine ⟨hreport, ?_⟩
        intro candidates hc
        cases hc
        exact List.cons_ne_nil first others

/-- A submission with candidates is admitted and counted; any other is refused and counted. -/
theorem submit_cases (r : Router) (around : Surroundings) (id : RequestId) (now : Timestamp)
    (s : Submission) :
    (∃ candidates lanes, (r.assess around.host s).1 = .ok candidates ∧
      let q := Request.admitted id now s.requester s.intentId candidates s.parameters
      (r.submit around id now s).value = .ok q ∧
        (r.submit around id now s).state =
          { r with
            requests := r.requests ++ [q]
            lanes := lanes
            counters := { r.counters with submitted := r.counters.submitted + 1 } }) ∨
      ∃ reason, (r.submit around id now s).value = .error reason ∧
        (r.submit around id now s).state =
          { r with counters := { r.counters with rejected := r.counters.rejected + 1 } } := by
  cases hdecision : (r.assess around.host s).1 with
  | error reason =>
    refine .inr ⟨reason, ?_⟩
    simp only [submit, hdecision, and_self]
  | ok candidates =>
    obtain ⟨lanes, hjoin⟩ := exists_lanes_joinMain
      { r with
        requests := r.requests ++
          [.admitted id now s.requester s.intentId candidates s.parameters]
        counters := { r.counters with submitted := r.counters.submitted + 1 } } around id
    refine .inl ⟨candidates, lanes, rfl, ?_⟩
    simp only [submit, hdecision, Turn.after, Turn.map, hjoin, and_self]

/-- A request that is new in flight joins the main lane. -/
theorem changes_admitted (around : Surroundings) (h : Coupled r.requests r.lanes) (hq : q.Sound)
    (hs : q.state = .received) (fresh : ∀ p ∈ r.requests, p.id ≠ q.id) {left : Router}
    {before : List Effect} (hrequests : left.requests = r.requests ++ [q])
    (hlanes : left.lanes = r.lanes) (hsilent : Silent before) :
    r.Changes around (left.joinMain around q.id).state
      (before ++ (left.joinMain around q.id).effects) none (some q) := by
  have habsent := h.absent_of_fresh fresh
  have hcoupled := h.enter hq (by rw [hs]; rfl) fresh
  have hshows := (joinMain_shows left around q.id).after_silent hsilent
  rw [joinMain_state around (hlanes ▸ habsent), Changes]
  simp only [hrequests, hlanes]
  exact ⟨hcoupled, .admitted q hs hq hshows⟩

/-- A submission is admitted under a fresh name, or refused. -/
theorem changes_submit (h : Coupled r.requests r.lanes) (id : RequestId) (now : Timestamp)
    (s : Submission)
    (fresh : ∀ q, (r.submit around id now s).value.toOption = some q →
      ∀ p ∈ r.requests, p.id ≠ q.id) :
    r.Changes around (r.submit around id now s).state (r.submit around id now s).effects none
      (r.submit around id now s).value.toOption := by
  obtain ⟨hsilent, hcandidates⟩ := assess_spec r around.host s
  have hreport : Silent (.note (.incoming s.intentId s.requester (s.target.getD "")) ::
      (r.assess around.host s).2.map .note) := by
    have hincoming : Silent [.note (.incoming s.intentId s.requester (s.target.getD ""))] :=
      ⟨rfl, rfl, rfl, rfl⟩
    exact hincoming.append hsilent
  cases hdecision : (r.assess around.host s).1 with
  | error reason =>
    simp only [submit, hdecision]
    exact ⟨h, .still (hreport.before_silent ⟨rfl, rfl, rfl, rfl⟩)⟩
  | ok candidates =>
    have hsound : (Request.admitted id now s.requester s.intentId candidates s.parameters).Sound :=
      .admitted (hcandidates candidates hdecision)
    simp only [submit, hdecision] at fresh ⊢
    exact changes_admitted around h hsound rfl (fresh _ rfl) rfl rfl hreport

/-- Whether a request in flight has the given application as its handler. -/
theorem handledBy_iff (h : Coupled r.requests r.lanes) (hq : q ∈ r.requests)
    (application : String) :
    r.handledBy application q.id = true ↔ q.handler = some application := by
  rw [handledBy, request?_eq_some h.names hq, decide_eq_true_eq]
  rfl

/-- Releasing one request after another releases them all at once. -/
theorem foldl_release (application : String) {ids : List RequestId} (once : ids.Nodup) :
    ∀ {t : Turn Router Unit}, (t.state.requests.map Request.id).Nodup →
      (∀ id ∈ ids, ∃ q ∈ t.state.requests, q.id = id) →
      (∀ id ∈ ids, ∀ lane, id ∉ t.state.lanes.get lane) →
      ids.foldl (release application) t =
        ⟨(), { t.state with
            requests := t.state.requests.map fun q => if q.id ∈ ids then q.moveTo .started else q
            lanes := { t.state.lanes with main := t.state.lanes.main ++ ids } },
          t.effects ++ ids.map fun id => .about id (.released application)⟩ := by
  induction ids with
  | nil =>
    intro t _ _ _
    simp
  | cons id rest ih =>
    intro t names known absent
    obtain ⟨hid, hrest⟩ := List.nodup_cons.mp once
    obtain ⟨p, hp, rfl⟩ := known id List.mem_cons_self
    have hfind := request?_eq_some names hp
    have hjoin := Lanes.join?_eq_some (absent p.id List.mem_cons_self) .main
    have hone : release application t p.id =
        ⟨(), { t.state with
            requests := t.state.requests.map fun q => if q.id = p.id then p.moveTo .started else q
            lanes := t.state.lanes.joined .main p.id },
          t.effects ++ [.about p.id (.released application)]⟩ := by
      simp only [release, hfind, update]
      rw [hjoin]
      rfl
    have hname : ∀ q, (if q.id = p.id then p.moveTo .started else q).id = q.id := by
      intro q
      by_cases he : q.id = p.id
      · rw [if_pos he, he]
        rfl
      · rw [if_neg he]
    rw [List.foldl_cons, hone, ih hrest]
    · have hrequests : (t.state.requests.map fun q =>
          if q.id = p.id then p.moveTo .started else q).map
            (fun q => if q.id ∈ rest then q.moveTo .started else q) =
          t.state.requests.map fun q => if q.id ∈ p.id :: rest then q.moveTo .started else q := by
        rw [List.map_map]
        refine List.map_congr_left fun q hq => ?_
        by_cases he : q.id = p.id
        · have hqp := List.inj_on_of_nodup_map names hq hp he
          rw [Function.comp_apply, if_pos he, if_neg, hqp, if_pos List.mem_cons_self]
          exact hid
        · rw [Function.comp_apply, if_neg he]
          simp only [List.mem_cons, he, false_or]
      simp only [hrequests, Lanes.joined, Lanes.set, Lanes.get, List.append_assoc, List.map_cons,
        List.singleton_append]
    · rw [List.map_map]
      have hsame : (Request.id ∘ fun q => if q.id = p.id then p.moveTo .started else q) =
          Request.id := funext hname
      rwa [hsame]
    · intro other hother
      obtain ⟨q, hq, hqid⟩ := known other (List.mem_cons_of_mem _ hother)
      exact ⟨_, List.mem_map_of_mem hq, (hname q).trans hqid⟩
    · intro other hother lane hmem
      rw [Lanes.mem_joined] at hmem
      rcases hmem with hmem | ⟨he, -⟩
      · exact absent other (List.mem_cons_of_mem _ hother) lane hmem
      · exact hid (he ▸ hother)

/-- The names of the requests that wait for the given application to start. -/
def awaiting (r : Router) (application : String) : List RequestId :=
  r.lanes.starting.filter (r.handledBy application)

/-- A request in flight waits for an application to start when its state and handler say so. -/
theorem mem_awaiting (h : Coupled r.requests r.lanes) (hq : q ∈ r.requests)
    (application : String) :
    q.id ∈ r.awaiting application ↔ q.state = .awaitingStart ∧ q.handler = some application := by
  have hlane : q.id ∈ r.lanes.get .starting ↔ q.state.lane = .starting := h.mem_lane_iff hq
  rw [RequestState.lane_eq_starting] at hlane
  rw [awaiting, List.mem_filter, handledBy_iff h hq]
  exact and_congr_left' hlane

/-- Whoever waits for an application to start is in flight. -/
theorem exists_of_mem_awaiting (h : Coupled r.requests r.lanes) {application : String}
    (hid : id ∈ r.awaiting application) : ∃ q ∈ r.requests, q.id = id := by
  have hstart : id ∈ r.lanes.get .starting := (List.mem_filter.mp hid).1
  obtain ⟨q, hq, hqid, -⟩ := (h.stands .starting id).mp hstart
  exact ⟨q, hq, hqid⟩

/-- Whoever waits for an application to start stands nowhere once taken out of the lane for that. -/
theorem absent_of_mem_awaiting (h : Coupled r.requests r.lanes) {application : String}
    (hid : id ∈ r.awaiting application) (lane : Lane) :
    id ∉ (r.lanes.extract .starting (r.handledBy application)).2.get lane := by
  obtain ⟨hold, hsel⟩ := List.mem_filter.mp hid
  have hstart : id ∈ r.lanes.get .starting := hold
  by_cases hlane : Lane.starting = lane
  · subst hlane
    rw [Lanes.extract, Lanes.get_set_self, List.mem_filter, hsel]
    exact fun hkept => by cases hkept.2
  · have hother : (r.lanes.extract .starting (r.handledBy application)).2.get lane =
        r.lanes.get lane := Lanes.get_set_of_ne _ hlane _
    rw [hother]
    exact fun hmem => hlane (h.lane_unique hstart hmem)

/-- The start of an application moves all requests that wait for it to the main lane. -/
theorem announceStart_eq (h : Coupled r.requests r.lanes) (application : String) :
    r.announceStart around application =
      ⟨(r.awaiting application).length,
        { r with
          requests := r.requests.map (Request.releasedBy application)
          lanes := { r.lanes with
            main := r.lanes.main ++ r.awaiting application
            starting := r.lanes.starting.filter fun id => ! r.handledBy application id } },
        ((r.awaiting application).map fun id => .about id (.released application)) ++
          if r.awaiting application = [] then [] else [wake around]⟩ := by
  have honce : (r.awaiting application).Nodup := (h.once .starting).filter _
  have hknown := fun id (hid : id ∈ r.awaiting application) => exists_of_mem_awaiting h hid
  have habsent := fun id (hid : id ∈ r.awaiting application) => absent_of_mem_awaiting h hid
  have hfold := foldl_release application honce
    (t := ⟨(), { r with lanes := (r.lanes.extract .starting (r.handledBy application)).2 }, []⟩)
    h.names hknown habsent
  have hrequests : (r.requests.map fun q =>
      if q.id ∈ r.awaiting application then q.moveTo .started else q) =
        r.requests.map (Request.releasedBy application) := by
    refine List.map_congr_left fun q hq => ?_
    simp only [Request.releasedBy, mem_awaiting h hq]
  simp only [hrequests, List.nil_append] at hfold
  exact congrArg (fun t : Turn Router Unit => (⟨(r.awaiting application).length, t.state,
    t.effects ++ if r.awaiting application = [] then [] else [wake around]⟩ : Turn Router Nat))
    hfold

/-- Nothing changes by the start of an application for which nobody waits. -/
theorem announceStart_eq_self (h : Coupled r.requests r.lanes) {application : String}
    (hempty : r.awaiting application = []) :
    r.announceStart around application = .quiet 0 r := by
  have hid : ∀ q ∈ r.requests, Request.releasedBy application q = id q := by
    intro q hq
    have habsent : q.id ∉ r.awaiting application := by
      rw [hempty]
      exact List.not_mem_nil
    exact if_neg (mt (mem_awaiting h hq application).mpr habsent)
  have hrequests : r.requests.map (Request.releasedBy application) = r.requests := by
    rw [List.map_congr_left hid, List.map_id]
  have hstarting : (r.lanes.starting.filter fun id => ! r.handledBy application id) =
      r.lanes.starting := by
    rw [List.filter_eq_self]
    intro id hmem
    rw [Bool.eq_false_iff.mpr (List.filter_eq_nil_iff.mp hempty id hmem)]
    rfl
  simp only [announceStart_eq h, hempty, hrequests, hstarting, List.append_nil, List.map_nil,
    List.length_nil, if_true, Turn.quiet]

/-- The reports on those who are released are silent. -/
theorem silent_released (application : String) (ids : List RequestId) :
    Silent (ids.map fun id => .about id (.released application)) := by
  induction ids with
  | nil => exact Silent.nil
  | cons id rest ih =>
    have hhead : Silent [Effect.about id (.released application)] := ⟨rfl, rfl, rfl, rfl⟩
    exact hhead.append ih

/-- The start of an application ends the wait of all requests that it handles. -/
theorem changes_announceStart (h : Coupled r.requests r.lanes) (application : String) :
    r.Changes around (r.announceStart around application).state
      (r.announceStart around application).effects none none := by
  have hcoupled := h.release (r.handledBy application)
  have hselect : (r.requests.map fun q =>
        if q.state = .awaitingStart ∧ r.handledBy application q.id = true then q.moveTo .started
        else q) = r.requests.map (Request.releasedBy application) := by
    refine List.map_congr_left fun q hq => ?_
    simp only [Request.releasedBy, handledBy_iff h hq]
  by_cases hempty : r.awaiting application = []
  · rw [announceStart_eq_self h hempty]
    exact changes_still h Silent.nil
  · obtain ⟨id, hid⟩ := List.exists_mem_of_ne_nil _ hempty
    obtain ⟨q, hq, rfl⟩ := exists_of_mem_awaiting h hid
    have hwaits := (mem_awaiting h hq application).mp hid
    rw [hselect] at hcoupled
    rw [announceStart_eq h, if_neg hempty]
    exact ⟨hcoupled,
      .released application ⟨q, hq, hwaits⟩
        ((wake_shows around).after_silent (silent_released application _))⟩

end Router

/-- A timeout concerns the waits to come only. -/
theorem Router.changes_setTimeout {r : Router} {around : Surroundings}
    (h : Coupled r.requests r.lanes) (stage : Stage) (duration : Duration) :
    r.Changes around (r.perform around (.setTimeout stage duration)).state
      (r.perform around (.setTimeout stage duration)).effects none none := by
  simp only [perform, setTimeout]
  cases r.settings.setTimeout stage duration with
  | error reason => exact changes_still h Silent.nil
  | ok settings => exact ⟨h, .still Silent.nil⟩

/-- The catalog takes no part in the life of requests. -/
theorem Catalog.perform_silent (c : Catalog) (call : CatalogCall) :
    Silent (c.perform call).effects := by
  cases call with
  | add i =>
    simp only [perform, add]
    cases c.fault? i <;> exact ⟨rfl, rfl, rfl, rfl⟩
  | remove i =>
    simp only [perform, remove]
    cases c.intents.find? fun j => j.hasKey i.intentId i.owner <;> exact ⟨rfl, rfl, rfl, rfl⟩
  | _ => exact Silent.nil

/-- What can be asked of a router and of the catalog it holds. -/
inductive Ask where
  /-- Something is asked of the router. -/
  | router (call : RouterCall)
  /-- Something is asked of its catalog. -/
  | catalog (call : CatalogCall)

/-- Something that is asked, in surroundings of its own. -/
structure Move where
  /-- What the router sees of the world around it. -/
  around : Surroundings
  /-- What it is asked. -/
  ask : Ask

namespace Move

variable {r : Router}

/-- What comes of a move. -/
def turn (m : Move) (r : Router) : Turn Router Answer :=
  match m.ask with
  | .router call => r.perform m.around call
  | .catalog call => (r.catalog.perform call).lift fun c => { r with catalog := c }

/-- The request with which a move makes a step, if it makes one. -/
def taken? (m : Move) (r : Router) : Option RequestId :=
  match m.ask with
  | .router .process | .router (.handle .process) => r.lanes.main.head?
  | _ => none

/-- The request that a move admits, if it admits one. -/
def admitted? (m : Move) (r : Router) : Option Request :=
  match m.ask with
  | .router (.submit id now s) => (r.submit m.around id now s).value.toOption
  | _ => none

/-- Every move keeps the requests in flight coupled with the lanes, and does one of the six
things to them. -/
theorem changes (m : Move) (h : Coupled r.requests r.lanes)
    (fresh : ∀ q, m.admitted? r = some q → ∀ p ∈ r.requests, p.id ≠ q.id) :
    r.Changes m.around (m.turn r).state (m.turn r).effects (m.taken? r) (m.admitted? r) := by
  obtain ⟨around, ask⟩ := m
  cases ask with
  | catalog call => exact ⟨h, .still (r.catalog.perform_silent call)⟩
  | router call =>
    cases call with
    | submit id now s => exact Router.changes_submit h id now s fresh
    | resolve id selected => exact Router.changes_report h rfl
    | reject id => exact Router.changes_report h rfl
    | reply application id isError payload => exact Router.changes_report h rfl
    | announceStart application => exact Router.changes_announceStart h application
    | process => exact Router.changes_process h
    | handle event =>
      cases event with
      | process => exact Router.changes_process h
      | timeout stage id millis => exact Router.changes_report h rfl
    | setTimeout stage duration => exact Router.changes_setTimeout h stage duration
    | attach listener => exact ⟨h, .still Silent.nil⟩
    | hasListener => exact ⟨h, .still Silent.nil⟩
    | request id => exact ⟨h, .still Silent.nil⟩
    | settings => exact ⟨h, .still Silent.nil⟩
    | counters => exact ⟨h, .still Silent.nil⟩

end Move

end IntentRouter
