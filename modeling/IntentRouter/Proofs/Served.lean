import IntentRouter.Proofs.Decision
import IntentRouter.Proofs.Pump

/-!
# First come, first served

Requests join the main lane at its back and are taken from its front, and nobody leaves it
otherwise. So whoever has been taken, followed by whoever stands in the lane, is whoever has
joined it, in the same order. While a request stands there its record stays as it is. So requests
that are settled by reports are returned in the order in which they were settled.
-/

namespace IntentRouter

/-- Where something only joins at the back and leaves at the front, whatever has joined is whatever
has left and what is there, in this order. -/
theorem flatMap_range_eq {α : Type} {content joins leaves : Nat → List α} (start : content 0 = [])
    (step : ∀ k, content k ++ joins k = leaves k ++ content (k + 1)) (n : Nat) :
    (List.range n).flatMap joins = (List.range n).flatMap leaves ++ content n := by
  induction n with
  | zero => rw [start]; rfl
  | succ n ih =>
    rw [List.range_succ, List.flatMap_append, List.flatMap_append, List.flatMap_singleton,
      List.flatMap_singleton, ih, List.append_assoc, step, List.append_assoc]

/-- Whether the request has been settled. -/
def Request.isSettled (q : Request) : Bool := q.state = .settled

/-- A request in the main lane keeps its record until a step is made with it. -/
theorem Change.mem_of_main {around : Surroundings} {before after : List Request}
    {effects : List Effect} {taken : Option RequestId} {admitted : Option Request} {q : Request}
    (h : Change around before after effects taken admitted)
    (names : (before.map Request.id).Nodup) (hq : q ∈ before) (hlane : q.state.lane = .main)
    (hne : taken ≠ some q.id) : q ∈ after := by
  have hreplace : ∀ r : Request, q.id ≠ r.id → q ∈ r.replaceIn before :=
    fun r hid => List.mem_map.mpr ⟨q, hq, if_neg hid⟩
  have hstage := RequestState.lane_eq_main.mp hlane
  cases h with
  | still => exact hq
  | admitted => exact List.mem_append_left _ hq
  | resumed p r hp hw hb =>
    refine hreplace r fun hid => ?_
    -- The request that is resumed has waited, and so has not stood in the main lane.
    rw [List.inj_on_of_nodup_map names hp hq (hb.alike.id.symm.trans hid.symm), hstage] at hw
    cases hw
  | released application =>
    refine List.mem_map.mpr ⟨q, hq, if_neg fun hboth => ?_⟩
    rw [hboth.1] at hstage
    cases hstage
  | parked p r _ _ _ _ _ hb =>
    refine hreplace r fun hid => hne ?_
    rw [hid, hb.alike.id]
  | delivered p r =>
    rw [List.mem_filter, decide_eq_true_eq]
    exact ⟨hq, fun hid => hne (by rw [hid])⟩

namespace Router

variable {r : Router} {around : Surroundings} {call : RouterCall} {stage : Stage} {id : RequestId}

/-- The request whose wait a call ends, if it reports that and the request stands in the lane of
the stage. -/
def resumed? (r : Router) (call : RouterCall) : Option RequestId :=
  call.wait?.bind fun w => if r.lanes.holds w.1.lane w.2 then some w.2 else none

/-- The settled requests in the main lane, the next in line first. -/
def settledNext (r : Router) : List Request := r.queue.filter Request.isSettled

/-- A report ends the wait of a request that waits for it. -/
theorem resumed?_eq_some (h : Coupled r.requests r.lanes) (hcall : call.wait? = some (stage, id))
    (hw : r.Waits stage id) : r.resumed? call = some id := by
  obtain ⟨p, hp, rfl, hstage⟩ := hw
  have hholds : r.lanes.holds stage.lane p.id = true := by
    rw [Lanes.holds_iff, h.mem_lane_iff hp, RequestState.lane_of_stage hstage]
  rw [resumed?, hcall, Option.bind_some, if_pos hholds]

/-- A report ends no wait of a request that does not wait for it. -/
theorem resumed?_eq_none (h : Coupled r.requests r.lanes) (hcall : call.wait? = some (stage, id))
    (hw : ¬ r.Waits stage id) : r.resumed? call = none := by
  have hholds : ¬ r.lanes.holds stage.lane id = true := by
    rw [Lanes.holds_iff, h.stands]
    rintro ⟨p, hp, hid, hlane⟩
    exact hw ⟨p, hp, hid, RequestState.lane_eq_stage_lane.mp hlane⟩
  rw [resumed?, hcall, Option.bind_some, if_neg hholds]

/-- A report puts the request whose wait it ends at the back of the main lane. -/
theorem main_report (around : Surroundings) (h : Coupled r.requests r.lanes)
    (hcall : call.wait? = some (stage, id)) :
    r.lanes.main ++ (r.resumed? call).toList = (r.perform around call).state.lanes.main := by
  by_cases hw : r.Waits stage id
  · have hresumed := resumed?_eq_some h hcall hw
    obtain ⟨p, hp, rfl, hstage⟩ := hw
    obtain ⟨es, -, hperform⟩ := perform_of_waits around h hp hstage hcall
    rw [hperform, hresumed, main_resume hstage]
    rfl
  · obtain ⟨note, -, hperform⟩ := perform_of_not_waits around h hw hcall
    rw [hperform, resumed?_eq_none h hcall hw]
    exact List.append_nil _

/-- A step takes the next in line out of the main lane. -/
theorem main_process (around : Surroundings) (h : Coupled r.requests r.lanes) :
    r.lanes.main = r.lanes.main.head?.toList ++ (r.process around).state.lanes.main := by
  rcases idle_or_steps h around with hmain | ⟨p, pass, hs⟩
  · rw [process_of_idle hmain, hmain]
    exact hmain.symm
  · rw [(hs.visited h).main, hs.next]
    exact hs.main_eq

/-- A submission that is admitted puts its request at the back of the main lane. -/
theorem main_submit (around : Surroundings) (h : Coupled r.requests r.lanes) (id : RequestId)
    (now : Timestamp) (s : Submission)
    (fresh : ∀ q, (r.submit around id now s).value.toOption = some q →
      ∀ p ∈ r.requests, p.id ≠ q.id) :
    r.lanes.main ++ (r.submit around id now s).value.toOption.toList.map Request.id =
      (r.submit around id now s).state.lanes.main := by
  rw [value_submit] at fresh ⊢
  cases hassess : (r.assess around.host s).1 with
  | error reason =>
    rw [(submit_refuses around id now hassess).state]
    exact List.append_nil _
  | ok chosen =>
    rw [hassess] at fresh
    have habsent : ∀ lane, id ∉ r.lanes.get lane := h.absent_of_fresh (fresh _ rfl)
    rw [(submit_admits around now habsent hassess).state]
    rfl

end Router

/-! ## What a move does to the main lane -/

namespace Move

variable {r : Router}

/-- The names that a move puts at the back of the main lane, in order: whoever has waited for the
application that starts, or the request whose wait a report ends, or the one that is admitted. -/
def joined (m : Move) (r : Router) : List RequestId :=
  match m.ask with
  | .router (.announceStart application) => r.awaiting application
  | .router call => (r.resumed? call).toList ++ (m.admitted? r).toList.map Request.id
  | .catalog _ => []

/-- The request that a move settles, with its outcome, if it is a report that does. -/
def settled? (m : Move) (r : Router) : Option Request :=
  match m.ask with
  | .router call => (r.resumed? call).bind fun id =>
      ((m.turn r).state.request? id).filter Request.isSettled
  | .catalog _ => none

/-- The request that a move returns, if it was settled before. -/
def delivered? (m : Move) (r : Router) : Option Request :=
  ((m.returned? r).map Return.request).filter fun q =>
    (r.request? q.id).any Request.isSettled

/-- Whoever is next leaves the main lane with a step, and whoever joins it joins at the back. -/
theorem main_turn (m : Move) (h : Coupled r.requests r.lanes)
    (fresh : ∀ q, m.admitted? r = some q → ∀ p ∈ r.requests, p.id ≠ q.id) :
    r.lanes.main ++ m.joined r = (m.taken? r).toList ++ (m.turn r).state.lanes.main := by
  obtain ⟨around, ask⟩ := m
  have hreport : ∀ (call : RouterCall) {stage : Stage} {id : RequestId},
      call.wait? = some (stage, id) →
        r.lanes.main ++ ((r.resumed? call).toList ++ []) =
          (r.perform around call).state.lanes.main := by
    intro call stage id hcall
    rw [List.append_nil]
    exact Router.main_report around h hcall
  have hprocess : r.lanes.main ++ [] =
      r.lanes.main.head?.toList ++ (r.process around).state.lanes.main := by
    rw [List.append_nil]
    exact Router.main_process around h
  cases ask with
  | catalog call => exact List.append_nil _
  | router call =>
    cases call with
    | submit id now s => exact Router.main_submit around h id now s fresh
    | resolve id selected => exact hreport _ rfl
    | reject id => exact hreport _ rfl
    | reply application id isError payload => exact hreport _ rfl
    | announceStart application =>
      have hturn : r.announceStart around application = _ := Router.announceStart_eq h application
      exact (congrArg (fun t => t.state.lanes.main) hturn).symm
    | process => exact hprocess
    | handle event =>
      cases event with
      | process => exact hprocess
      | timeout stage id millis => exact hreport _ rfl
    | setTimeout stage duration =>
      simp only [joined, turn, taken?, Router.perform, Router.setTimeout]
      cases r.settings.setTimeout stage duration <;> exact List.append_nil _
    | _ => exact List.append_nil _

/-- The requests in line before a move and those that join the line are the one that the move makes
a step with and the requests in line afterwards, with the records they have. -/
theorem queue_turn (m : Move) (h : Coupled r.requests r.lanes)
    (fresh : ∀ q, m.admitted? r = some q → ∀ p ∈ r.requests, p.id ≠ q.id) :
    r.queue ++ (m.joined r).filterMap (m.turn r).state.request? =
      ((m.taken? r).bind r.request?).toList ++ (m.turn r).state.queue := by
  obtain ⟨hafter, hchange⟩ := m.changes h fresh
  have hmain := m.main_turn h fresh
  -- Whoever stays in line is found under its name as before.
  have hstay : ∀ id ∈ r.lanes.main, m.taken? r ≠ some id →
      (m.turn r).state.request? id = r.request? id := by
    intro id hid hne
    obtain ⟨q, hq, rfl, hlane⟩ := (h.stands .main id).mp hid
    have hq' := hchange.mem_of_main h.names hq hlane hne
    rw [Router.request?_eq_some h.names hq, Router.request?_eq_some hafter.names hq']
  have htaken :
      m.taken? r = none ∨ ∃ id rest, m.taken? r = some id ∧ r.lanes.main = id :: rest := by
    rcases m.step_or_not r with ⟨-, -, hnext, -⟩ | ⟨hnone, -⟩
    · rw [hnext]
      cases r.lanes.main with
      | nil => exact .inl rfl
      | cons id rest => exact .inr ⟨id, rest, rfl, rfl⟩
    · exact .inl hnone
  rcases htaken with hnone | ⟨id, rest, hsome, hline⟩
  · rw [hnone] at hmain hstay ⊢
    have hsame : r.queue = r.lanes.main.filterMap (m.turn r).state.request? :=
      (List.filterMap_congr fun id hid => hstay id hid nofun).symm
    rw [hsame, ← List.filterMap_append, hmain]
    rfl
  · rw [hsome, hline] at hmain
    have honce : (id :: rest).Nodup := hline ▸ h.once .main
    have hrest : rest.filterMap r.request? = rest.filterMap (m.turn r).state.request? := by
      refine (List.filterMap_congr fun other hother => hstay other ?_ fun he => ?_).symm
      · rw [hline]
        exact List.mem_cons_of_mem _ hother
      · rw [hsome] at he
        exact (List.nodup_cons.mp honce).1 (Option.some.inj he ▸ hother)
    have hlater : rest ++ m.joined r = (m.turn r).state.lanes.main := (List.cons.inj hmain).2
    rw [hsome, Router.queue, hline, List.filterMap_cons, Option.bind_some, Router.queue, ← hlater,
      List.filterMap_append, hrest]
    cases r.request? id <;> rfl

/-- A report that ends a wait may settle the request, and no other move settles one that joins. -/
theorem filter_settled_joined (m : Move) (h : Coupled r.requests r.lanes)
    (fresh : ∀ q, m.admitted? r = some q → ∀ p ∈ r.requests, p.id ≠ q.id) :
    ((m.joined r).filterMap (m.turn r).state.request?).filter Request.isSettled =
      (m.settled? r).toList := by
  obtain ⟨hafter, hchange⟩ := m.changes h fresh
  obtain ⟨around, ask⟩ := m
  have hresumed : ∀ (o : Option RequestId) (find : RequestId → Option Request),
      ((o.toList ++ []).filterMap find).filter Request.isSettled =
        (o.bind fun id => (find id).filter Request.isSettled).toList := by
    intro o find
    cases o with
    | none => rfl
    | some id =>
      rw [List.append_nil, Option.toList_some, List.filterMap_cons, Option.bind_some,
        Option.toList_filter]
      cases find id <;> rfl
  cases ask with
  | catalog call => rfl
  | router call =>
    cases call with
    | submit id now s =>
      -- Whoever is admitted has just been received.
      refine List.filter_eq_nil_iff.mpr fun q hq => ?_
      obtain ⟨id', hid', hfind⟩ := List.mem_filterMap.mp hq
      obtain ⟨p, hp, rfl⟩ := List.mem_map.mp hid'
      obtain ⟨hmem, hid⟩ := Router.mem_of_request? hfind
      rw [Option.mem_toList.mp hp] at hchange
      obtain ⟨hp', hstate⟩ := hchange.of_admitted
      rw [Request.isSettled, hafter.eq_of_id hmem hp' hid, hstate]
      decide
    | announceStart application =>
      -- Whoever has waited for a start has been started.
      refine List.filter_eq_nil_iff.mpr fun q hq => ?_
      obtain ⟨id, hid, hfind⟩ := List.mem_filterMap.mp hq
      obtain ⟨hmem, rfl⟩ := Router.mem_of_request? hfind
      have hrequests : q ∈ (r.announceStart around application).state.requests := hmem
      rw [Router.announceStart_eq h] at hrequests
      obtain ⟨p, hp, rfl⟩ := List.mem_map.mp hrequests
      have hpid := (p.becomes_releasedBy application).alike.id
      have hwaits := (Router.mem_awaiting h hp application).mp (hpid ▸ hid)
      rw [Request.isSettled, Request.releasedBy, if_pos hwaits]
      exact Bool.false_ne_true
    | _ => exact hresumed _ _

/-- The request that a move makes a step with is returned if it is settled. -/
theorem delivered?_eq (m : Move) (h : Coupled r.requests r.lanes) :
    m.delivered? r = ((m.taken? r).bind r.request?).filter Request.isSettled := by
  rcases m.step_or_not r with ⟨-, -, hnext, hreturned⟩ | ⟨hnone, hnothing⟩
  · rw [delivered?, hnext, hreturned]
    rcases Router.idle_or_steps h m.around with hmain | ⟨p, pass, hs⟩
    · rw [Router.returned?, hmain]
      rfl
    · have hfind := Router.request?_eq_some h.names hs.known
      rw [hs.returned?_eq h, hs.next, Option.bind_some, hfind]
      by_cases hsettled : p.state = .settled
      · have hsame := hs.request_eq hsettled
        rw [hsame, if_pos hsettled]
        simp only [Option.map_some, Host.returnOf, Option.filter_some, hfind, Option.any_some]
      · have hid := (hs.onWay h).id_eq
        have hnot : p.isSettled = false := decide_eq_false hsettled
        rw [Option.filter_some_neg hnot]
        split
        · simp only [Option.map_some, Host.returnOf, Option.filter_some, hid, hfind,
            Option.any_some, hnot, Bool.false_eq_true, if_false]
        · rfl
  · rw [delivered?, hnone, hnothing]
    rfl

/-- Of the settled requests in line the next one is returned with a step, and one that a report
settles joins them at the back. -/
theorem settledNext_turn (m : Move) (h : Coupled r.requests r.lanes)
    (fresh : ∀ q, m.admitted? r = some q → ∀ p ∈ r.requests, p.id ≠ q.id) :
    r.settledNext ++ (m.settled? r).toList =
      (m.delivered? r).toList ++ (m.turn r).state.settledNext := by
  rw [← m.filter_settled_joined h fresh, m.delivered?_eq h, Option.toList_filter,
    Router.settledNext, Router.settledNext, ← List.filter_append, ← List.filter_append,
    m.queue_turn h fresh]

end Move

namespace Run

variable {run : Run} {n : Nat} {m : Move}

/-- The names that a move puts at the back of the main lane, in order. -/
def joined (run : Run) (n : Nat) : List RequestId :=
  run.moves[n]?.elim [] fun m => m.joined (run.router n)

/-- The request that a move settles, with its outcome, if it is a report that does. -/
def settled? (run : Run) (n : Nat) : Option Request :=
  run.moves[n]?.bind fun m => m.settled? (run.router n)

/-- The request that a move returns, if it was settled before. -/
def delivered? (run : Run) (n : Nat) : Option Request :=
  run.moves[n]?.bind fun m => m.delivered? (run.router n)

/-- Whoever is next leaves the main lane with a step, and whoever joins it joins at the back. -/
theorem main_succ (run : Run) (n : Nat) :
    (run.router n).lanes.main ++ run.joined n =
      (run.taken? n).toList ++ (run.router (n + 1)).lanes.main := by
  cases hm : run.moves[n]? with
  | none =>
    rw [joined, taken?, hm, router_succ_of_none hm]
    exact List.append_nil _
  | some m =>
    rw [joined, taken?, hm, router_succ hm]
    exact m.main_turn (run.coupled n) fun q => fresh_admitted (run.traced n) hm

/-- Settled requests are returned in the order in which they have been settled. -/
theorem settledNext_succ (run : Run) (n : Nat) :
    (run.router n).settledNext ++ (run.settled? n).toList =
      (run.delivered? n).toList ++ (run.router (n + 1)).settledNext := by
  cases hm : run.moves[n]? with
  | none =>
    rw [settled?, delivered?, hm, router_succ_of_none hm]
    exact List.append_nil _
  | some m =>
    rw [settled?, delivered?, hm, router_succ hm]
    exact m.settledNext_turn (run.coupled n) fun q => fresh_admitted (run.traced n) hm

/-- First come, first served. After any moves, whoever has joined the main lane is whoever has been
taken from it and whoever stands in it, in this order. The requests that choices, rejections,
replies and timers have settled are, with their outcomes and in this order, those that have been
returned since and those that stand in the main lane. So whichever of two is settled first is
returned first. -/
theorem first_come_first_served (run : Run) (n : Nat) :
    (List.range n).flatMap run.joined =
        (List.range n).filterMap run.taken? ++ (run.router n).lanes.main ∧
      (List.range n).filterMap run.settled? =
        (List.range n).filterMap run.delivered? ++ (run.router n).settledNext := by
  simp only [List.filterMap_eq_flatMap_toList]
  constructor
  · refine flatMap_range_eq ?_ run.main_succ n
    rw [router_zero, start_eq_fresh]
    rfl
  · refine flatMap_range_eq ?_ run.settledNext_succ n
    rw [router_zero, start_eq_fresh]
    rfl

/-- On an errand the same name joins the main lane when it is admitted and when it is replied to,
and its success is returned in the end. -/
example : (List.range 6).flatMap errand.joined = [.ofNat 1, .ofNat 1] ∧
    (List.range 6).filterMap errand.taken? = [.ofNat 1, .ofNat 1] ∧
    (List.range 6).filterMap errand.delivered? = [(printing.choose "printer").settle
      (.succeeded .empty)] := ⟨rfl, rfl, rfl⟩

end Run

end IntentRouter
