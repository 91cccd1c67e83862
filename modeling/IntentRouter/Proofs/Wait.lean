import IntentRouter.Proofs.Coupling
import IntentRouter.Proofs.Output
import IntentRouter.Session.Calls

/-!
# What ends the wait of a request

Four calls report the end of one request's wait: a choice, a rejection, a reply and a
timer. A request that waits in the stage of the report leaves its lane and joins the
main one with the record that the report makes of it, and nothing else in the router
changes. A report on any other request is refused, and nothing changes at all.
-/

namespace IntentRouter

open Effect

namespace RouterCall

/-- The stage and the request whose wait a call reports to have ended, if it reports that. -/
def wait? : RouterCall → Option (Stage × RequestId)
  | .resolve id _ => some (.choice, id)
  | .reject id => some (.choice, id)
  | .reply _ id _ _ => some (.reply, id)
  | .handle (.timeout stage id _) => some (stage, id)
  | _ => none

/-- The answer to a report that takes effect. A timer gets none. -/
def accepted : RouterCall → Answer
  | .handle _ => .nothing
  | _ => .done

/-- The answer to a report on a request that does not wait for it. A timer gets none. -/
def declined (id : RequestId) : RouterCall → Answer
  | .handle _ => .nothing
  | _ => .refused (.notPending id)

end RouterCall

/-- A reply settles the request it is about, and the report on it takes no request back. -/
theorem Router.settleBy_spec (q : Request) (application : String) (isError : Bool)
    (payload : Json.Parameters) :
    (∃ outcome, (settleBy q application isError payload).1 = q.settle outcome) ∧
      ∀ id, Silent [.about id (settleBy q application isError payload).2] := by
  unfold settleBy
  by_cases hwrong : q.handler ≠ some application
  · rw [if_pos hwrong]
    exact ⟨⟨_, rfl⟩, fun _ => ⟨rfl, rfl, rfl, rfl⟩⟩
  · rw [if_neg hwrong]
    by_cases herror : isError = true
    · rw [if_pos herror]
      exact ⟨⟨_, rfl⟩, fun _ => ⟨rfl, rfl, rfl, rfl⟩⟩
    · rw [if_neg herror]
      exact ⟨⟨_, rfl⟩, fun _ => ⟨rfl, rfl, rfl, rfl⟩⟩

namespace Request

variable {q : Request} {id : RequestId} {stage : Stage} {call : RouterCall}

/-- The record that a report leaves of a request that waits for it. -/
def resumedBy (call : RouterCall) (q : Request) : Request :=
  match call with
  | .resolve _ selected =>
    if q.candidates.any fun i => i.same selected then
      (q.choose selected.owner).moveTo .chosen
    else q.fail Router.invalidChoiceMessage
  | .reject _ => q.fail Router.rejectedMessage
  | .reply application _ isError payload => (Router.settleBy q application isError payload).1
  | .handle (.timeout stage _ millis) => q.fail (stage.timeoutMessage millis)
  | _ => q

/-- A report leaves a request with the owner of a candidate as its handler, or settled. -/
theorem resumedBy_cases (q : Request) (hcall : call.wait? = some (stage, id)) :
    (stage = .choice ∧
        ∃ i ∈ q.candidates, q.resumedBy call = (q.choose i.owner).moveTo .chosen) ∨
      ∃ outcome, q.resumedBy call = q.settle outcome := by
  cases call with
  | resolve id selected =>
    obtain ⟨rfl, rfl⟩ := Prod.mk.inj (Option.some.inj hcall)
    by_cases hany : (q.candidates.any fun i => i.same selected) = true
    · -- The selected intent equals a candidate, so its owner is that candidate's.
      obtain ⟨i, hi, hsame⟩ := List.any_eq_true.mp hany
      refine .inl ⟨rfl, i, hi, ?_⟩
      rw [resumedBy, if_pos hany, Intent.owner_eq_of_same hsame]
    · refine .inr ⟨.failed Router.invalidChoiceMessage, ?_⟩
      rw [resumedBy, if_neg hany]
      rfl
  | reject id => exact .inr ⟨_, rfl⟩
  | reply application id isError payload =>
    exact .inr (Router.settleBy_spec q application isError payload).1
  | handle event =>
    cases event with
    | process => cases hcall
    | timeout stage id millis => exact .inr ⟨_, rfl⟩
  | _ => cases hcall

/-- What a report leaves of a sound request that waits for it is a later record of the
request, sound as well, and in the main lane. -/
theorem resumedBy_spec (hq : q.Sound) (hw : q.state.stage? = some stage)
    (hcall : call.wait? = some (stage, id)) :
    q.Becomes (q.resumedBy call) ∧ (q.resumedBy call).Sound ∧
      (q.resumedBy call).state.lane = .main := by
  rcases resumedBy_cases q hcall with ⟨hstage, i, hi, he⟩ | ⟨outcome, he⟩
  · have hstate : q.state = .awaitingChoice := RequestState.stage?_eq_some.mp (hstage ▸ hw)
    have hnone := hq.unhandled (by rw [hstate]; rfl)
    rw [he]
    exact ⟨becomes_choose i.owner (by rw [hstate]; exact .choose),
      hq.choose hi hnone (by rw [hstate]; decide), rfl⟩
  · rw [he]
    exact ⟨becomes_settle outcome (RequestState.edge_settled_of_stage hw), hq.settle outcome, rfl⟩

end Request

namespace Router

variable {r left : Router} {around : Surroundings} {p q : Request} {id : RequestId}
  {stage : Stage} {call : RouterCall}

/-- A request that has been found is in flight under that name. -/
theorem mem_of_request? (h : r.request? id = some q) : q ∈ r.requests ∧ q.id = id :=
  ⟨List.mem_of_find?_eq_some h, by simpa using List.find?_some h⟩

/-- Every request in flight is found under its name. -/
theorem request?_eq_some (names : (r.requests.map Request.id).Nodup) (hq : q ∈ r.requests) :
    r.request? q.id = some q := by
  cases hfind : r.request? q.id with
  | none =>
    have hnone := List.find?_eq_none.mp hfind q hq
    exact absurd (decide_eq_true rfl) hnone
  | some p =>
    obtain ⟨hp, hid⟩ := mem_of_request? hfind
    rw [List.inj_on_of_nodup_map names hp hq hid]

/-- Joining the main lane reports, asks for a step and does nothing else. -/
theorem joinMain_shows (r : Router) (around : Surroundings) (id : RequestId) :
    Shows (r.joinMain around id).effects [] [] around.wakes [] := by
  have hwake := wake_shows around
  have halready : Silent [Effect.about id .alreadyQueued] := ⟨rfl, rfl, rfl, rfl⟩
  unfold joinMain
  cases r.request? id with
  | none =>
    cases r.lanes.join? .main id with
    | some lanes => exact hwake
    | none => exact hwake.after_silent halready
  | some q =>
    have hjoining : Silent [Effect.about id (.joining q.state)] := ⟨rfl, rfl, rfl, rfl⟩
    cases r.lanes.join? .main id with
    | some lanes => exact hwake.after_silent hjoining
    | none => exact (hwake.after_silent halready).after_silent hjoining

/-- Whoever stands in no lane joins the main one at the back. -/
theorem joinMain_state (around : Surroundings) (absent : ∀ lane, id ∉ r.lanes.get lane) :
    (r.joinMain around id).state = { r with lanes := r.lanes.joined .main id } := by
  rw [joinMain, Lanes.join?_eq_some absent .main]

/-- Joining the main lane changes nothing but the lanes. -/
theorem exists_lanes_joinMain (r : Router) (around : Surroundings) (id : RequestId) :
    ∃ lanes, (r.joinMain around id).state = { r with lanes := lanes } := by
  unfold joinMain
  cases r.lanes.join? .main id with
  | none => exact ⟨r.lanes, rfl⟩
  | some lanes => exact ⟨lanes, rfl⟩

/-- A request waits in a stage under the given name. -/
def Waits (r : Router) (stage : Stage) (id : RequestId) : Prop :=
  ∃ q ∈ r.requests, q.id = id ∧ q.state.stage? = some stage

/-- Nobody leaves a stage in which no request of that name waits. -/
theorem endWait?_eq_none (h : Coupled r.requests r.lanes) (hw : ¬ r.Waits stage id) :
    r.endWait? stage id = none := by
  have habsent : id ∉ r.lanes.get stage.lane := by
    rw [h.stands]
    rintro ⟨q, hq, hid, hlane⟩
    exact hw ⟨q, hq, hid, RequestState.lane_eq_stage_lane.mp hlane⟩
  rw [endWait?, Lanes.leave?_eq_none habsent]
  rfl

/-- A waiting request leaves its lane and is still in flight. -/
theorem endWait?_eq_some (h : Coupled r.requests r.lanes) (hq : q ∈ r.requests)
    (hw : q.state.stage? = some stage) :
    ∃ left, r.endWait? stage q.id = some left ∧
      left = { r with lanes := r.lanes.parted q.state.lane q.id } ∧
        left.request? q.id = some q := by
  have hlane := RequestState.lane_of_stage hw
  have hmem : q.id ∈ r.lanes.get stage.lane := by rw [← hlane, h.mem_lane_iff hq]
  refine ⟨_, ?_, rfl, request?_eq_some (r := r) h.names hq⟩
  rw [endWait?, Lanes.leave?_eq_some hmem, hlane]
  rfl

/-- The router after the request `p` has left its lane and has joined the main one as `q`. -/
def resume (r : Router) (p q : Request) : Router :=
  { r with
    requests := q.replaceIn r.requests
    lanes := (r.lanes.parted p.state.lane p.id).joined .main p.id }

/-- Whoever is resumed is last in the main lane. -/
theorem main_resume (hw : p.state.stage? = some stage) (q : Request) :
    (r.resume p q).lanes.main = r.lanes.main ++ [p.id] := by
  have hlane : p.state.lane ≠ .main := by
    rw [RequestState.lane_of_stage hw]
    cases stage <;> decide
  have hparted : (r.lanes.parted p.state.lane p.id).get .main = r.lanes.get .main := by
    rw [Lanes.get_parted, if_neg hlane]
  exact congrArg (· ++ [p.id]) hparted

/-- A request that has left its lane joins the main one with another record. -/
theorem joinMain_update (around : Surroundings) (h : Coupled r.requests r.lanes)
    (hp : p ∈ r.requests) (q : Request)
    (hleft : left = { r with lanes := r.lanes.parted p.state.lane p.id }) :
    ∃ es, Shows es [] [] around.wakes [] ∧
      (left.update q).joinMain around p.id = ⟨(), r.resume p q, es⟩ := by
  have habsent : ∀ lane, p.id ∉ (left.update q).lanes.get lane := by
    rw [hleft]
    exact h.absent_parted hp
  have hstate := joinMain_state around habsent
  refine ⟨_, joinMain_shows (left.update q) around p.id, ?_⟩
  rw [hleft] at hstate ⊢
  exact congrArg (fun s => (⟨(), s, _⟩ : Turn Router Unit)) hstate

/-- The failure of a request that has left its lane. -/
theorem abandon_eq (around : Surroundings) (hfind : left.request? p.id = some p)
    (message : String) :
    left.abandon around p.id message = (left.update (p.fail message)).joinMain around p.id := by
  rw [abandon, hfind]

/-- A report on a request that waits for it resumes the request with the record that the
report makes of it, asks for a step and does nothing else. -/
theorem perform_of_waits (around : Surroundings) (h : Coupled r.requests r.lanes)
    (hp : p ∈ r.requests) (hw : p.state.stage? = some stage)
    (hcall : call.wait? = some (stage, p.id)) :
    ∃ es, Shows es [] [] around.wakes [] ∧
      r.perform around call = ⟨call.accepted, r.resume p (p.resumedBy call), es⟩ := by
  obtain ⟨left, hend, hleft, hfind⟩ := endWait?_eq_some h hp hw
  obtain ⟨es, hshows, hjoin⟩ := joinMain_update around h hp (p.resumedBy call) hleft
  cases call with
  | resolve id selected =>
    obtain ⟨rfl, rfl⟩ := Prod.mk.inj (Option.some.inj hcall)
    by_cases hany : (p.candidates.any fun i => i.same selected) = true
    · simp only [Request.resumedBy, if_pos hany] at hjoin ⊢
      refine ⟨es, hshows, ?_⟩
      simp only [perform, resolve, hend, hfind, if_pos hany, hjoin]
      rfl
    · simp only [Request.resumedBy, if_neg hany] at hjoin ⊢
      have hnote : Silent [.about p.id (.notCandidate selected.name)] := ⟨rfl, rfl, rfl, rfl⟩
      refine ⟨_, hshows.after_silent hnote, ?_⟩
      simp only [perform, resolve, hend, hfind, if_neg hany, abandon_eq around hfind, hjoin]
      rfl
  | reject id =>
    obtain ⟨rfl, rfl⟩ := Prod.mk.inj (Option.some.inj hcall)
    simp only [Request.resumedBy] at hjoin ⊢
    refine ⟨es, hshows, ?_⟩
    simp only [perform, reject, hend, abandon_eq around hfind, hjoin]
    rfl
  | reply application id isError payload =>
    obtain ⟨rfl, rfl⟩ := Prod.mk.inj (Option.some.inj hcall)
    simp only [Request.resumedBy] at hjoin ⊢
    have hnote := (settleBy_spec p application isError payload).2 p.id
    refine ⟨_, hshows.after_silent hnote, ?_⟩
    simp only [perform, reply, hend, hfind, hjoin]
    rfl
  | handle event =>
    cases event with
    | process => cases hcall
    | timeout stage id millis =>
      obtain ⟨rfl, rfl⟩ := Prod.mk.inj (Option.some.inj hcall)
      simp only [Request.resumedBy] at hjoin ⊢
      have hnote : Silent [.about p.id (.timedOut stage millis)] := ⟨rfl, rfl, rfl, rfl⟩
      refine ⟨_, hshows.after_silent hnote, ?_⟩
      simp only [perform, handle, timeOut, hend, abandon_eq around hfind, hjoin]
      rfl
  | _ => cases hcall

/-- A report on a request that does not wait for it is refused and changes nothing. -/
theorem perform_of_not_waits (around : Surroundings) (h : Coupled r.requests r.lanes)
    (hw : ¬ r.Waits stage id) (hcall : call.wait? = some (stage, id)) :
    ∃ note, Silent [.about id note] ∧
      r.perform around call = ⟨call.declined id, r, [.about id note]⟩ := by
  have hend := endWait?_eq_none h hw
  cases call with
  | resolve id selected =>
    obtain ⟨rfl, rfl⟩ := Prod.mk.inj (Option.some.inj hcall)
    refine ⟨.unexpectedChoice, ⟨rfl, rfl, rfl, rfl⟩, ?_⟩
    simp only [perform, resolve, hend]
    rfl
  | reject id =>
    obtain ⟨rfl, rfl⟩ := Prod.mk.inj (Option.some.inj hcall)
    refine ⟨.unexpectedRejection, ⟨rfl, rfl, rfl, rfl⟩, ?_⟩
    simp only [perform, reject, hend]
    rfl
  | reply application id isError payload =>
    obtain ⟨rfl, rfl⟩ := Prod.mk.inj (Option.some.inj hcall)
    by_cases hlate : r.history.contains id = true
    · refine ⟨.lateReply application, ⟨rfl, rfl, rfl, rfl⟩, ?_⟩
      simp only [perform, reply, hend, if_pos hlate]
      rfl
    · refine ⟨.unexpectedReply application, ⟨rfl, rfl, rfl, rfl⟩, ?_⟩
      simp only [perform, reply, hend, if_neg hlate]
      rfl
  | handle event =>
    cases event with
    | process => cases hcall
    | timeout stage id millis =>
      obtain ⟨rfl, rfl⟩ := Prod.mk.inj (Option.some.inj hcall)
      refine ⟨.staleTimer stage, ⟨rfl, rfl, rfl, rfl⟩, ?_⟩
      simp only [perform, handle, timeOut, hend]
      rfl
  | _ => cases hcall

/-- A report changes nothing but the requests and the lanes, and has no effect but that it may post
an event. -/
theorem report_frame (around : Surroundings) (h : Coupled r.requests r.lanes)
    (hcall : call.wait? = some (stage, id)) :
    ∃ requests lanes posts,
      (r.perform around call).state = { r with requests := requests, lanes := lanes } ∧
        Shows (r.perform around call).effects [] [] posts [] := by
  by_cases hw : r.Waits stage id
  · obtain ⟨p, hp, rfl, hstage⟩ := hw
    obtain ⟨es, hshows, hperform⟩ := perform_of_waits around h hp hstage hcall
    rw [hperform]
    exact ⟨_, _, _, rfl, hshows⟩
  · obtain ⟨note, hsilent, hperform⟩ := perform_of_not_waits around h hw hcall
    rw [hperform]
    exact ⟨_, _, _, rfl, hsilent⟩

/-- After a report its request does not wait in its stage. -/
theorem not_waits_perform (around : Surroundings) (h : Coupled r.requests r.lanes)
    (hcall : call.wait? = some (stage, id)) : ¬ (r.perform around call).state.Waits stage id := by
  by_cases hw : r.Waits stage id
  · obtain ⟨p, hp, rfl, hstage⟩ := hw
    obtain ⟨es, -, hperform⟩ := perform_of_waits around h hp hstage hcall
    obtain ⟨hbecomes, -, hready⟩ := Request.resumedBy_spec (h.sound p hp) hstage hcall
    rw [hperform]
    rintro ⟨q, hq, hid, hwait⟩
    rcases Request.mem_replaceIn hq with he | ⟨-, hne⟩
    · rw [he, RequestState.lane_eq_main.mp hready] at hwait
      cases hwait
    · exact hne (hid.trans hbecomes.alike.id.symm)
  · obtain ⟨note, -, hperform⟩ := perform_of_not_waits around h hw hcall
    rwa [hperform]

end Router

end IntentRouter
