import IntentRouter.Proofs.Rivals
import IntentRouter.Proofs.Sweep

/-!
# From a reply to the requester

A reply ends the wait of its request with an outcome. When the steps that are posted have been
made, however many requests stood in front of it and whatever has changed in the world around, the
request has been returned once, with that outcome, and nothing is left of it. Every further reply
is refused.
-/

namespace IntentRouter

open Effect

/-- The outcome that a reply gives to a request. -/
def Request.verdict (q : Request) (application : String) (isError : Bool)
    (payload : Json.Parameters) : Outcome :=
  if q.handler ≠ some application then .failed "Request reply received from wrong application"
  else if isError then
    match payload.get? "errorMessage" with
    | some (.str message) => .failed message
    | _ => .failed "Handler application reported an error"
  else .succeeded payload

namespace Request

variable {q : Request} {application : String} {isError : Bool} {payload : Json.Parameters}

/-- A reply settles a request with its verdict. -/
theorem settleBy_verdict (q : Request) (application : String) (isError : Bool)
    (payload : Json.Parameters) :
    (Router.settleBy q application isError payload).1 =
      q.settle (q.verdict application isError payload) := by
  unfold Router.settleBy verdict
  by_cases hwrong : q.handler ≠ some application
  · rw [if_pos hwrong, if_pos hwrong]
    rfl
  · rw [if_neg hwrong, if_neg hwrong]
    cases isError with
    | false => rfl
    | true =>
      simp only [if_true, Router.errorMessageName]
      cases payload.get? "errorMessage" with
      | none => rfl
      | some value => cases value <;> rfl

/-- The record that a reply leaves of a request that waits for it. -/
theorem resumedBy_reply (hq : q.Sound) (hw : q.state = .awaitingReply) :
    q.resumedBy (.reply application q.id isError payload) =
      { q with
        state := .settled
        outcome := some (q.verdict application isError payload) } := by
  have hnone := hq.outcome_none (by rw [hw]; decide)
  rw [resumedBy, settleBy_verdict, settle, hnone]
  rfl

end Request

namespace Round

variable {x : Round} {p : Request} {pass : Router.Passage}

/-- A round with a settled request returns it. -/
theorem returned?_of_settled (hs : x.router.Steps x.around p pass)
    (h : Coupled x.router.requests x.router.lanes) (hsettled : p.state = .settled) :
    x.returned? = some (x.around.host.returnOf p) := by
  rw [returned?, hs.returned?_eq h, hs.request_eq hsettled, if_pos hsettled]

/-- Of a round with a settled request its reply goes out, and nothing else. -/
theorem outs_of_settled (hs : x.router.Steps x.around p pass)
    (h : Coupled x.router.requests x.router.lanes) (hsettled : p.state = .settled) :
    x.outs = x.around.host.parting p := by
  rw [outs, turn, (hs.leaves h).outputs_eq, hs.request_eq hsettled, if_pos hsettled]

end Round

/-- The replies that go out for a request that is taken back to its requester. -/
theorem Host.filter_parting (h : Host) (q : Request) :
    (h.parting q).filter (fun o => o.returns? = some q.id) =
      if h.attended then (h.connection? q.requester).toList.map fun channel => .returned channel q
      else [] := by
  unfold parting
  cases h.connection? q.requester with
  | none => simp [Output.returns?]
  | some channel =>
    by_cases hatt : h.attended = true
    · simp [hatt, Output.returns?]
    · simp [hatt]

namespace Sweeps

variable {r s : Router} {k : Nat} {rounds : List Round} {q : Request}

/-- A settled request in the main lane is returned in one of the rounds, and in no other anything
is returned or sent back for it. In the end nothing is left of it. -/
theorem exists_return (h : Sweeps r k rounds s) (hd : r.Due k) (hq : q ∈ r.requests)
    (hsettled : q.state = .settled) :
    ∃ x ∈ rounds,
      (rounds.filterMap Round.returned?).filter (fun y => y.request.id = q.id) =
        [x.around.host.returnOf q] ∧
      (rounds.flatMap Round.outs).filter (fun o => o.returns? = some q.id) =
        (x.around.host.parting q).filter (fun o => o.returns? = some q.id) ∧
      ∀ p ∈ s.requests, p.id ≠ q.id := by
  have hmain : q.id ∈ r.lanes.get .main := (hd.coupled.mem_lane_iff hq).mpr (by rw [hsettled]; rfl)
  obtain ⟨before, x, after, pass, rfl, hs, hothers⟩ := h.exists_round hd hq hmain
  obtain ⟨k', l, hdue, -, -⟩ := h.split hd
  have hround : ∀ y ∈ before ++ after, Coupled y.router.requests y.router.lanes := by
    intro y hy
    refine h.coupled_of_mem hd ?_
    rcases List.mem_append.mp hy with hy | hy
    · exact List.mem_append_left _ hy
    · exact List.mem_append_right _ (List.mem_cons_of_mem x hy)
  refine ⟨x, List.mem_append_right _ List.mem_cons_self, ?_, ?_, ?_⟩
  · rw [List.filterMap_eq_flatMap_toList, filter_flatMap_of_split,
      Round.returned?_of_settled hs hdue.coupled hsettled]
    · simp [Host.returnOf]
    · intro y hy
      rw [List.filter_eq_nil_iff]
      intro z hz hid
      have htaken := Round.taken?_of_returned? (hround y hy) (Option.mem_toList.mp hz)
      exact hothers y hy (htaken.trans (congrArg some (of_decide_eq_true hid)))
  · rw [filter_flatMap_of_split, Round.outs_of_settled hs hdue.coupled hsettled]
    intro y hy
    rw [List.filter_eq_nil_iff]
    intro o ho hid
    exact hothers y hy (Round.taken?_of_mem_outs (hround y hy) ho (.inr (of_decide_eq_true hid)))
  · have hsame := hs.request_eq hsettled
    exact h.gone_of_settled hd hs (by rw [hsame, hsettled])

end Sweeps

namespace Run

variable {run : Run} {n : Nat} {q : Request} {application : String} {isError : Bool}
  {payload : Json.Parameters}

/-- A run that goes on from the state after `n` moves with the move `m`. -/
def GoesOn (run : Run) (n : Nat) (m : Move) (later : Run) : Prop :=
  later.start = run.start ∧ run.moves.take n ++ [m] <+: later.moves

/-- Whoever goes on from a state has come to that state. -/
theorem GoesOn.router_eq {m : Move} {later : Run} (h : run.GoesOn n m later) :
    later.router (run.moves.take n).length = run.router n ∧
      later.moves[(run.moves.take n).length]? = some m := by
  obtain ⟨hstart, rest, hmoves⟩ := h
  rw [List.append_assoc] at hmoves
  rw [router, router, hstart, ← hmoves]
  refine ⟨by rw [List.take_left], ?_⟩
  rw [List.getElem?_append_right (Nat.le_refl _), Nat.sub_self]
  rfl

/-- Once a reply to a request has been accepted, every further reply is refused. -/
theorem declines_later_reply {around : Surroundings} {later : Run}
    (hq : q ∈ (run.router n).requests) (hw : q.state = .awaitingReply)
    (h : run.GoesOn n ⟨around, .router (.reply application q.id isError payload)⟩ later) {k : Nat}
    (hk : (run.moves.take n).length < k) (around' : Surroundings) (application' : String)
    (isError' : Bool) (payload' : Json.Parameters) :
    (later.router k).Declines around' q.id (.reply application' q.id isError' payload') := by
  obtain ⟨hrouter, hmove⟩ := h.router_eq
  have hends : later.EndsWait .reply q.id (run.moves.take n).length := by
    refine ⟨_, _, hmove, rfl, q, ?_, rfl, hw, .inl rfl⟩
    rwa [hrouter]
  exact Router.declines_of_not_waits (later.coupled k) around' rfl
    (not_waits_of_endsWait_lt hends hk)

/-- After any moves, a reply to a request that waits for one is accepted, whoever replies and
whatever the reply is, and posts one step, where events are taken. The posted steps can then be
made until none is left, in any surroundings in which events are taken. However they are made, in
the end the request is not in flight and stands in no lane. It has been returned in one round,
with the verdict on the reply, so it counts once, as a success or as a failure. One reply goes out
for it, to the channel that its requester has in that round, if it has one and commands are carried
out. Every further reply to the request is refused, however the run goes on. -/
theorem reply_settles (run : Run) (n : Nat) (around : Surroundings) (application : String)
    (isError : Bool) (payload : Json.Parameters) {q : Request}
    (hq : q ∈ (run.router n).requests) (hw : q.state = .awaitingReply) :
    let r := run.router n
    let call : RouterCall := .reply application q.id isError payload
    let t := r.perform around call
    let settled : Request :=
      { q with state := .settled, outcome := some (q.verdict application isError payload) }
    t.value = .done ∧ posted t.effects = around.wakes ∧
      t.state.Sweepable ∧
      (∀ k rounds s, 0 < k → Sweeps t.state k rounds s →
        (∀ p ∈ s.requests, p.id ≠ q.id) ∧ (∀ lane, q.id ∉ s.lanes.get lane) ∧
        s.counters = r.counters.plus (.tally [] (rounds.filterMap Round.returned?)) ∧
        ∃ x ∈ rounds,
          (rounds.filterMap Round.returned?).filter (fun y => y.request.id = q.id) =
            [⟨settled, x.around.host.connection? q.requester⟩] ∧
          settled.succeeded = ! settled.failed ∧
          (rounds.flatMap Round.outs).filter (fun o => o.returns? = some q.id) =
            if x.around.host.attended then
              (x.around.host.connection? q.requester).toList.map fun c => .returned c settled
            else []) ∧
      ∀ later, run.GoesOn n ⟨around, .router call⟩ later →
        ∀ k, (run.moves.take n).length < k → ∀ around' application' isError' payload',
          ((later.router k).perform around' (.reply application' q.id isError' payload')).value =
            .refused (.notPending q.id) := by
  intro r call t settled
  have hcoupled : Coupled r.requests r.lanes := run.coupled n
  have hstage : q.state.stage? = some .reply := by rw [hw]; rfl
  have hcall : call.wait? = some (.reply, q.id) := rfl
  have hsettled : q.resumedBy call = settled := Request.resumedBy_reply (hcoupled.sound q hq) hw
  obtain ⟨es, hshows, hperform⟩ := Router.perform_of_waits around hcoupled hq hstage hcall
  have ht : t = ⟨.done, r.resume q settled, es⟩ := by
    rw [← hsettled]
    exact hperform
  have hafter : Coupled t.state.requests t.state.lanes := (Router.changes_report hcoupled hcall).1
  have hmem : settled ∈ t.state.requests := by
    rw [ht]
    exact Request.mem_replaceIn_self hq rfl
  have hdue : ∀ {k}, 0 < k → t.state.Due k := fun hk => ⟨hafter, fun _ => hk⟩
  refine ⟨?_, ?_, ?_, ?_, ?_⟩
  · rw [ht]
  · rw [ht]
    exact hshows.posted
  · exact Router.sweepable hafter
  · intro k rounds s hk hsweeps
    obtain ⟨x, hx, hreturned, houts, hgone⟩ := hsweeps.exists_return (hdue hk) hmem rfl
    have hcounters := hsweeps.counters (hdue hk)
    have hkept : t.state.counters = r.counters := by rw [ht]; rfl
    have hnowhere : ∀ lane, q.id ∉ s.lanes.get lane :=
      (hsweeps.coupled (hdue hk)).absent_of_fresh hgone
    refine ⟨hgone, hnowhere, hkept ▸ hcounters, x, hx, hreturned, ?_, ?_⟩
    · rw [Request.failed_eq_not_succeeded rfl, Bool.not_not]
    · exact houts.trans (x.around.host.filter_parting settled)
  · intro later hlater k hk around' application' isError' payload'
    exact (declines_later_reply hq hw hlater hk around' application' isError' payload').2.1

/-- The editor's request, to which the printer has replied, has been sent back to the editor once
the posted step and the one it posts have been made. -/
theorem reply_settles_errand :
    let q := (printing.choose "printer").moveTo .awaitingReply
    let t := (errand.router 4).perform office (.reply "printer" q.id false .empty)
    q ∈ (errand.router 4).requests ∧ q.state = .awaitingReply ∧
      ∃ rounds s, Sweeps t.state 1 rounds s ∧ (∀ p ∈ s.requests, p.id ≠ q.id) ∧
        (rounds.flatMap Round.outs).filter (fun o => o.returns? = some q.id) =
          [.returned ⟨"editor", "e"⟩
            { q with state := .settled, outcome := some (.succeeded .empty) }] := by
  intro q t
  have hq : q ∈ (errand.router 4).requests := List.mem_cons_self
  refine ⟨hq, rfl, ?_⟩
  obtain ⟨-, -, hmade, hall, -⟩ := errand.reply_settles 4 office "printer" false .empty hq rfl
  obtain ⟨rounds, s, hsweeps, hworld⟩ := hmade 1 [office, office] Nat.one_pos
    (by simp [office]) rfl
  obtain ⟨hgone, -, -, x, hx, -, -, houts⟩ := hall 1 rounds s Nat.one_pos hsweeps
  have hoffice : x.around = office := by
    have hmem : x.around ∈ rounds.map Round.around := List.mem_map_of_mem hx
    rw [hworld] at hmem
    simpa using hmem
  rw [hoffice] at houts
  exact ⟨rounds, s, hsweeps, hgone, houts⟩

end Run

end IntentRouter
