import IntentRouter.Proofs.Return
import IntentRouter.Proofs.Trace

/-!
# The accounts of a router

The counters are kept at three places: where a submission is decided, where a request is
returned, and where its requester cannot be reached. Together they tell what has happened
in a run: how submissions were answered, and how the requests ended that were returned.
Requests in flight make up the difference.
-/

namespace IntentRouter

open Effect

namespace Counters

/-- The sums of two sets of counters. -/
def plus (m k : Counters) : Counters :=
  ⟨m.submitted + k.submitted, m.rejected + k.rejected, m.succeeded + k.succeeded,
    m.failed + k.failed, m.undeliverable + k.undeliverable⟩

/-- What the answers to submissions and the requests that were returned come to. -/
def tally (decisions : List (Except Refusal Request)) (returns : List Return) : Counters where
  submitted := decisions.countP fun d => d.isOk
  rejected := decisions.countP fun d => ! d.isOk
  succeeded := returns.countP fun x => x.request.succeeded
  failed := returns.countP fun x => x.request.failed
  undeliverable := returns.countP fun x => x.channel.isNone

/-- What happens later is added to what has happened before. -/
theorem plus_tally (decisions decisions' : List (Except Refusal Request))
    (returns returns' : List Return) :
    (tally decisions returns).plus (tally decisions' returns') =
      tally (decisions ++ decisions') (returns ++ returns') := by
  simp only [plus, tally, List.countP_append]

/-- A request that is returned is counted once. -/
theorem record_eq (m : Counters) (host : Host) (q : Request) :
    m.record host q = m.plus (.tally [] [host.returnOf q]) := by
  simp only [record, plus, tally, Host.returnOf, List.countP_nil, List.countP_singleton,
    Nat.add_zero]
  cases host.connection? q.requester <;> rfl

end Counters

/-- The effect sends a settled request back to its requester. -/
def Effect.isReply : Effect → Bool
  | .command (.deliverReply ..) => true
  | _ => false

/-- The output is a settled request on the way to its requester. -/
def Output.isReply : Output → Bool
  | .returned .. => true
  | _ => false

/-- Replies are among what goes out. -/
theorem Effect.countP_isReply (es : List Effect) :
    es.countP isReply = (outputs es).countP Output.isReply := by
  rw [outputs, List.countP_filterMap]
  refine List.countP_congr fun e _ => ?_
  cases e with
  | command c => cases c <;> rfl
  | note entry =>
    cases entry with
    | request id note => cases note <;> rfl
    | _ => rfl
  | _ => rfl

/-- One reply goes out for a request whose requester is reached, if commands are carried out. -/
theorem Host.countP_parting {h : Host} (hatt : h.attended = true) (q : Request) :
    (h.parting q).countP Output.isReply = [h.returnOf q].countP fun x => x.channel.isSome := by
  unfold parting returnOf
  cases h.connection? q.requester with
  | none => rfl
  | some channel =>
    simp only [if_pos hatt]
    rfl

namespace Router

variable {r : Router} {around : Surroundings} {id : RequestId} {stage : Stage}

/-- A submission is counted as it is answered. -/
theorem counters_submit (r : Router) (around : Surroundings) (id : RequestId) (now : Timestamp)
    (s : Submission) :
    (r.submit around id now s).state.counters =
      r.counters.plus (.tally [(r.submit around id now s).value] []) := by
  rcases r.submit_cases around id now s with
    ⟨candidates, lanes, -, hvalue, hstate⟩ | ⟨reason, hvalue, hstate⟩ <;>
  · rw [hvalue, hstate]
    rfl

/-- A step counts what it returns. -/
theorem counters_process (h : Coupled r.requests r.lanes) (around : Surroundings) :
    (r.process around).state.counters =
      r.counters.plus (.tally [] (r.returned? around).toList) := by
  rcases idle_or_steps h around with hmain | ⟨p, pass, hs⟩
  · rw [process_of_idle hmain, returned?, hmain]
    rfl
  · rw [hs.returned?_eq h]
    rcases hs.waits_or_settled h with ⟨stage, hw⟩ | hq
    · rw [process_of_waits hs h hw, if_neg (RequestState.ne_settled_of_stage hw)]
      rfl
    · rw [process_of_settled hs h hq, if_pos hq]
      exact Counters.record_eq r.counters around.host pass.request

/-- A report counts nothing. -/
theorem counters_report (h : Coupled r.requests r.lanes) (around : Surroundings)
    (call : RouterCall) (hcall : call.wait? = some (stage, id)) :
    (r.perform around call).state.counters = r.counters := by
  obtain ⟨requests, lanes, posts, hstate, -⟩ := report_frame around h hcall
  rw [hstate]

/-- A step sends a reply when it returns a request whose requester is reached. -/
theorem replies_process (h : Coupled r.requests r.lanes) (hatt : around.host.attended = true) :
    (r.process around).effects.countP isReply =
      (r.returned? around).toList.countP fun x => x.channel.isSome := by
  rw [countP_isReply]
  rcases idle_or_steps h around with hmain | ⟨p, pass, hs⟩
  · rw [process_of_idle hmain, returned?, hmain]
    rfl
  · have hway := hs.onWay h
    have hwake := (wake_shows around).outputs
    rw [hs.returned?_eq h]
    rcases hs.waits_or_settled h with ⟨stage, hw⟩ | hq
    · -- What goes out when a wait begins is no reply, which would be that of a settled request.
      have hne := RequestState.ne_settled_of_stage hw
      rw [process_of_waits hs h hw, if_neg hne, outputs_append, hwake, List.append_nil]
      refine List.countP_eq_zero.mpr fun o ho hreply => ?_
      have hmark := hway.marks o ho
      cases o with
      | returned channel q => exact hne hmark.1
      | _ => cases hreply
    · have hsilent := hway.silent (by rw [hq]; rfl)
      have htaken := (around.host.takeBack_shows pass.request).outputs
      rw [process_of_settled hs h hq, if_pos hq, outputs_append, outputs_append, hsilent.outputs,
        htaken, hwake, List.append_nil, List.nil_append]
      exact Host.countP_parting hatt pass.request

end Router

namespace Move

variable {r : Router}

/-- How a move answers a submission, if it is one. -/
def decision? (m : Move) (r : Router) : Option (Except Refusal Request) :=
  match m.ask with
  | .router (.submit id now s) => some (r.submit m.around id now s).value
  | _ => none

/-- A move admits the request with which it answers a submission. -/
theorem admitted?_eq_decision? (m : Move) (r : Router) :
    m.admitted? r = (m.decision? r).bind Except.toOption := by
  obtain ⟨around, ask⟩ := m
  cases ask with
  | catalog call => rfl
  | router call => cases call <;> rfl

/-- Every move counts what it decides and what it returns. -/
theorem counters_turn (m : Move) (h : Coupled r.requests r.lanes) :
    (m.turn r).state.counters =
      r.counters.plus (.tally (m.decision? r).toList (m.returned? r).toList) := by
  obtain ⟨around, ask⟩ := m
  cases ask with
  | catalog call => rfl
  | router call =>
    cases call with
    | submit id now s => exact Router.counters_submit r around id now s
    | process => exact Router.counters_process h around
    | handle event =>
      cases event with
      | process => exact Router.counters_process h around
      | timeout stage id millis =>
        exact Router.counters_report h around (.handle (.timeout stage id millis)) rfl
    | resolve id selected => exact Router.counters_report h around (.resolve id selected) rfl
    | reject id => exact Router.counters_report h around (.reject id) rfl
    | reply application id isError payload =>
      exact Router.counters_report h around (.reply application id isError payload) rfl
    | announceStart application =>
      have heq : r.announceStart around application = _ := Router.announceStart_eq h application
      exact congrArg (fun t => t.state.counters) heq
    | setTimeout stage duration =>
      simp only [turn, Router.perform, Router.setTimeout]
      cases r.settings.setTimeout stage duration <;> rfl
    | _ => rfl

end Move

namespace Run

variable {run : Run} {n : Nat} {m : Move}

/-- How a move answers a submission, if it is one. -/
def decision? (run : Run) (n : Nat) : Option (Except Refusal Request) :=
  run.moves[n]?.bind fun m => m.decision? (run.router n)

/-- The answers to all submissions so far. -/
def decisions (run : Run) (n : Nat) : List (Except Refusal Request) :=
  (List.range n).filterMap run.decision?

/-- All that has been returned so far. -/
def returns (run : Run) (n : Nat) : List Return := (List.range n).filterMap run.returned?

/-- How many replies have been sent so far. -/
def replies (run : Run) (n : Nat) : Nat :=
  ((List.range n).flatMap run.effects).countP Effect.isReply

theorem decisions_succ (run : Run) (n : Nat) :
    run.decisions (n + 1) = run.decisions n ++ (run.decision? n).toList := by
  rw [decisions, List.range_succ, List.filterMap_append, decisions]
  cases hd : run.decision? n <;> simp [hd]

theorem returns_succ (run : Run) (n : Nat) :
    run.returns (n + 1) = run.returns n ++ (run.returned? n).toList := by
  rw [returns, List.range_succ, List.filterMap_append, returns]
  cases hx : run.returned? n <;> simp [hx]

theorem replies_succ (run : Run) (n : Nat) :
    run.replies (n + 1) = run.replies n + (run.effects n).countP Effect.isReply := by
  rw [replies, List.range_succ, List.flatMap_append, List.countP_append, List.flatMap_singleton,
    replies]

/-- The counters are the tally of what has been decided and returned. -/
theorem counters_eq_tally (run : Run) (n : Nat) :
    (run.router n).counters = .tally (run.decisions n) (run.returns n) := by
  induction n with
  | zero =>
    rw [router_zero, start_eq_fresh]
    rfl
  | succ n ih =>
    have hstep : (run.router (n + 1)).counters = (run.router n).counters.plus
        (.tally (run.decision? n).toList (run.returned? n).toList) := by
      cases hm : run.moves[n]? with
      | none =>
        rw [router_succ_of_none hm, decision?, returned?, hm]
        rfl
      | some m =>
        rw [router_succ hm, m.counters_turn (run.coupled n), returned?_eq hm, decision?, hm]
        rfl
    rw [hstep, ih, Counters.plus_tally, decisions_succ, returns_succ]

/-- Whatever is admitted is in flight until it is returned. -/
theorem length_returns_add_pending (run : Run) (n : Nat) :
    (run.returns n).length + (run.router n).pending =
      (run.decisions n).countP fun d => d.isOk := by
  induction n with
  | zero =>
    rw [router_zero, start_eq_fresh]
    rfl
  | succ n ih =>
    have hlength := (run.names_perm n).length_eq
    have hadmitted : (run.admitted? n).toList.length =
        (run.decision? n).toList.countP fun d => d.isOk := by
      cases hm : run.moves[n]? with
      | none =>
        rw [admitted?, Router.admission?, decision?, hm]
        rfl
      | some m =>
        rw [admitted?_eq hm, m.admitted?_eq_decision?, decision?, hm, Option.bind_some]
        cases m.decision? (run.router n) with
        | none => rfl
        | some d => cases d <;> rfl
    simp only [List.length_append, List.length_map, hadmitted] at hlength
    rw [returns_succ, decisions_succ, List.length_append, List.countP_append]
    simp only [Router.pending] at ih ⊢
    omega

/-- Everything returned so far was settled, and so has an outcome. -/
theorem settled_of_mem_returns {x : Return} (hx : x ∈ run.returns n) :
    x.request.state = .settled ∧ x.request.outcome.isSome = true := by
  obtain ⟨j, -, hj⟩ := List.mem_filterMap.mp hx
  obtain ⟨m, p, pass, -, hs, hq, rfl⟩ := exists_steps hj
  exact ⟨hq, (hs.onWay (run.coupled j)).sound.outcome.mpr hq⟩

/-- Everything returned so far has either succeeded or failed. -/
theorem succeeded_add_failed (run : Run) (n : Nat) :
    (run.router n).counters.succeeded + (run.router n).counters.failed =
      (run.returns n).length := by
  rw [counters_eq_tally, Counters.tally,
    List.length_eq_countP_add_countP fun x : Return => x.request.succeeded]
  refine congrArg _ (List.countP_congr fun x hx => ?_)
  rw [Request.failed_eq_not_succeeded (settled_of_mem_returns hx).2]
  simp

/-- While commands are carried out, a reply is sent for every request that is returned to a
requester that is reached. -/
theorem replies_eq (h : ∀ j < n, ∀ m, run.moves[j]? = some m → m.around.host.attended = true) :
    run.replies n = (run.returns n).countP fun x => x.channel.isSome := by
  induction n with
  | zero => rfl
  | succ n ih =>
    have hstep : (run.effects n).countP Effect.isReply =
        (run.returned? n).toList.countP fun x => x.channel.isSome := by
      cases hm : run.moves[n]? with
      | none =>
        rw [effects, returned?, hm]
        rfl
      | some m =>
        rcases m.step_or_not (run.router n) with ⟨-, heffects, -, hreturned⟩ | ⟨htaken, hnone⟩
        · rw [effects_eq hm, heffects, returned?_eq hm, hreturned]
          exact Router.replies_process (run.coupled n) (h n (Nat.lt_succ_self n) m hm)
        · have hchange := run.change hm
          rw [taken?_eq hm, htaken] at hchange
          rw [Effect.countP_isReply, hchange.outputs_eq_nil, returned?_eq hm, hnone]
          rfl
    rw [replies_succ, returns_succ, List.countP_append, hstep,
      ih fun j hj => h j (Nat.lt_succ_of_lt hj)]

/-- What the counters tell after so many moves. -/
structure Balanced (run : Run) (n : Nat) : Prop where
  /-- They count the submissions admitted and refused, the requests returned with a success and
  with a failure, and those returned to a requester that was not reached. -/
  tally : (run.router n).counters = .tally (run.decisions n) (run.returns n)
  /-- Whoever was admitted has succeeded, has failed or is in flight. -/
  balance : (run.router n).counters.submitted =
    (run.router n).counters.succeeded + (run.router n).counters.failed + (run.router n).pending
  /-- Whatever is returned has an outcome and goes to where its requester is reached then. -/
  settled : ∀ j m x, run.moves[j]? = some m → run.returned? j = some x →
    x.request.state = .settled ∧ x.request.outcome.isSome = true ∧
      x.channel = m.around.host.connection? x.request.requester
  /-- The requests that are returned are those that leave the router. -/
  gone : ∀ j id, (∃ x, run.returned? j = some x ∧ x.request.id = id) ↔
    (∃ q ∈ (run.router j).requests, q.id = id) ∧ ∀ q ∈ (run.router (j + 1)).requests, q.id ≠ id
  /-- While commands are carried out, a reply is sent for every request that has ended and whose
  requester is reached. -/
  replies : (∀ j < n, ∀ m, run.moves[j]? = some m → m.around.host.attended = true) →
    run.replies n + (run.router n).counters.undeliverable =
      (run.router n).counters.succeeded + (run.router n).counters.failed

/-- After any moves the counters are in balance. -/
theorem accounts_balance (run : Run) (n : Nat) : run.Balanced n where
  tally := run.counters_eq_tally n
  balance := by
    have hpending := run.length_returns_add_pending n
    have hsubmitted : (run.router n).counters.submitted =
        (run.decisions n).countP fun d => d.isOk := by
      rw [counters_eq_tally]
      rfl
    rw [hsubmitted, succeeded_add_failed, hpending]
  settled := by
    intro j m x hm hx
    obtain ⟨m', p, pass, hm', hs, hq, rfl⟩ := exists_steps hx
    obtain rfl := Option.some.inj (hm.symm.trans hm')
    exact ⟨hq, (hs.onWay (run.coupled j)).sound.outcome.mpr hq, rfl⟩
  gone := run.returned_iff_gone
  replies := by
    intro hatt
    have hundeliverable : (run.router n).counters.undeliverable =
        (run.returns n).countP fun x => x.channel.isNone := by
      rw [counters_eq_tally]
      rfl
    have hreached := List.length_eq_countP_add_countP (l := run.returns n)
      fun x : Return => x.channel.isSome
    have hothers : (run.returns n).countP (fun x => decide ¬ x.channel.isSome = true) =
        (run.returns n).countP fun x => x.channel.isNone := by
      refine List.countP_congr fun x _ => ?_
      cases x.channel <;> simp
    rw [succeeded_add_failed, hundeliverable, replies_eq hatt, hreached, hothers]

/-- An errand ends with one request admitted, one success and one reply. -/
theorem accounts_errand :
    (errand.router 6).counters = ⟨1, 0, 1, 0, 0⟩ ∧ errand.replies 6 = 1 := by
  have hcounters : (errand.router 6).counters = ⟨1, 0, 1, 0, 0⟩ := rfl
  have hattended : ∀ j < 6, ∀ m, errand.moves[j]? = some m → m.around.host.attended = true := by
    intro j _ m hm
    obtain ⟨ask, -, rfl⟩ := List.mem_map.mp (List.mem_of_getElem? hm)
    rfl
  have hreplies := (errand.accounts_balance 6).replies hattended
  rw [hcounters] at hreplies
  exact ⟨hcounters, hreplies⟩

end Run

end IntentRouter
