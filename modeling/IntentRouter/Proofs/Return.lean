import IntentRouter.Proofs.History
import IntentRouter.Proofs.Load

/-!
# Requests that are returned

A request leaves the router in one way only: a step finds it settled, or settles it, and
returns it to its requester. So the requests in flight before a move and not afterwards are
exactly those that the move returns. The outcome that a request has while it is in flight is
the one it is returned with.
-/

namespace IntentRouter

open Effect

/-- A settled request on its way back to its requester. -/
structure Return where
  /-- The record of the request, with its outcome. -/
  request : Request
  /-- The channel on which its requester is reached, if it is. -/
  channel : Option Connection

/-- The return of a request to its requester. -/
def Host.returnOf (h : Host) (q : Request) : Return := ⟨q, h.connection? q.requester⟩

namespace Router

variable {r : Router} {around : Surroundings} {p : Request} {pass : Passage} {x : Return}

/-- What a step in these surroundings returns, if it takes the next request to its end. -/
def returned? (r : Router) (around : Surroundings) : Option Return :=
  (r.lanes.main.head?.bind r.request?).bind fun p =>
    let q := (advance around r.settings r.listener p).request
    if q.state = .settled then some (around.host.returnOf q) else none

/-- A step returns its request if the request is settled in the end. -/
theorem Steps.returned?_eq (hs : r.Steps around p pass) (h : Coupled r.requests r.lanes) :
    r.returned? around =
      if pass.request.state = .settled then some (around.host.returnOf pass.request) else none := by
  have hfind := request?_eq_some h.names hs.known
  simp only [returned?, hs.next, Option.bind_some, hfind, hs.pass_eq]

/-- Whatever is returned has been settled by the end of the step with it. -/
theorem exists_steps (h : Coupled r.requests r.lanes) (hx : r.returned? around = some x) :
    ∃ p pass, r.Steps around p pass ∧ pass.request.state = .settled ∧
      around.host.returnOf pass.request = x := by
  rcases idle_or_steps h around with hmain | ⟨p, pass, hs⟩
  · rw [returned?, hmain] at hx
    cases hx
  · rw [hs.returned?_eq h] at hx
    by_cases hq : pass.request.state = .settled
    · rw [if_pos hq] at hx
      exact ⟨p, pass, hs, hq, Option.some.inj hx⟩
    · rw [if_neg hq] at hx
      cases hx

/-- A step reports the request that it returns, and no other, as taken back. -/
theorem ended_process (h : Coupled r.requests r.lanes) (around : Surroundings) :
    ended (r.process around).effects = (r.returned? around).toList.map fun x => x.request.id := by
  rcases idle_or_steps h around with hmain | ⟨p, pass, hs⟩
  · rw [process_of_idle hmain, returned?, hmain]
    rfl
  · have hway := hs.onWay h
    have hwake := (wake_shows around).ended
    rw [hs.returned?_eq h]
    rcases hs.waits_or_settled h with ⟨stage, hw⟩ | hq
    · rw [process_of_waits hs h hw, if_neg (RequestState.ne_settled_of_stage hw), ended_append,
        hway.ended, hwake]
      rfl
    · have htaken := (around.host.takeBack_shows pass.request).ended
      rw [process_of_settled hs h hq, if_pos hq, ended_append, ended_append, hway.ended, htaken,
        hwake]
      rfl

end Router

namespace Move

/-- What a move returns, if it is a step that takes a request to its end. -/
def returned? (m : Move) (r : Router) : Option Return :=
  match m.ask with
  | .router .process | .router (.handle .process) => r.returned? m.around
  | _ => none

/-- A move is a step of the router, or takes and returns nothing. -/
theorem step_or_not (m : Move) (r : Router) :
    ((m.turn r).state = (r.process m.around).state ∧
        (m.turn r).effects = (r.process m.around).effects ∧
          m.taken? r = r.lanes.main.head? ∧ m.returned? r = r.returned? m.around) ∨
      (m.taken? r = none ∧ m.returned? r = none) := by
  obtain ⟨around, ask⟩ := m
  cases ask with
  | catalog call => exact .inr ⟨rfl, rfl⟩
  | router call =>
    cases call with
    | process => exact .inl ⟨rfl, rfl, rfl, rfl⟩
    | handle event =>
      cases event with
      | process => exact .inl ⟨rfl, rfl, rfl, rfl⟩
      | timeout stage id millis => exact .inr ⟨rfl, rfl⟩
    | _ => exact .inr ⟨rfl, rfl⟩

end Move

/-- Without a step no request is taken back. -/
theorem Change.ended_eq_nil {around : Surroundings} {before after : List Request}
    {effects : List Effect} {admitted : Option Request}
    (h : Change around before after effects none admitted) : ended effects = [] := by
  cases h with
  | still shows => exact shows.ended
  | admitted _ _ _ shows => exact shows.ended
  | resumed _ _ _ _ _ _ _ shows => exact shows.ended
  | released _ _ shows => exact shows.ended

namespace Run

variable {run : Run} {n k : Nat} {m : Move} {q : Request} {x : Return} {id : RequestId}

/-- What a move returns, if it returns a request. -/
def returned? (run : Run) (n : Nat) : Option Return :=
  run.moves[n]?.bind fun m => m.returned? (run.router n)

theorem returned?_eq (h : run.moves[n]? = some m) :
    run.returned? n = m.returned? (run.router n) := by
  rw [returned?, h]
  rfl

/-- Whatever a move returns has been settled by the end of the step with it. -/
theorem exists_steps (h : run.returned? n = some x) :
    ∃ m p pass, run.moves[n]? = some m ∧ (run.router n).Steps m.around p pass ∧
      pass.request.state = .settled ∧ m.around.host.returnOf pass.request = x := by
  cases hm : run.moves[n]? with
  | none =>
    rw [returned?, hm] at h
    cases h
  | some m =>
    rw [returned?_eq hm] at h
    rcases m.step_or_not (run.router n) with ⟨-, -, -, hreturned⟩ | ⟨-, hnone⟩
    · rw [hreturned] at h
      obtain ⟨p, pass, hs, hq, hx⟩ := Router.exists_steps (run.coupled n) h
      exact ⟨m, p, pass, rfl, hs, hq, hx⟩
    · rw [hnone] at h
      cases h

/-- A move that takes a request makes a step with it, and returns what the step returns. -/
theorem steps_of_taken (h : run.taken? n = some id) :
    ∃ m p pass, run.moves[n]? = some m ∧ (run.router n).Steps m.around p pass ∧ p.id = id ∧
      run.returned? n = (run.router n).returned? m.around := by
  cases hm : run.moves[n]? with
  | none =>
    rw [taken?, hm] at h
    cases h
  | some m =>
    rw [taken?_eq hm] at h
    rcases m.step_or_not (run.router n) with ⟨-, -, hnext, hreturned⟩ | ⟨hnone, -⟩
    · rw [hnext] at h
      rcases Router.idle_or_steps (run.coupled n) m.around with hmain | ⟨p, pass, hs⟩
      · rw [hmain] at h
        cases h
      · have hid : p.id = id := Option.some.inj (hs.next.symm.trans h)
        exact ⟨m, p, pass, rfl, hs, hid, (returned?_eq hm).trans hreturned⟩
    · rw [hnone] at h
      cases h

/-- A move reports the request that it returns, and no other, as taken back. -/
theorem ended_effects (run : Run) (n : Nat) :
    ended (run.effects n) = (run.returned? n).toList.map fun x => x.request.id := by
  cases hm : run.moves[n]? with
  | none =>
    rw [effects, returned?, hm]
    rfl
  | some m =>
    rcases m.step_or_not (run.router n) with ⟨-, heffects, -, hreturned⟩ | ⟨htaken, hnone⟩
    · rw [effects_eq hm, heffects, returned?_eq hm, hreturned,
        Router.ended_process (run.coupled n)]
    · have hchange := run.change hm
      rw [taken?_eq hm, htaken] at hchange
      rw [hchange.ended_eq_nil, returned?_eq hm, hnone]
      rfl

/-- The request that a move returns and those in flight afterwards are those in flight before and
the one admitted, each once. -/
theorem names_perm (run : Run) (n : Nat) :
    (((run.returned? n).toList.map fun x => x.request.id) ++
        (run.router (n + 1)).requests.map Request.id).Perm
      ((run.router n).requests.map Request.id ++ (run.admitted? n).toList.map Request.id) := by
  cases hm : run.moves[n]? with
  | none =>
    rw [returned?, admitted?, Router.admission?, hm, router_succ_of_none hm]
    simp
  | some m =>
    rw [← run.ended_effects n]
    exact (run.change hm).names_perm (run.coupled n).names

/-- A move does not both return and admit a request. -/
theorem admitted?_of_returned? (h : run.returned? n = some x) : run.admitted? n = none := by
  obtain ⟨m, p, pass, hm, -⟩ := exists_steps h
  rw [returned?_eq hm] at h
  rw [admitted?_eq hm]
  unfold Move.returned? at h
  unfold Move.admitted?
  split at h
  · next hask => rw [hask]
  · next hask => rw [hask]
  · cases h

/-- The requests in flight before a move and not afterwards are those that it returns. -/
theorem returned_iff_gone (run : Run) (n : Nat) (id : RequestId) :
    (∃ x, run.returned? n = some x ∧ x.request.id = id) ↔
      (∃ q ∈ (run.router n).requests, q.id = id) ∧
        ∀ q ∈ (run.router (n + 1)).requests, q.id ≠ id := by
  have hperm := run.names_perm n
  constructor
  · rintro ⟨x, hx, rfl⟩
    rw [hx, admitted?_of_returned? hx] at hperm
    simp only [Option.toList_some, Option.toList_none, List.map_cons, List.map_nil, List.append_nil,
      List.singleton_append] at hperm
    have honce := hperm.nodup_iff.mpr (run.coupled n).names
    obtain ⟨hgone, -⟩ := List.nodup_cons.mp honce
    exact ⟨List.mem_map.mp (hperm.mem_iff.mp List.mem_cons_self),
      fun q hq hid => hgone (hid ▸ List.mem_map_of_mem hq)⟩
  · rintro ⟨hbefore, hgone⟩
    have hmem := hperm.mem_iff.mpr (List.mem_append_left _ (List.mem_map.mpr hbefore))
    rcases List.mem_append.mp hmem with hreturned | hafter
    · obtain ⟨x, hx, hid⟩ := List.mem_map.mp hreturned
      exact ⟨x, Option.mem_toList.mp hx, hid⟩
    · obtain ⟨q, hq, hid⟩ := List.mem_map.mp hafter
      exact absurd hid (hgone q hq)

/-- A request that was settled before is returned as it is, and any other is returned because its
handler has no channel. -/
theorem returned_cases (hm : run.moves[n]? = some m) (h : run.returned? n = some x) :
    (x.request ∈ (run.router n).requests ∧ x.request.state = .settled) ∨
      ∃ handler, x.request.handler = some handler ∧ m.around.host.connection? handler = none ∧
        x.request.outcome = some (.failed Router.noChannelMessage) := by
  obtain ⟨m', p, pass, hm', hs, hq, rfl⟩ := exists_steps h
  obtain rfl := Option.some.inj (hm.symm.trans hm')
  by_cases hsettled : p.state = .settled
  · refine .inl ⟨?_, hq⟩
    change pass.request ∈ _
    rw [hs.request_eq hsettled]
    exact hs.known
  · have hsound := (run.coupled n).sound p hs.known
    exact .inr (Router.advance_settled hsound hs.ready hsettled hs.pass_eq hq)

/-- A step with a settled request returns it. -/
theorem returned_of_taken (htaken : run.taken? k = some id)
    (settled : ∀ p ∈ (run.router k).requests, p.id = id → p.state = .settled) :
    ∃ x, run.returned? k = some x ∧ x.request.id = id := by
  obtain ⟨m, p, pass, -, hsteps, rfl, hreturned⟩ := steps_of_taken htaken
  have hs := settled p hsteps.known rfl
  rw [hreturned, hsteps.returned?_eq (run.coupled k), hsteps.request_eq hs, if_pos hs]
  exact ⟨_, rfl, rfl⟩

/-- A request in flight has not been returned before. -/
theorem le_of_returned (hq : q ∈ (run.router n).requests) (hx : run.returned? k = some x)
    (hid : x.request.id = q.id) : n ≤ k := by
  by_contra hlt
  have hgone := (run.returned_iff_gone k q.id).mp ⟨x, hx, hid⟩
  obtain ⟨p, hp, hpid⟩ := hgone.1
  obtain ⟨l, hl, q₀, hadmitted, hfirst⟩ := run.traced k p hp
  have hsame : q.id = q₀.id := hpid.symm.trans hfirst.alike.id
  have hended := phase_eq_ended hgone.2
  rw [hsame] at hended
  exact (gone_of_le hadmitted (Nat.lt_succ_of_lt hl) (by omega) hended).1 q hq hsame

/-- A request stays settled with the outcome it has. -/
theorem settled_of_le {q' : Request} {o : Outcome} (hq : q ∈ (run.router n).requests)
    (ho : q.outcome = some o) (hnk : n ≤ k) (hq' : q' ∈ (run.router k).requests)
    (hid : q'.id = q.id) : q'.state = .settled ∧ q'.outcome = some o := by
  have ho' := (becomes_of_le hnk q hq q' hq' hid.symm).outcome o ho
  exact ⟨((run.coupled k).sound q' hq').outcome.mp (by rw [ho']; rfl), ho'⟩

/-- A request is returned with the outcome it has. -/
theorem outcome_of_returned {o : Outcome} (hq : q ∈ (run.router n).requests)
    (ho : q.outcome = some o) (hx : run.returned? k = some x) (hid : x.request.id = q.id) :
    x.request.outcome = some o := by
  have hnk := le_of_returned hq hx hid
  obtain ⟨m, p, pass, -, hs, -, rfl⟩ := exists_steps hx
  have hbecomes := (hs.onWay (run.coupled k)).becomes
  have hpid : p.id = q.id := hbecomes.alike.id.symm.trans hid
  exact hbecomes.outcome o (settled_of_le hq ho hnk hs.known hpid).2

end Run

end IntentRouter
