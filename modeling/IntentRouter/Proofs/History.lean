import Mathlib.Data.Nat.Init
import IntentRouter.Proofs.Run

/-!
# The life of a request in a run

From its admission on a request is in some phase after every move. A move leaves
the phase as it is or moves it along the graph, so that no phase is entered twice
and a request that has ended is never seen again. The records of one request agree
on what the requester supplied, and keep the handler and the outcome once they
have them.
-/

namespace IntentRouter

/-- What a move that admits a request does. -/
theorem Change.of_admitted {around : Surroundings} {before after : List Request}
    {effects : List Effect} {taken : Option RequestId} {q : Request}
    (h : Change around before after effects taken (some q)) :
    q ∈ after ∧ q.state = .received := by
  cases h with
  | admitted _ hs => exact ⟨List.mem_append_right _ List.mem_cons_self, hs⟩

namespace Run

variable {run : Run} {k n : Nat} {m : Move} {p q q₀ : Request} {id : RequestId}

/-- The phase of a request after so many moves: its state while it is in flight, and the
end otherwise. -/
def phase (run : Run) (id : RequestId) (n : Nat) : Phase :=
  match (run.router n).request? id with
  | some q => .inFlight q.state
  | none => .ended

/-- A request in flight is in the phase of its state. -/
theorem phase_eq_inFlight (hq : q ∈ (run.router n).requests) :
    run.phase q.id n = .inFlight q.state := by
  rw [phase, Router.request?_eq_some (run.coupled n).names hq]

/-- A request has ended, or has not been admitted yet, when no record bears its name. -/
theorem phase_eq_ended (h : ∀ q ∈ (run.router n).requests, q.id ≠ id) :
    run.phase id n = .ended := by
  unfold phase
  cases hfind : (run.router n).request? id with
  | none => rfl
  | some q =>
    obtain ⟨hq, hid⟩ := Router.mem_of_request? hfind
    exact absurd hid (h q hq)

/-- No record bears the name of a request that has ended. -/
theorem ne_of_phase_eq_ended (h : run.phase id n = .ended) :
    ∀ q ∈ (run.router n).requests, q.id ≠ id := by
  intro q hq hid
  rw [← hid, phase_eq_inFlight hq] at h
  cases h

/-- Every record of an admitted request has become of the record it was admitted with. -/
theorem becomes_of_admitted (h : run.admitted? k = some q₀) (hq : q ∈ (run.router n).requests)
    (hid : q.id = q₀.id) : k < n ∧ q₀.Becomes q := by
  obtain ⟨i, hi, p, hp, hbecomes⟩ := run.traced n q hq
  have hsame : p.id = q₀.id := hbecomes.alike.id.symm.trans hid
  have hik := run.fresh i k p q₀ hp h hsame
  rw [hik, h] at hp
  obtain rfl := Option.some.inj hp
  exact ⟨hik ▸ hi, hbecomes⟩

/-- A request admitted earlier that is in flight after a move was so before. -/
theorem exists_before (h : run.admitted? k = some q₀) (hk : k < n)
    (hq : q ∈ (run.router (n + 1)).requests) (hid : q.id = q₀.id) :
    ∃ p ∈ (run.router n).requests, p.Becomes q := by
  cases hm : run.moves[n]? with
  | none =>
    rw [router_succ_of_none hm] at hq
    exact ⟨q, hq, .refl q⟩
  | some m =>
    rcases (run.change hm).origin hq with hold | hnew
    · exact hold
    · have hkn := run.fresh k n q₀ q h hnew hid.symm
      omega

/-- A later record of a request has become of an earlier one. -/
theorem becomes_of_le {i j : Nat} (hij : i ≤ j) :
    ∀ p ∈ (run.router i).requests, ∀ q ∈ (run.router j).requests, p.id = q.id → p.Becomes q := by
  induction j, hij using Nat.le_induction with
  | base =>
    intro p hp q hq hid
    rw [(run.coupled i).eq_of_id hp hq hid]
    exact .refl q
  | succ j hij ih =>
    intro p hp q hq hid
    obtain ⟨k, hk, q₀, hadmitted, hfirst⟩ := run.traced i p hp
    have hid₀ : q.id = q₀.id := hid.symm.trans hfirst.alike.id
    obtain ⟨q', hq', hbecomes⟩ := exists_before hadmitted (Nat.lt_of_lt_of_le hk hij) hq hid₀
    exact (ih p hp q' hq' (hid.trans hbecomes.alike.id)).trans hbecomes

/-- A move leaves an admitted request in its phase or moves it along the graph. -/
theorem path_succ (h : run.admitted? k = some q₀) (hk : k < n) :
    Phase.Path (run.phase q₀.id n) (run.phase q₀.id (n + 1)) := by
  cases hm : run.moves[n]? with
  | none =>
    rw [phase, phase, router_succ_of_none hm]
  | some m =>
    by_cases hflight : ∃ p ∈ (run.router n).requests, p.id = q₀.id
    · obtain ⟨p, hp, hid⟩ := hflight
      rw [← hid, phase_eq_inFlight hp]
      rcases (run.change hm).fate (run.coupled n).names hp with
        ⟨r, hr, hbecomes⟩ | ⟨-, hgone, hpath⟩
      · rw [← hbecomes.alike.id, phase_eq_inFlight hr]
        exact hbecomes.path
      · rw [phase_eq_ended hgone]
        exact hpath
    · have hend : run.phase q₀.id (n + 1) = .ended := by
        refine phase_eq_ended fun q hq hid => hflight ?_
        obtain ⟨p, hp, hbecomes⟩ := exists_before h hk hq hid
        exact ⟨p, hp, hbecomes.alike.id.symm.trans hid⟩
      have hnow : run.phase q₀.id n = .ended :=
        phase_eq_ended fun p hp hid => hflight ⟨p, hp, hid⟩
      rw [hend, hnow]

/-- From its admission on a request moves along the graph. -/
theorem path_of_le (h : run.admitted? k = some q₀) {i j : Nat} (hi : k < i) (hij : i ≤ j) :
    Phase.Path (run.phase q₀.id i) (run.phase q₀.id j) := by
  induction j, hij using Nat.le_induction with
  | base => exact .refl
  | succ j hij ih => exact ih.trans (path_succ h (Nat.lt_of_lt_of_le hi hij))

/-- An admitted request is in flight in its first state. -/
theorem phase_admitted (h : run.admitted? k = some q₀) :
    q₀ ∈ (run.router (k + 1)).requests ∧ run.phase q₀.id (k + 1) = .inFlight .received := by
  cases hm : run.moves[k]? with
  | none =>
    rw [admitted?, Router.admission?, hm] at h
    cases h
  | some m =>
    have hchange := run.change hm
    rw [h] at hchange
    obtain ⟨hmem, hstate⟩ := hchange.of_admitted
    rw [phase_eq_inFlight hmem, hstate]
    exact ⟨hmem, rfl⟩

/-- Once a request has ended, it is neither in flight nor in a lane again. -/
theorem gone_of_le (h : run.admitted? k = some q₀) {i j : Nat} (hi : k < i) (hij : i ≤ j)
    (hend : run.phase q₀.id i = .ended) :
    (∀ q ∈ (run.router j).requests, q.id ≠ q₀.id) ∧ q₀.id ∉ (run.router j).lanes.toList := by
  have hpath := path_of_le h hi hij
  rw [hend] at hpath
  have hgone := ne_of_phase_eq_ended (Phase.Path.of_ended hpath)
  refine ⟨hgone, fun hmem => ?_⟩
  obtain ⟨q, hq, hid⟩ := (run.coupled j).mem_toList_iff.mp hmem
  exact hgone q hq hid

/-- The life of an admitted request. It begins in the first state; every move leaves its phase
as it is or moves it along the graph; no phase that it has left is entered again; once it has
ended it is neither in flight nor in a lane. All its records agree with the admitted one on
what the requester supplied, and keep the handler and the outcome that an earlier one has. -/
theorem lifecycle (run : Run) {k : Nat} {q₀ : Request} (h : run.admitted? k = some q₀) :
    run.phase q₀.id (k + 1) = .inFlight .received ∧
      (∀ n, k < n → Phase.Path (run.phase q₀.id n) (run.phase q₀.id (n + 1))) ∧
      (∀ i j l, k < i → i ≤ j → j ≤ l → run.phase q₀.id i = run.phase q₀.id l →
        run.phase q₀.id j = run.phase q₀.id i) ∧
      (∀ i j, k < i → i ≤ j → run.phase q₀.id i = .ended →
        (∀ q ∈ (run.router j).requests, q.id ≠ q₀.id) ∧ q₀.id ∉ (run.router j).lanes.toList) ∧
      (∀ n, ∀ q ∈ (run.router n).requests, q.id = q₀.id → q₀.Alike q) ∧
      (∀ i j, i ≤ j → ∀ p ∈ (run.router i).requests, ∀ q ∈ (run.router j).requests,
        p.id = q₀.id → q.id = q₀.id →
          (∀ handler, p.handler = some handler → q.handler = some handler) ∧
            ∀ outcome, p.outcome = some outcome → q.outcome = some outcome) := by
  refine ⟨(phase_admitted h).2, fun n hn => path_succ h hn, ?_, ?_, ?_, ?_⟩
  · intro i j l hi hij hjl hsame
    have hfirst := path_of_le h hi hij
    have hsecond := path_of_le h (Nat.lt_of_lt_of_le hi hij) hjl
    rw [← hsame] at hsecond
    exact (Phase.Path.antisymm hfirst hsecond).symm
  · intro i j hi hij hend
    exact gone_of_le h hi hij hend
  · intro n q hq hid
    exact (becomes_of_admitted h hq hid).2.alike
  · intro i j hij p hp q hq hpid hqid
    have hbecomes := becomes_of_le hij p hp q hq (hpid.trans hqid.symm)
    exact ⟨hbecomes.handler, hbecomes.outcome⟩

/-- The request of an errand is admitted, and from then on it moves along the graph. -/
theorem lifecycle_errand :
    errand.admitted? 2 = some printing ∧
      ∀ n, 2 < n → Phase.Path (errand.phase printing.id n) (errand.phase printing.id (n + 1)) := by
  have hadmitted : errand.admitted? 2 = some printing := rfl
  exact ⟨hadmitted, (errand.lifecycle hadmitted).2.1⟩

end Run

end IntentRouter
