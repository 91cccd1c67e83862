import IntentRouter.Proofs.History

/-!
# The outputs of a request

What goes out in a run goes out in steps, and each step is made with one request.
Since a step never leads a request back and each kind of output belongs to one
state, a request is offered to a listener, has its handler started, is sent and is
returned at most once each and in this order, and nothing goes out for it once its
reply has been sent back or dropped.
-/

namespace IntentRouter

/-- What a step does with the request `p`, which it takes as far as the record `q`. -/
structure Advance (around : Surroundings) (before after : List Request) (effects : List Effect)
    (p q : Request) : Prop where
  /-- The request is in flight. -/
  known : p ∈ before
  /-- It does not wait. -/
  ready : p.state.lane = .main
  /-- It moves along the graph. -/
  becomes : p.Becomes q
  /-- The record fits its state. -/
  sound : q.Sound
  /-- There is at most one output. -/
  single : (Effect.outputs effects).length ≤ 1
  /-- An output is the one of the state that has been reached. -/
  marks : ∀ o ∈ Effect.outputs effects, o.Marks around q
  /-- Afterwards the request waits, or it is settled and no longer in flight. -/
  reaches : (q.state.stage?.isSome = true ∧ q ∈ after) ∨
    (q.state = .settled ∧ ∀ r ∈ after, r.id ≠ p.id)

namespace Change

variable {around : Surroundings} {before after : List Request} {effects : List Effect}
  {admitted : Option Request} {id : RequestId}

/-- Without a step nothing goes out. -/
theorem outputs_eq_nil (h : Change around before after effects none admitted) :
    Effect.outputs effects = [] := by
  cases h with
  | still shows => exact shows.outputs
  | admitted _ _ _ shows => exact shows.outputs
  | resumed _ _ _ _ _ _ _ shows => exact shows.outputs
  | released _ _ shows => exact shows.outputs

/-- A step advances the request it is made with. -/
theorem advance (h : Change around before after effects (some id) admitted) :
    ∃ p q, p.id = id ∧ Advance around before after effects p q := by
  cases h with
  | parked p q stage millis outs hp hready hb hsound hw hsingle hmarks shows =>
    have hmem := Request.mem_replaceIn_self hp hb.alike.id
    have hwaits : q.state.stage?.isSome = true := by rw [hw]; rfl
    rw [← shows.outputs] at hsingle hmarks
    exact ⟨p, q, rfl, hp, hready, hb, hsound, hsingle, hmarks, .inl ⟨hwaits, hmem⟩⟩
  | delivered p q outs hp hready hb hsound hs hsingle hmarks shows =>
    have hgone : ∀ r ∈ before.filter (fun r => r.id ≠ p.id), r.id ≠ p.id := by
      intro r hr
      have hne := (List.mem_filter.mp hr).2
      rwa [decide_eq_true_eq] at hne
    rw [← shows.outputs] at hsingle hmarks
    exact ⟨p, q, rfl, hp, hready, hb, hsound, hsingle, hmarks, .inr ⟨hs, hgone⟩⟩

end Change

/-- What an output for the admitted request `q₀` says, in the surroundings of its step and with
the requests in flight afterwards. An offer shows what was admitted and goes to a listener that
listens. Only an application that does not run is started, and it is the handler. The request
is sent as it is in flight, to where its handler is reached, and returned settled, to where its
requester is reached. A reply is dropped when its requester cannot be reached. -/
def Output.Fits (around : Surroundings) (q₀ : Request) (after : List Request) : Output → Prop
  | .asked listener offer => around.listens listener = true ∧ offer = .ofRequest q₀
  | .started application =>
    around.host.isRunning application = false ∧
      ∃ q ∈ after, q.id = q₀.id ∧ q.handler = some application
  | .sent channel q =>
    q₀.Alike q ∧ q ∈ after ∧ q.state = .awaitingReply ∧ q.outcome = none ∧
      ∃ handler, q.handler = some handler ∧ around.host.connection? handler = some channel
  | .returned channel q =>
    q₀.Alike q ∧ q.state = .settled ∧ q.outcome.isSome = true ∧
      around.host.connection? q.requester = some channel
  | .dropped requester =>
    requester = q₀.requester ∧ around.host.connection? requester = none

/-- An output of the state that a request reaches fits the request. -/
theorem Advance.fits {around : Surroundings} {before after : List Request} {effects : List Effect}
    {p q q₀ : Request} (h : Advance around before after effects p q) (halike : q₀.Alike q) :
    ∀ o ∈ Effect.outputs effects, o.Fits around q₀ after := by
  intro o ho
  have hmark := h.marks o ho
  have hwaiting : q.state ≠ .settled → q ∈ after := by
    intro hne
    rcases h.reaches with ⟨-, hmem⟩ | ⟨hs, -⟩
    · exact hmem
    · exact absurd hs hne
  cases o with
  | asked listener offer =>
    obtain ⟨-, hlive, hoffer⟩ := hmark
    refine ⟨hlive, ?_⟩
    rw [hoffer, Offer.ofRequest, Offer.ofRequest, halike.id, halike.candidates, halike.parameters]
  | started application =>
    obtain ⟨hs, hhandler, hrun⟩ := hmark
    exact ⟨hrun, q, hwaiting (by rw [hs]; decide), halike.id, hhandler⟩
  | sent channel request =>
    obtain ⟨hs, hsame, hchannel⟩ := hmark
    have hne : q.state ≠ .settled := by rw [hs]; decide
    rw [hsame]
    exact ⟨halike, hwaiting hne, hs, h.sound.outcome_none hne, hchannel⟩
  | returned channel request =>
    obtain ⟨hs, hsame, hchannel⟩ := hmark
    rw [hsame]
    exact ⟨halike, hs, h.sound.outcome.mpr hs, hchannel⟩
  | dropped requester =>
    obtain ⟨-, hsame, hnone⟩ := hmark
    rw [hsame]
    exact ⟨halike.requester, hnone⟩

namespace Run

variable {run : Run} {k n : Nat} {m : Move} {q₀ : Request} {id : RequestId} {o : Output}

/-- What goes out in the steps made with a request, move by move. -/
def outputs (run : Run) (id : RequestId) (n : Nat) : List Output :=
  if run.taken? n = some id then Effect.outputs (run.effects n) else []

/-- All that goes out in the steps made with a request, in order. -/
def trace (run : Run) (id : RequestId) : List Output :=
  (List.range run.moves.length).flatMap (run.outputs id)

/-- Something goes out only in a step. -/
theorem exists_taken (ho : o ∈ Effect.outputs (run.effects n)) :
    ∃ m id, run.moves[n]? = some m ∧ run.taken? n = some id := by
  cases hm : run.moves[n]? with
  | none =>
    rw [effects, hm] at ho
    cases ho
  | some m =>
    cases ht : run.taken? n with
    | none =>
      have hchange := run.change hm
      rw [ht] at hchange
      rw [hchange.outputs_eq_nil] at ho
      cases ho
    | some id => exact ⟨m, id, rfl, rfl⟩

/-- The step in which something goes out for a request. -/
theorem advance_of_mem (ho : o ∈ run.outputs id n) :
    ∃ m p q, run.moves[n]? = some m ∧ p.id = id ∧ o ∈ Effect.outputs (run.effects n) ∧
      Advance m.around (run.router n).requests (run.router (n + 1)).requests (run.effects n)
        p q := by
  unfold outputs at ho
  by_cases ht : run.taken? n = some id
  · rw [if_pos ht] at ho
    obtain ⟨m, -, hm, -⟩ := exists_taken ho
    have hchange := run.change hm
    rw [ht] at hchange
    obtain ⟨p, q, hid, hadvance⟩ := hchange.advance
    exact ⟨m, p, q, hm, hid, ho, hadvance⟩
  · rw [if_neg ht] at ho
    cases ho

/-- Whatever goes out for a request later has a later place. -/
theorem rank_lt_rank (h : run.admitted? k = some q₀) {i j : Nat} (hij : i < j) {o o' : Output}
    (ho : o ∈ run.outputs q₀.id i) (ho' : o' ∈ run.outputs q₀.id j) : o.rank < o'.rank := by
  obtain ⟨m, p, q, hm, hid, hmem, hadvance⟩ := advance_of_mem ho
  obtain ⟨m', p', q', hm', hid', hmem', hadvance'⟩ := advance_of_mem ho'
  have hfirst := (hadvance.marks o hmem).rank_eq
  have hlast := (hadvance'.marks o' hmem').rank_eq
  have hk := (becomes_of_admitted h hadvance.known hid).1
  have hbetween := path_of_le h (Nat.lt_succ_of_lt hk) (Nat.succ_le_of_lt hij)
  have hthen : run.phase q₀.id j = .inFlight p'.state := by
    rw [← hid', phase_eq_inFlight hadvance'.known]
  have hstep := Phase.Path.rank_le hadvance'.becomes.path
  rw [hthen] at hbetween
  rcases hadvance.reaches with ⟨hwaits, hafter⟩ | ⟨-, hgone⟩
  · -- The request waits after the first step, but not before the second.
    have hnow : run.phase q₀.id (i + 1) = .inFlight q.state := by
      rw [← hid, ← hadvance.becomes.alike.id, phase_eq_inFlight hafter]
    rw [hnow] at hbetween
    have hle := Phase.Path.rank_le hbetween
    have hne : (Phase.inFlight q.state).rank ≠ (Phase.inFlight p'.state).rank := by
      intro hrank
      have hsame := Phase.inFlight.inj (Phase.rank_injective hrank)
      rw [hsame, RequestState.lane_eq_main.mp hadvance'.ready] at hwaits
      cases hwaits
    omega
  · -- The request has ended with the first step, so there is no second one.
    rw [hid] at hgone
    rw [phase_eq_ended hgone] at hbetween
    cases Phase.Path.of_ended hbetween

/-- At most one output goes out in a step. -/
theorem length_outputs_le (run : Run) (id : RequestId) (n : Nat) :
    (run.outputs id n).length ≤ 1 := by
  cases hout : run.outputs id n with
  | nil => exact Nat.zero_le 1
  | cons o rest =>
    have ho : o ∈ run.outputs id n := by
      rw [hout]
      exact List.mem_cons_self
    obtain ⟨m, p, q, hm, hid, hmem, hadvance⟩ := advance_of_mem ho
    have hsingle := hadvance.single
    rw [← hout]
    unfold outputs
    split
    · exact hsingle
    · exact Nat.zero_le 1

/-- All that goes out in a run goes out in a step with a request admitted before. What goes out
for an admitted request fits that request, and over the whole run it is at most an offer, a start
of the handler, the request to its handler, and a reply to the requester, sent or dropped, each
at most once and in this order. -/
theorem trace_in_order (run : Run) :
    (∀ n, ∀ o ∈ Effect.outputs (run.effects n),
        ∃ k < n, ∃ q₀, run.admitted? k = some q₀ ∧ run.taken? n = some q₀.id) ∧
      ∀ k q₀, run.admitted? k = some q₀ →
        ((run.trace q₀.id).map Output.rank).Pairwise (· < ·) ∧
          ∀ n, ∀ o ∈ run.outputs q₀.id n, ∃ m, run.moves[n]? = some m ∧
            o.Fits m.around q₀ (run.router (n + 1)).requests := by
  refine ⟨fun n o ho => ?_, fun k q₀ h => ⟨?_, fun n o ho => ?_⟩⟩
  · obtain ⟨m, id, hm, ht⟩ := exists_taken ho
    have hchange := run.change hm
    rw [ht] at hchange
    obtain ⟨p, q, hid, hadvance⟩ := hchange.advance
    obtain ⟨k, hk, q₀, hq₀, hbecomes⟩ := run.traced n p hadvance.known
    exact ⟨k, hk, q₀, hq₀, by rw [ht, ← hid, hbecomes.alike.id]⟩
  · rw [List.pairwise_map, trace, List.pairwise_flatMap]
    constructor
    · intro n _
      have hsingle := run.length_outputs_le q₀.id n
      cases hout : run.outputs q₀.id n with
      | nil => exact List.Pairwise.nil
      | cons o rest =>
        rw [hout, List.length_cons] at hsingle
        have hrest : rest = [] := List.eq_nil_of_length_eq_zero (by omega)
        rw [hrest]
        exact List.pairwise_singleton _ o
    · apply List.pairwise_lt_range.imp
      intro i j hij o ho o' ho'
      exact rank_lt_rank h hij ho ho'
  · obtain ⟨m, p, q, hm, hid, hmem, hadvance⟩ := advance_of_mem ho
    have halike := (becomes_of_admitted h hadvance.known hid).2.alike.trans hadvance.becomes.alike
    exact ⟨m, hm, hadvance.fits halike o hmem⟩

/-- The request of an errand is admitted, and its two outputs go out in their order. -/
theorem trace_errand :
    errand.admitted? 2 = some printing ∧ (errand.trace printing.id).map Output.rank = [5, 6] ∧
      ((errand.trace printing.id).map Output.rank).Pairwise (· < ·) := by
  have hadmitted : errand.admitted? 2 = some printing := rfl
  exact ⟨hadmitted, rfl, (errand.trace_in_order.2 2 printing hadmitted).1⟩

end Run

end IntentRouter
