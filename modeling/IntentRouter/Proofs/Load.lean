import Mathlib.Algebra.GroupWithZero.Nat
import IntentRouter.Proofs.Fate

/-!
# What the requests in flight can still cause

Each state carries a load, a bound for the events that a request in it can still
cause: it falls along the graph, by enough to pay for the event that an operation
posts and for the timer that it arms, where a timer counts twice since it has to run
out before it is handled. So no operation but an admission makes the load of the
requests together with the outstanding events grow.

Names are conserved as well: an operation takes back exactly those requests that are
no longer in flight afterwards.
-/

namespace IntentRouter

/-- A bound for the events that a request in this state can still cause. -/
def RequestState.load : RequestState → Nat
  | .received => 13
  | .awaitingChoice => 10
  | .chosen => 9
  | .awaitingStart => 6
  | .started => 5
  | .awaitingReply => 2
  | .settled => 1

/-- A bound for the events that requests can still cause. -/
def Request.loads (requests : List Request) : Nat :=
  (requests.map fun q => q.state.load).sum

namespace RequestState

variable {s t : RequestState}

/-- The load falls with every step along the graph, and at least by one. -/
theorem load_add_rank (h : Phase.Path (.inFlight s) (.inFlight t)) :
    t.load + (Phase.inFlight t).rank ≤ s.load + (Phase.inFlight s).rank := by
  have hrank := Phase.Path.rank_le h
  cases s <;> cases t <;> first | decide | (revert hrank; decide)

theorem load_le (h : Phase.Path (.inFlight s) (.inFlight t)) : t.load ≤ s.load := by
  have hrank := Phase.Path.rank_le h
  have hsum := load_add_rank h
  omega

/-- What ends a wait pays for one event. -/
theorem load_resumed (h : Phase.Path (.inFlight s) (.inFlight t)) (hs : s.stage?.isSome = true)
    (ht : t.lane = .main) : t.load + 1 ≤ s.load := by
  have hrank := Phase.Path.rank_le h
  have hsum := load_add_rank h
  have hne : (Phase.inFlight s).rank ≠ (Phase.inFlight t).rank := by
    intro he
    have hsame := Phase.inFlight.inj (Phase.rank_injective he)
    rw [hsame, lane_eq_main.mp ht] at hs
    cases hs
  omega

/-- What begins a wait pays for one event and one timer. -/
theorem load_parked (h : Phase.Path (.inFlight s) (.inFlight t)) (hs : s.lane = .main)
    (ht : t.stage?.isSome = true) : t.load + 3 ≤ s.load := by
  have hrank := Phase.Path.rank_le h
  revert hs ht hrank
  cases s <;> cases t <;> decide

/-- What remains to be done with a settled request pays for one event. -/
theorem load_pos (s : RequestState) : 1 ≤ s.load := by
  cases s <;> decide

end RequestState

namespace Request

variable {requests : List Request} {p : Request} {f : Request → Request} {d : Nat}

theorem loads_cons (p : Request) (rest : List Request) :
    loads (p :: rest) = p.state.load + loads rest := rfl

theorem loads_map_le (hle : ∀ r ∈ requests, (f r).state.load ≤ r.state.load) :
    loads (requests.map f) ≤ loads requests := by
  induction requests with
  | nil => exact Nat.le_refl 0
  | cons r rest ih =>
    obtain ⟨hr, hrest⟩ := List.forall_mem_cons.mp hle
    have htail := ih hrest
    rw [List.map_cons, loads_cons, loads_cons]
    omega

/-- When the load of one request falls and no other grows, the load of all falls as much. -/
theorem loads_map_add_le (hle : ∀ r ∈ requests, (f r).state.load ≤ r.state.load)
    (hp : p ∈ requests) (hd : (f p).state.load + d ≤ p.state.load) :
    loads (requests.map f) + d ≤ loads requests := by
  induction requests with
  | nil => cases hp
  | cons r rest ih =>
    obtain ⟨hr, hrest⟩ := List.forall_mem_cons.mp hle
    rw [List.map_cons, loads_cons, loads_cons]
    rcases List.mem_cons.mp hp with he | hp
    · have htail := loads_map_le hrest
      rw [he] at hd
      omega
    · have htail := ih hrest hp
      omega

/-- Without some of the requests the load is less by theirs. -/
theorem loads_filter_add_le {keep : Request → Bool} (hp : p ∈ requests) (hout : keep p = false) :
    loads (requests.filter keep) + p.state.load ≤ loads requests := by
  have hrest : ∀ rest : List Request, loads (rest.filter keep) ≤ loads rest := by
    intro rest
    induction rest with
    | nil => exact Nat.le_refl 0
    | cons r rest ih =>
      rw [List.filter_cons, loads_cons]
      split
      · rw [loads_cons]
        omega
      · omega
  induction requests with
  | nil => cases hp
  | cons r rest ih =>
    rw [List.filter_cons, loads_cons]
    rcases List.mem_cons.mp hp with he | hp
    · have htail := hrest rest
      rw [← he, if_neg (by rw [hout]; decide)]
      omega
    · have htail := ih hp
      split
      · rw [loads_cons]
        omega
      · omega

end Request

namespace Change

variable {around : Surroundings} {before after : List Request} {effects : List Effect}
  {taken : Option RequestId} {admitted : Option Request}

/-- Where one event is posted at most, at most one is posted. -/
theorem length_wakes_le (around : Surroundings) : around.wakes.length ≤ 1 := by
  unfold Surroundings.wakes
  split
  · exact Nat.le_refl 1
  · exact Nat.zero_le 1

/-- What an operation other than an admission posts and arms is paid for by the load of the
requests in flight. -/
theorem loads_le (h : Change around before after effects taken none)
    (names : (before.map Request.id).Nodup) :
    Request.loads after + (Effect.posted effects).length + 2 * (Effect.armed effects).length ≤
      Request.loads before := by
  have hwakes := length_wakes_le around
  have hreplace : ∀ p q : Request, ∀ d, p ∈ before → p.Becomes q →
      q.state.load + d ≤ p.state.load →
        Request.loads (q.replaceIn before) + d ≤ Request.loads before := by
    intro p q d hp hb hd
    refine Request.loads_map_add_le (fun r hr => ?_) hp ?_
    · by_cases he : r.id = q.id
      · have hrp := List.inj_on_of_nodup_map names hr hp (he.trans hb.alike.id)
        rw [if_pos he, hrp]
        omega
      · exact Nat.le_of_eq (congrArg (fun s : Request => s.state.load) (if_neg he))
    · rwa [if_pos hb.alike.id.symm]
  cases h with
  | still shows =>
    rw [shows.posted, shows.armed]
    exact Nat.le_refl _
  | resumed p q hp hw hb _ hready shows =>
    have hall := hreplace p q 1 hp hb (RequestState.load_resumed hb.path hw hready)
    rw [shows.posted, shows.armed, List.length_nil]
    omega
  | released application hw shows =>
    obtain ⟨p, hp, hwait, hhandler⟩ := hw
    have hp' : (p.releasedBy application).state.load + 1 ≤ p.state.load := by
      rw [Request.releasedBy, if_pos ⟨hwait, hhandler⟩, hwait]
      exact Nat.le_refl 6
    have hall := Request.loads_map_add_le (f := Request.releasedBy application)
      (fun r _ => RequestState.load_le (r.becomes_releasedBy application).path) hp hp'
    rw [shows.posted, shows.armed, List.length_nil]
    omega
  | parked p q stage millis outs hp hready hb _ hw _ _ shows =>
    have hwaits : q.state.stage?.isSome = true := by rw [hw]; rfl
    -- Three of the load pay for the event and, twice, for the timer.
    have hall := hreplace p q 3 hp hb (RequestState.load_parked hb.path hready hwaits)
    rw [shows.posted, shows.armed, List.length_singleton]
    omega
  | delivered p q outs hp _ _ _ _ _ _ shows =>
    have hout : decide (p.id ≠ p.id) = false := decide_eq_false fun hne => hne rfl
    have hall : Request.loads (before.filter fun r => r.id ≠ p.id) + p.state.load ≤
        Request.loads before := Request.loads_filter_add_le hp hout
    have hpos := p.state.load_pos
    rw [shows.posted, shows.armed, List.length_nil]
    omega

/-- The requests that are taken back and those in flight afterwards are those in flight before
and the one admitted, each once. -/
theorem names_perm (h : Change around before after effects taken admitted)
    (names : (before.map Request.id).Nodup) :
    (Effect.ended effects ++ after.map Request.id).Perm
      (before.map Request.id ++ admitted.toList.map Request.id) := by
  have hkeep : ∀ names' : List RequestId, names' = before.map Request.id →
      Effect.ended effects = [] → (Effect.ended effects ++ names').Perm
        (before.map Request.id ++ (none : Option Request).toList.map Request.id) := by
    intro names' hsame hnone
    rw [hsame, hnone, Option.toList_none, List.map_nil, List.append_nil, List.nil_append]
  cases h with
  | still shows => exact hkeep _ rfl shows.ended
  | admitted q _ _ shows =>
    rw [shows.ended, List.nil_append, List.map_append]
    exact List.Perm.refl _
  | resumed _ _ _ _ _ _ _ shows => exact hkeep _ Request.map_id_replaceIn shows.ended
  | released application _ shows =>
    have hsame : (before.map (Request.releasedBy application)).map Request.id =
        before.map Request.id := by
      rw [List.map_map]
      exact List.map_congr_left fun r _ => (r.becomes_releasedBy application).alike.id
    exact hkeep _ hsame shows.ended
  | parked _ _ _ _ _ _ _ _ _ _ _ _ shows => exact hkeep _ Request.map_id_replaceIn shows.ended
  | delivered p q _ hp _ _ _ _ _ _ shows =>
    rw [shows.ended, Option.toList_none, List.map_nil, List.append_nil, List.singleton_append]
    have hleft : ((before.filter fun r => r.id ≠ p.id).map Request.id).Nodup :=
      names.sublist (List.filter_sublist.map Request.id)
    have hgone : p.id ∉ (before.filter fun r => r.id ≠ p.id).map Request.id := by
      intro hmem
      obtain ⟨r, hr, hid⟩ := List.mem_map.mp hmem
      exact of_decide_eq_true (List.mem_filter.mp hr).2 hid
    refine (List.perm_ext_iff_of_nodup (List.nodup_cons.mpr ⟨hgone, hleft⟩) names).mpr ?_
    intro id
    rw [List.mem_cons, List.mem_map, List.mem_map]
    constructor
    · rintro (he | ⟨r, hr, hid⟩)
      · exact ⟨p, hp, he.symm⟩
      · exact ⟨r, (List.mem_filter.mp hr).1, hid⟩
    · rintro ⟨r, hr, hid⟩
      by_cases he : r.id = p.id
      · exact .inl (hid.symm.trans he)
      · exact .inr ⟨r, List.mem_filter.mpr ⟨hr, decide_eq_true he⟩, hid⟩

end Change

end IntentRouter
