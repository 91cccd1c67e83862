import IntentRouter.Proofs.Fate

/-!
# Runs of a router

A run starts with a new router and makes one move after another, each in
surroundings of its own: applications may start and stop, capabilities and
listeners may come and go between any two moves, and the events that are handled
need not have been posted. All that is asked of a run is that no two admissions
are made under the same name.

After every number of moves the requests in flight are coupled with the lanes, and
each of them goes back to the admission of a request that has become it.
-/

namespace IntentRouter

/-- The router after some moves. -/
def Router.play (r : Router) (moves : List Move) : Router :=
  moves.foldl (fun r m => (m.turn r).state) r

/-- The request admitted by the move with the given number, if it admits one. -/
def Router.admission? (r : Router) (moves : List Move) (n : Nat) : Option Request :=
  moves[n]?.bind fun m => m.admitted? (r.play (moves.take n))

/-- A run of a router. -/
structure Run where
  /-- The settings of the new router. -/
  settings : Settings
  /-- The new router. -/
  start : Router
  /-- The settings have passed their check. -/
  created : Router.create settings = .ok start
  /-- The moves, in order. -/
  moves : List Move
  /-- Every admission is made under a name of its own. -/
  fresh : ∀ i j p q, start.admission? moves i = some p → start.admission? moves j = some q →
    p.id = q.id → i = j

namespace Run

variable {run : Run} {n : Nat} {m : Move} {p q : Request}

/-- The router after so many moves. -/
def router (run : Run) (n : Nat) : Router := run.start.play (run.moves.take n)

/-- The request admitted by a move, if it admits one. -/
def admitted? (run : Run) (n : Nat) : Option Request := run.start.admission? run.moves n

/-- The request with which a move makes a step, if it makes one. -/
def taken? (run : Run) (n : Nat) : Option RequestId :=
  run.moves[n]?.bind fun m => m.taken? (run.router n)

/-- The effects of a move. -/
def effects (run : Run) (n : Nat) : List Effect :=
  run.moves[n]?.elim [] fun m => (m.turn (run.router n)).effects

theorem router_zero : run.router 0 = run.start := rfl

theorem router_succ (h : run.moves[n]? = some m) :
    run.router (n + 1) = (m.turn (run.router n)).state := by
  rw [router, Router.play, List.take_add_one, h, List.foldl_append]
  rfl

/-- Nothing happens after the last move. -/
theorem router_succ_of_none (h : run.moves[n]? = none) : run.router (n + 1) = run.router n := by
  rw [router, router, List.take_add_one, h, Option.toList_none, List.append_nil]

theorem admitted?_eq (h : run.moves[n]? = some m) :
    run.admitted? n = m.admitted? (run.router n) := by
  rw [admitted?, Router.admission?, h]
  rfl

theorem taken?_eq (h : run.moves[n]? = some m) : run.taken? n = m.taken? (run.router n) := by
  rw [taken?, h]
  rfl

theorem effects_eq (h : run.moves[n]? = some m) :
    run.effects n = (m.turn (run.router n)).effects := by
  rw [effects, h]
  rfl

/-- No request is in flight in a new router. -/
theorem start_eq_fresh (run : Run) : run.start = Router.fresh run.settings := by
  have hcreated := run.created
  unfold Router.create at hcreated
  cases hcheck : run.settings.check with
  | error reason =>
    rw [hcheck] at hcreated
    cases hcreated
  | ok settings =>
    rw [hcheck] at hcreated
    have hsame : settings = run.settings := by
      unfold Settings.check at hcheck
      split at hcheck
      · cases hcheck
      · exact (Except.ok.inj hcheck).symm
    rw [← Except.ok.inj hcreated, hsame]

/-- Every request in flight goes back to an earlier admission. -/
def Traced (run : Run) (n : Nat) : Prop :=
  ∀ q ∈ (run.router n).requests, ∃ k < n, ∃ p, run.admitted? k = some p ∧ p.Becomes q

/-- Everyone in flight goes back to an earlier admission, so the name of a new one is new. -/
theorem fresh_admitted (traced : run.Traced n) (hm : run.moves[n]? = some m)
    (hq : m.admitted? (run.router n) = some q) : ∀ p ∈ (run.router n).requests, p.id ≠ q.id := by
  intro p hp hid
  obtain ⟨k, hk, p₀, hp₀, hbecomes⟩ := traced p hp
  have hadmitted : run.admitted? n = some q := (admitted?_eq hm).trans hq
  have hsame := run.fresh k n p₀ q hp₀ hadmitted (hbecomes.alike.id.symm.trans hid)
  omega

/-- What a move does to a router whose requests are coupled with the lanes and go back
to admissions. -/
theorem changes_of (h : Coupled (run.router n).requests (run.router n).lanes)
    (traced : run.Traced n) (hm : run.moves[n]? = some m) :
    (run.router n).Changes m.around (run.router (n + 1)) (run.effects n) (run.taken? n)
      (run.admitted? n) := by
  rw [router_succ hm, effects_eq hm, taken?_eq hm, admitted?_eq hm]
  exact m.changes h fun q => fresh_admitted traced hm

/-- After every number of moves the requests in flight are coupled with the lanes and go
back to admissions. -/
theorem coupled_traced (run : Run) (n : Nat) :
    Coupled (run.router n).requests (run.router n).lanes ∧ run.Traced n := by
  induction n with
  | zero =>
    rw [Traced, router_zero, start_eq_fresh]
    refine ⟨Coupled.empty, fun q hq => ?_⟩
    cases hq
  | succ n ih =>
    obtain ⟨hcoupled, htraced⟩ := ih
    cases hm : run.moves[n]? with
    | none =>
      rw [Traced, router_succ_of_none hm]
      refine ⟨hcoupled, fun q hq => ?_⟩
      obtain ⟨k, hk, hrest⟩ := htraced q hq
      exact ⟨k, by omega, hrest⟩
    | some m =>
      obtain ⟨hafter, hchange⟩ := changes_of hcoupled htraced hm
      refine ⟨hafter, fun q hq => ?_⟩
      rcases hchange.origin hq with ⟨p, hp, hbecomes⟩ | hadmitted
      · obtain ⟨k, hk, p₀, hp₀, hbefore⟩ := htraced p hp
        exact ⟨k, by omega, p₀, hp₀, hbefore.trans hbecomes⟩
      · exact ⟨n, by omega, q, hadmitted, .refl q⟩

/-- The requests in flight are coupled with the lanes. -/
theorem coupled (run : Run) (n : Nat) : Coupled (run.router n).requests (run.router n).lanes :=
  (run.coupled_traced n).1

/-- The requests in flight go back to admissions. -/
theorem traced (run : Run) (n : Nat) : run.Traced n := (run.coupled_traced n).2

/-- Every move does one of the six things to the requests in flight. -/
theorem change (run : Run) (hm : run.moves[n]? = some m) :
    Change m.around (run.router n).requests (run.router (n + 1)).requests (run.effects n)
      (run.taken? n) (run.admitted? n) :=
  (changes_of (run.coupled n) (run.traced n) hm).2

/-- After any moves the four lanes together hold exactly the names of the requests in flight,
each once; every request stands in the lane of its state, has an outcome exactly when it is
settled, and has a handler, the owner of one of its candidates, from the choice on. -/
theorem coupling (run : Run) (n : Nat) :
    (run.router n).lanes.toList.Nodup ∧
      ((run.router n).requests.map Request.id).Nodup ∧
      (∀ id, id ∈ (run.router n).lanes.toList ↔ ∃ q ∈ (run.router n).requests, q.id = id) ∧
      ∀ q ∈ (run.router n).requests,
        (q.id ∈ (run.router n).lanes.choice ↔ q.state = .awaitingChoice) ∧
        (q.id ∈ (run.router n).lanes.starting ↔ q.state = .awaitingStart) ∧
        (q.id ∈ (run.router n).lanes.sent ↔ q.state = .awaitingReply) ∧
        (q.id ∈ (run.router n).lanes.main ↔
          q.state ∈ [.received, .chosen, .started, .settled]) ∧
        (q.outcome.isSome = true ↔ q.state = .settled) ∧
        (q.state ∈ [.received, .awaitingChoice] → q.handler = none) ∧
        (q.state ∈ [.chosen, .awaitingStart, .started, .awaitingReply] →
          q.handler.isSome = true) ∧
        (∀ handler, q.handler = some handler → ∃ i ∈ q.candidates, i.owner = handler) := by
  have hcoupled := run.coupled n
  refine ⟨hcoupled.nodup_toList, hcoupled.names, fun id => hcoupled.mem_toList_iff, ?_⟩
  intro q hq
  have hlane : ∀ lane, q.id ∈ (run.router n).lanes.get lane ↔ q.state.lane = lane :=
    fun lane => hcoupled.mem_lane_iff hq
  have hsound := hcoupled.sound q hq
  have hchoice : q.state.lane = .choice ↔ q.state = .awaitingChoice := by
    cases q.state <;> decide
  have hsent : q.state.lane = .sent ↔ q.state = .awaitingReply := by
    cases q.state <;> decide
  have hmain : q.state.lane = .main ↔ q.state ∈ [.received, .chosen, .started, .settled] := by
    cases q.state <;> decide
  have hunhandled : q.state ∈ [.received, .awaitingChoice] → q.state.unhandled = true := by
    cases q.state <;> decide
  have hhandled : q.state ∈ [.chosen, .awaitingStart, .started, .awaitingReply] →
      q.state.handled = true := by
    cases q.state <;> decide
  exact ⟨(hlane .choice).trans hchoice, (hlane .starting).trans RequestState.lane_eq_starting,
    (hlane .sent).trans hsent, (hlane .main).trans hmain, hsound.outcome,
    fun hs => hsound.unhandled (hunhandled hs), fun hs => hsound.handled (hhandled hs),
    hsound.owner⟩

/-- The standard settings are fit for a router. -/
theorem create_standard : Router.create .standard = .ok (.fresh .standard) := rfl

/-- Surroundings in which an editor and a printer can be reached and nobody listens. -/
def office : Surroundings where
  host := (Host.fresh.run "editor" (some ⟨"editor", "e"⟩)).run "printer" (some ⟨"printer", "p"⟩)
  inboxOpen := true
  listens := fun _ => false

/-- The request of the editor to print. -/
def printing : Request :=
  .admitted (.ofNat 1) .epoch "editor" "print" [.plain "print" "printer"] .empty

/-- The printer is registered, the editor's request is admitted, sent to the printer, answered
by it and returned to the editor. -/
def errandMoves : List Move :=
  [.catalog (.addApplication "printer"), .catalog (.add (.plain "print" "printer")),
    .router (.submit (.ofNat 1) .epoch ⟨"editor", "print", none, .empty⟩), .router .process,
    .router (.reply "printer" (.ofNat 1) false .empty), .router .process].map (⟨office, ·⟩)

/-- Only the third of these moves admits a request. -/
theorem errand_admission? {i : Nat} {q : Request}
    (h : (Router.fresh .standard).admission? errandMoves i = some q) : i = 2 := by
  match i with
  | 0 | 1 | 3 | 4 | 5 => cases h
  | 2 => rfl
  | _ + 6 => cases h

/-- A run from the submission of a request to its return. -/
def errand : Run where
  settings := .standard
  start := .fresh .standard
  created := create_standard
  moves := errandMoves
  fresh := fun _ _ _ _ hp hq _ => (errand_admission? hp).trans (errand_admission? hq).symm

/-- Where two moves admit a request each, under different names, a name tells the move. -/
theorem eq_of_two {start : Router} {moves : List Move} {m n i j : Nat} {id id' : RequestId}
    {p q : Request} (hne : id ≠ id')
    (htwo : ∀ k x, start.admission? moves k = some x → k = m ∧ x.id = id ∨ k = n ∧ x.id = id')
    (hp : start.admission? moves i = some p) (hq : start.admission? moves j = some q)
    (hid : p.id = q.id) : i = j := by
  rcases htwo i p hp with ⟨rfl, hpid⟩ | ⟨rfl, hpid⟩ <;>
    rcases htwo j q hq with ⟨rfl, hqid⟩ | ⟨rfl, hqid⟩
  · rfl
  · exact absurd (hpid.symm.trans (hid.trans hqid)) hne
  · exact absurd (hqid.symm.trans (hid.symm.trans hpid)) hne
  · rfl

/-- The printer is registered, and two requests of the editor are admitted and sent to it. -/
def rushMoves : List Move :=
  [.catalog (.addApplication "printer"), .catalog (.add (.plain "print" "printer")),
    .router (.submit (.ofNat 1) .epoch ⟨"editor", "print", none, .empty⟩),
    .router (.submit (.ofNat 2) .epoch ⟨"editor", "print", none, .empty⟩),
    .router .process, .router .process].map (⟨office, ·⟩)

/-- The third and the fourth of these moves admit a request each. -/
theorem rush_admission? {i : Nat} {q : Request}
    (h : (Router.fresh .standard).admission? rushMoves i = some q) :
    i = 2 ∧ q.id = .ofNat 1 ∨ i = 3 ∧ q.id = .ofNat 2 := by
  match i with
  | 0 | 1 | 4 | 5 => cases h
  | 2 => cases h; exact .inl ⟨rfl, rfl⟩
  | 3 => cases h; exact .inr ⟨rfl, rfl⟩
  | _ + 6 => cases h

/-- A run after which two requests wait for the same handler's reply. -/
def rush : Run where
  settings := .standard
  start := .fresh .standard
  created := create_standard
  moves := rushMoves
  fresh := fun _ _ _ _ => eq_of_two (by decide) fun _ _ => rush_admission?

end Run

end IntentRouter
