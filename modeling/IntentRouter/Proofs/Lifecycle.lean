import Mathlib.Logic.Relation
import IntentRouter.Request

/-!
# The life of a request

A request in flight is in one of seven states, and once it has been returned to
its requester it has ended. The graph of the changes between these phases has no
cycle. Along its paths what the requester supplied never changes, and neither do
the handler and the outcome once they are there.

A sound record is one that fits its state: it has candidates, an outcome exactly
when it is settled, and a handler exactly from the choice on.
-/

namespace IntentRouter

/-- Where a request is in its life. -/
inductive Phase where
  /-- It is in flight, in this state. -/
  | inFlight (state : RequestState)
  /-- It has been returned and forgotten. -/
  | ended
deriving DecidableEq, Repr

namespace Phase

/-- The changes a request may go through, one at a time. -/
inductive Edge : Phase → Phase → Prop where
  /-- The listener is asked. -/
  | ask : Edge (.inFlight .received) (.inFlight .awaitingChoice)
  /-- The first candidate is taken without asking. -/
  | pick : Edge (.inFlight .received) (.inFlight .chosen)
  /-- The listener has chosen. -/
  | choose : Edge (.inFlight .awaitingChoice) (.inFlight .chosen)
  /-- The listener has not chosen a candidate, or not in time. -/
  | refuse : Edge (.inFlight .awaitingChoice) (.inFlight .settled)
  /-- The handler has to be started. -/
  | launch : Edge (.inFlight .chosen) (.inFlight .awaitingStart)
  /-- The handler is running already. -/
  | find : Edge (.inFlight .chosen) (.inFlight .started)
  /-- The handler has started. -/
  | release : Edge (.inFlight .awaitingStart) (.inFlight .started)
  /-- The handler has not started in time. -/
  | giveUp : Edge (.inFlight .awaitingStart) (.inFlight .settled)
  /-- The request is sent to its handler. -/
  | send : Edge (.inFlight .started) (.inFlight .awaitingReply)
  /-- The handler has no channel. -/
  | lose : Edge (.inFlight .started) (.inFlight .settled)
  /-- There is a reply, or there is none in time. -/
  | answer : Edge (.inFlight .awaitingReply) (.inFlight .settled)
  /-- The outcome is returned. -/
  | dispose : Edge (.inFlight .settled) .ended

/-- Any number of changes one after another, or none. -/
abbrev Path : Phase → Phase → Prop := Relation.ReflTransGen Edge

/-- How far a phase is along the life of a request. -/
def rank : Phase → Nat
  | .inFlight .received => 0
  | .inFlight .awaitingChoice => 1
  | .inFlight .chosen => 2
  | .inFlight .awaitingStart => 3
  | .inFlight .started => 4
  | .inFlight .awaitingReply => 5
  | .inFlight .settled => 6
  | .ended => 7

/-- Every change leads further. -/
theorem Edge.rank_lt {s t : Phase} (h : Edge s t) : s.rank < t.rank := by
  cases h <;> decide

/-- A path never leads back. -/
theorem Path.rank_le {s t : Phase} (h : Path s t) : s.rank ≤ t.rank := by
  induction h with
  | refl => exact Nat.le_refl _
  | tail _ hlast ih =>
    have hlt := hlast.rank_lt
    omega

/-- Phases that are equally far are the same. -/
theorem rank_injective {s t : Phase} (h : s.rank = t.rank) : s = t := by
  cases s with
  | ended => cases t with
    | ended => rfl
    | inFlight b => cases b <;> simp [rank] at h
  | inFlight a => cases t with
    | ended => cases a <;> simp [rank] at h
    | inFlight b => cases a <;> cases b <;> first | rfl | simp [rank] at h

/-- Two phases on paths to each other are the same, so no phase is entered twice. -/
theorem Path.antisymm {s t : Phase} (h : Path s t) (back : Path t s) : s = t :=
  rank_injective (Nat.le_antisymm h.rank_le back.rank_le)

/-- Nothing comes after the end. -/
theorem Path.of_ended {t : Phase} (h : Path .ended t) : t = .ended := by
  rcases Relation.ReflTransGen.cases_head h with h | ⟨_, hfirst, _⟩
  · exact h.symm
  · cases hfirst

end Phase

namespace RequestState

/-- Whether a request in this state has no handler yet. -/
def unhandled : RequestState → Bool
  | .received | .awaitingChoice => true
  | _ => false

/-- Whether a request in this state has a handler. -/
def handled : RequestState → Bool
  | .chosen | .awaitingStart | .started | .awaitingReply => true
  | _ => false

/-- A request that waits stands in the lane of its stage. -/
theorem lane_of_stage {s : RequestState} {stage : Stage} (h : s.stage? = some stage) :
    s.lane = stage.lane := by
  rw [lane, h]
  rfl

/-- A request stands in the lane of a stage exactly while it waits in it. -/
theorem lane_eq_stage_lane {s : RequestState} {stage : Stage} :
    s.lane = stage.lane ↔ s.stage? = some stage := by
  cases s <;> cases stage <;> decide

/-- A request that does not wait stands in the main lane. -/
theorem lane_eq_main {s : RequestState} : s.lane = .main ↔ s.stage? = none := by
  cases s <;> decide

/-- Requests wait for their handlers to start in one state only. -/
theorem lane_eq_starting {s : RequestState} : s.lane = .starting ↔ s = .awaitingStart := by
  cases s <;> decide

/-- The state in which requests wait in a stage. -/
def ofStage : Stage → RequestState
  | .choice => .awaitingChoice
  | .start => .awaitingStart
  | .reply => .awaitingReply

/-- Requests wait in a stage in one state only. -/
theorem stage?_eq_some {s : RequestState} {stage : Stage} :
    s.stage? = some stage ↔ s = ofStage stage := by
  cases s <;> cases stage <;> decide

/-- A request that waits is not settled. -/
theorem ne_settled_of_stage {s : RequestState} {stage : Stage} (h : s.stage? = some stage) :
    s ≠ .settled := by
  intro hs
  rw [hs] at h
  cases h

/-- Every wait can end without success. -/
theorem edge_settled_of_stage {s : RequestState} {stage : Stage} (h : s.stage? = some stage) :
    Phase.Edge (.inFlight s) (.inFlight .settled) := by
  cases s with
  | awaitingChoice => exact .refuse
  | awaitingStart => exact .giveUp
  | awaitingReply => exact .answer
  | received | chosen | started | settled => cases h

end RequestState

/-- Equal intents have the same owner. -/
theorem Intent.owner_eq_of_same {i j : Intent} (h : i.same j = true) : i.owner = j.owner := by
  simp only [same, Bool.and_eq_true, decide_eq_true_eq] at h
  exact h.1.1.1.1.2

namespace Request

/-- Two records of the same submission. -/
structure Alike (p q : Request) : Prop where
  /-- They have the same name. -/
  id : q.id = p.id
  /-- The same application has submitted them. -/
  requester : q.requester = p.requester
  /-- They ask for the same intent. -/
  intentId : q.intentId = p.intentId
  /-- They carry the same values. -/
  parameters : q.parameters = p.parameters
  /-- They have the same candidates. -/
  candidates : q.candidates = p.candidates
  /-- They were submitted at the same time. -/
  created : q.created = p.created

/-- A record is one of its own submission. -/
theorem Alike.refl (p : Request) : p.Alike p := ⟨rfl, rfl, rfl, rfl, rfl, rfl⟩

/-- Records of one submission are all alike. -/
theorem Alike.trans {p q r : Request} (h : p.Alike q) (k : q.Alike r) : p.Alike r :=
  ⟨k.id.trans h.id, k.requester.trans h.requester, k.intentId.trans h.intentId,
    k.parameters.trans h.parameters, k.candidates.trans h.candidates, k.created.trans h.created⟩

/-- A record and a later one of the same request. -/
structure Becomes (p q : Request) : Prop where
  /-- What the requester supplied stays. -/
  alike : p.Alike q
  /-- A handler stays. -/
  handler : ∀ h, p.handler = some h → q.handler = some h
  /-- An outcome stays. -/
  outcome : ∀ o, p.outcome = some o → q.outcome = some o
  /-- The state follows the graph. -/
  path : Phase.Path (.inFlight p.state) (.inFlight q.state)

/-- A record may stay as it is. -/
theorem Becomes.refl (p : Request) : p.Becomes p :=
  ⟨.refl p, fun _ h => h, fun _ h => h, .refl⟩

/-- What becomes of a later record becomes of an earlier one. -/
theorem Becomes.trans {p q r : Request} (h : p.Becomes q) (k : q.Becomes r) : p.Becomes r :=
  ⟨h.alike.trans k.alike, fun a ha => k.handler a (h.handler a ha),
    fun o ho => k.outcome o (h.outcome o ho), h.path.trans k.path⟩

/-- A change of the state alone. -/
theorem becomes_moveTo {q : Request} {s : RequestState}
    (h : Phase.Edge (.inFlight q.state) (.inFlight s)) : q.Becomes (q.moveTo s) :=
  ⟨⟨rfl, rfl, rfl, rfl, rfl, rfl⟩, fun _ h => h, fun _ h => h, .single h⟩

/-- The choice of a handler. -/
theorem becomes_choose {q : Request} (owner : String)
    (h : Phase.Edge (.inFlight q.state) (.inFlight .chosen)) :
    q.Becomes ((q.choose owner).moveTo .chosen) := by
  refine ⟨⟨rfl, rfl, rfl, rfl, rfl, rfl⟩, ?_, fun _ h => h, .single h⟩
  intro a ha
  simp [choose, moveTo, ha]

/-- An outcome. -/
theorem becomes_settle {q : Request} (o : Outcome)
    (h : Phase.Edge (.inFlight q.state) (.inFlight .settled)) : q.Becomes (q.settle o) := by
  refine ⟨⟨rfl, rfl, rfl, rfl, rfl, rfl⟩, fun _ h => h, ?_, .single h⟩
  intro a ha
  simp [settle, ha]

/-- The first outcome of a request is the one it gets. -/
theorem outcome_settle {q : Request} (h : q.outcome = none) (o : Outcome) :
    (q.settle o).outcome = some o := by
  rw [settle, h, Option.none_or]

/-- A record that fits its state. -/
structure Sound (q : Request) : Prop where
  /-- There is somebody to handle the request. -/
  candidates : q.candidates ≠ []
  /-- There is an outcome exactly when the request is settled. -/
  outcome : q.outcome.isSome = true ↔ q.state = .settled
  /-- There is no handler before the choice. -/
  unhandled : q.state.unhandled = true → q.handler = none
  /-- There is a handler from the choice to the outcome. -/
  handled : q.state.handled = true → q.handler.isSome = true
  /-- A handler owns one of the candidates. -/
  owner : ∀ h, q.handler = some h → ∃ i ∈ q.candidates, i.owner = h

namespace Sound

variable {q : Request}

/-- A request that has just been admitted with candidates is sound. -/
theorem admitted {id : RequestId} {created : Timestamp} {requester intentId : String}
    {candidates : List Intent} {parameters : Json.Parameters} (h : candidates ≠ []) :
    (Request.admitted id created requester intentId candidates parameters).Sound := by
  refine ⟨h, ?_, fun _ => rfl, ?_, ?_⟩
  · simp [Request.admitted]
  · simp [Request.admitted, RequestState.handled]
  · simp [Request.admitted]

/-- There is no outcome before the request is settled. -/
theorem outcome_none (hq : q.Sound) (hs : q.state ≠ .settled) : q.outcome = none := by
  have ho := mt hq.outcome.mp hs
  rwa [Option.not_isSome_iff_eq_none] at ho

/-- A request that waits for its handler's choice is as sound as before. -/
theorem ask (hq : q.Sound) (hs : q.state = .received) : (q.moveTo .awaitingChoice).Sound := by
  have hn : q.state ≠ .settled := by rw [hs]; decide
  refine ⟨hq.candidates, ?_, fun _ => hq.unhandled (by rw [hs]; rfl), ?_, hq.owner⟩
  · simp [moveTo, hq.outcome_none hn]
  · intro h
    cases h

/-- A request that has its handler stays sound in every state that needs one. -/
theorem moveTo {s : RequestState} (hq : q.Sound) (hh : q.state.handled = true)
    (hs : s.handled = true) : (q.moveTo s).Sound := by
  have hn : q.state ≠ .settled := by
    intro h
    rw [h] at hh
    cases hh
  refine ⟨hq.candidates, ?_, ?_, fun _ => hq.handled hh, hq.owner⟩
  · cases s <;> simp_all [Request.moveTo, hq.outcome_none hn, RequestState.handled]
  · cases s <;> simp_all [Request.moveTo, RequestState.handled, RequestState.unhandled]

/-- Choosing the owner of a candidate keeps a request sound. -/
theorem choose (hq : q.Sound) {i : Intent} (hi : i ∈ q.candidates) (hh : q.handler = none)
    (hs : q.state ≠ .settled) : ((q.choose i.owner).moveTo .chosen).Sound := by
  refine ⟨hq.candidates, ?_, ?_, ?_, ?_⟩
  · simp [Request.choose, Request.moveTo, hq.outcome_none hs]
  · intro h
    cases h
  · simp [Request.choose, Request.moveTo, hh]
  · intro h ho
    simp only [Request.choose, Request.moveTo, hh, Option.none_or, Option.some.injEq] at ho
    exact ⟨i, hi, ho⟩

/-- An outcome leaves a request sound. -/
theorem settle (hq : q.Sound) (o : Outcome) : (q.settle o).Sound := by
  refine ⟨hq.candidates, ?_, ?_, ?_, hq.owner⟩
  · simp [Request.settle]
  · intro h
    cases h
  · intro h
    cases h

end Sound

end Request

end IntentRouter
