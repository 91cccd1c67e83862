import IntentRouter.Intent
import IntentRouter.RequestId
import IntentRouter.Stage
import IntentRouter.Timestamp

/-!
# Intent requests

What the requester supplied never changes. The handler is set at most once, and
so is the outcome, which settles the request.
-/

namespace IntentRouter

/-- How a request ended. -/
inductive Outcome where
  /-- The handler replied with these values. -/
  | succeeded (payload : Json.Parameters)
  /-- The request failed for the given reason. -/
  | failed (message : String)

namespace Outcome

/-- Whether the request succeeded. -/
def isSuccess : Outcome → Bool
  | .succeeded _ => true
  | .failed _ => false

/-- Reads an outcome: an object with one member, named for the case. -/
def ofNode? (depth : Nat) (n : Json.Node) : Option Outcome :=
  match n.case? depth with
  | some ("Succeeded", content) =>
    (Json.Parameters.ofNode? (depth - 1) content).map .succeeded
  | some ("Failed", content) => content.string?.map .failed
  | _ => none

/-- The outcome as a document. -/
def toNode : Outcome → Json.Node
  | .succeeded payload => .object [("Succeeded", payload.toNode)]
  | .failed message => .object [("Failed", .ofString message)]

end Outcome

/-- A request for an intent. -/
structure Request where
  /-- The name of the request. -/
  id : RequestId
  /-- The application that submitted it. -/
  requester : String
  /-- The id of the requested intent. -/
  intentId : String
  /-- The values supplied by the requester. -/
  parameters : Json.Parameters
  /-- The intents that may handle it, in the order of their registration. -/
  candidates : List Intent
  /-- The application chosen to handle it, once there is one. -/
  handler : Option String
  /-- Where it stands. -/
  state : RequestState
  /-- How it ended, once it has. -/
  outcome : Option Outcome
  /-- When it was submitted. -/
  created : Timestamp

namespace Request

/-- A request that has just been admitted. -/
def admitted (id : RequestId) (created : Timestamp) (requester intentId : String)
    (candidates : List Intent) (parameters : Json.Parameters) : Request :=
  ⟨id, requester, intentId, parameters, candidates, none, .received, none, created⟩

instance : Inhabited Request := ⟨admitted default default "" "" [] default⟩

/-- The candidate that belongs to the chosen handler. -/
def chosenCandidate (r : Request) : Option Intent :=
  r.handler.bind fun handler => r.candidates.find? fun i => i.owner = handler

/-- Chooses the handler, unless one has been chosen. -/
def choose (r : Request) (handler : String) : Request :=
  { r with handler := r.handler.or (some handler) }

/-- Moves the request to a state. -/
def moveTo (r : Request) (state : RequestState) : Request := { r with state := state }

/-- Settles the request. The first outcome stays. -/
def settle (r : Request) (outcome : Outcome) : Request :=
  { r with outcome := r.outcome.or (some outcome), state := .settled }

/-- Settles the request as a failure. -/
def fail (r : Request) (message : String) : Request := r.settle (.failed message)

/-- The fields of a request in declaration order. -/
def fieldNames : List String :=
  ["id", "requesting_application_id", "intent_id", "parameters", "potential_intents",
    "handling_application_id", "state", "result", "created"]

/-- Reads a request. -/
def ofNode? (depth : Nat) (n : Json.Node) : Option Request := do
  let fields ← n.fields? fieldNames .complete depth
  let inner := depth - 1
  let id ← fields.required? "id" fun n => n.string?.bind RequestId.ofString?
  let requester ← fields.required? "requesting_application_id" (·.string?)
  let intentId ← fields.required? "intent_id" (·.string?)
  let parameters ← fields.required? "parameters" (Json.Parameters.ofNode? inner)
  let candidates ← fields.required? "potential_intents" (·.items? Intent.ofNode? inner)
  let handler ← fields.optional? "handling_application_id" (·.string?)
  let state ← fields.required? "state" (RequestState.ofNode? inner)
  let outcome ← fields.optional? "result" (Outcome.ofNode? inner)
  let created ← fields.required? "created" fun n => n.string?.bind Timestamp.ofString?
  some ⟨id, requester, intentId, parameters, candidates, handler, state, outcome, created⟩

/-- The request as a document, its fields in declaration order. -/
def toNode (r : Request) : Json.Node :=
  .object [
    ("id", .ofString r.id.text),
    ("requesting_application_id", .ofString r.requester),
    ("intent_id", .ofString r.intentId),
    ("parameters", r.parameters.toNode),
    ("potential_intents", .list (r.candidates.map Intent.toNode)),
    ("handling_application_id", .ofString? r.handler),
    ("state", r.state.toNode),
    ("result", r.outcome.elim .null Outcome.toNode),
    ("created", .ofString r.created.text)]

end Request

/-- What a listener is asked: to choose one of the candidates of a request. -/
structure Offer where
  /-- The request in question. -/
  request : RequestId
  /-- Its candidates, in the order of their registration. -/
  candidates : List Intent
  /-- The values supplied by the requester. -/
  parameters : Json.Parameters

namespace Offer

/-- The offer that goes out for a request. -/
def ofRequest (r : Request) : Offer := ⟨r.id, r.candidates, r.parameters⟩

/-- The fields of an offer in declaration order. -/
def fieldNames : List String := ["request_id", "potential_intents", "parameters"]

/-- Reads an offer. -/
def ofNode? (depth : Nat) (n : Json.Node) : Option Offer := do
  let fields ← n.fields? fieldNames .complete depth
  let inner := depth - 1
  let request ← fields.required? "request_id" fun n => n.string?.bind RequestId.ofString?
  let candidates ← fields.required? "potential_intents" (·.items? Intent.ofNode? inner)
  let parameters ← fields.required? "parameters" (Json.Parameters.ofNode? inner)
  some ⟨request, candidates, parameters⟩

/-- The offer as a document, its fields in declaration order. -/
def toNode (o : Offer) : Json.Node :=
  .object [
    ("request_id", .ofString o.request.text),
    ("potential_intents", .list (o.candidates.map Intent.toNode)),
    ("parameters", o.parameters.toNode)]

end Offer

end IntentRouter
