import IntentRouter.Router.State

/-!
# Admission of requests

A request is admitted when its requester runs and may use at least one of the
intents that answer it. Those intents are its candidates for the rest of its
life, whatever becomes of the catalog and of the requester's capabilities.
-/

namespace IntentRouter.Router

/-- What an application asks for. -/
structure Submission where
  /-- The application that asks. -/
  requester : String
  /-- The id of the intent it asks for. -/
  intentId : String
  /-- The application that has to handle it, if the requester names one. -/
  target : Option String
  /-- The values it supplies. -/
  parameters : Json.Parameters

/-- The registered intents that answer a submission. An empty target is no target. -/
def answering (c : Catalog) (s : Submission) : List Intent :=
  match s.target.filter fun target => target ≠ "" with
  | some target => (c.find? s.intentId target s.parameters).toList
  | none => Catalog.withId c.intents s.intentId s.parameters

/-- The candidates of a submission, or why it is refused, with the reports made. -/
def assess (r : Router) (host : Host) (s : Submission) : Except Refusal (List Intent) × List Entry :=
  if ¬ host.isRunning s.requester then
    (.error (.unknownRequester s.intentId s.requester), [])
  else match answering r.catalog s with
    | [] => (.error (.unknownIntent s.intentId s.requester), [])
    | answers =>
      let screening := host.screen s.requester answers
      match screening.visible with
      | [] => (.error (.inaccessibleIntent s.intentId s.requester), screening.report)
      | candidates => (.ok candidates, screening.report)

/-- Admits a submission under a fresh name, or refuses it. -/
def submit (r : Router) (around : Surroundings) (id : RequestId) (now : Timestamp)
    (s : Submission) : Turn Router (Except Refusal Request) :=
  let (decision, report) := r.assess around.host s
  let before := .note (.incoming s.intentId s.requester (s.target.getD "")) :: report.map .note
  match decision with
  | .ok candidates =>
    let q := Request.admitted id now s.requester s.intentId candidates s.parameters
    let r := { r with
      requests := r.requests ++ [q]
      counters := { r.counters with submitted := r.counters.submitted + 1 } }
    ((r.joinMain around id).map fun _ => .ok q).after before
  | .error reason =>
    ⟨.error reason,
      { r with counters := { r.counters with rejected := r.counters.rejected + 1 } },
      before ++ [.note (.rejected reason)]⟩

end IntentRouter.Router
