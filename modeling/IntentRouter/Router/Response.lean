import IntentRouter.Router.Step

/-!
# What ends a wait

A choice, a rejection, the start of an application, a reply or a timer takes a
request out of the lane in which it waits. Whatever comes first wins: what is
reported about a request that does not wait for it is refused and changes
nothing.
-/

namespace IntentRouter.Router

/-- The failure of a request that the listener rejected. -/
def rejectedMessage : String := "Disambiguation was rejected"

/-- The failure of a request that another application than its handler replied to. -/
def wrongReplierMessage : String := "Request reply received from wrong application"

/-- The failure of a request whose handler gave no reason for its error. -/
def handlerErrorMessage : String := "Handler application reported an error"

/-- The parameter in which a handler gives the reason for its error. -/
def errorMessageName : String := "errorMessage"

/-- Takes a request out of the lane in which it waits. -/
def endWait? (r : Router) (stage : Stage) (id : RequestId) : Option Router :=
  (r.lanes.leave? stage.lane id).map fun lanes => { r with lanes := lanes }

/-- A timer has run out. Nothing happens to a request that has moved on. -/
def timeOut (r : Router) (around : Surroundings) (stage : Stage) (id : RequestId) (millis : Nat) :
    Turn Router Unit :=
  match r.endWait? stage id with
  | none => ⟨(), r, [.about id (.staleTimer stage)]⟩
  | some r =>
    (r.abandon around id (stage.timeoutMessage millis)).after
      [.about id (.timedOut stage millis)]

/-- The listener has chosen. A choice that was not offered fails the request. -/
def resolve (r : Router) (around : Surroundings) (id : RequestId) (selected : Intent) :
    Turn Router (Except Refusal Unit) :=
  match r.endWait? .choice id with
  | none => ⟨.error (.notPending id), r, [.about id .unexpectedChoice]⟩
  | some r =>
    match r.request? id with
    | none => .quiet (.error (.notPending id)) r
    | some q =>
      if q.candidates.any fun i => i.same selected then
        ((r.update ((q.choose selected.owner).moveTo .chosen)).joinMain around id).map .ok
      else
        ((r.abandon around id invalidChoiceMessage).map .ok).after
          [.about id (.notCandidate selected.name)]

/-- The listener has rejected all candidates. -/
def reject (r : Router) (around : Surroundings) (id : RequestId) :
    Turn Router (Except Refusal Unit) :=
  match r.endWait? .choice id with
  | none => ⟨.error (.notPending id), r, [.about id .unexpectedRejection]⟩
  | some r => (r.abandon around id rejectedMessage).map .ok

/-- Whether a request waits for the given application as its handler. -/
def handledBy (r : Router) (application : String) (id : RequestId) : Bool :=
  ((r.request? id).bind Request.handler) = some application

/-- Moves a request whose handler has started back to the main lane. -/
def release (application : String) (t : Turn Router Unit) (id : RequestId) : Turn Router Unit :=
  match t.state.request? id with
  | none => t
  | some q =>
    let r := t.state.update (q.moveTo .started)
    { t with
      state := { r with lanes := (r.lanes.join? .main id).getD r.lanes }
      effects := t.effects ++ [.about id (.released application)] }

/-- An application has started. Answers how many requests waited for it. -/
def announceStart (r : Router) (around : Surroundings) (application : String) :
    Turn Router Nat :=
  let (released, lanes) := r.lanes.extract .starting (r.handledBy application)
  let t := released.foldl (release application) (.quiet () { r with lanes := lanes })
  ⟨released.length, t.state,
    t.effects ++ if released = [] then [] else [wake around]⟩

/-- What a reply makes of a request, with the report. -/
def settleBy (q : Request) (application : String) (isError : Bool) (payload : Json.Parameters) :
    Request × RequestNote :=
  if q.handler ≠ some application then
    (q.fail wrongReplierMessage, .wrongReplier application (q.handler.getD ""))
  else if isError then
    let message := ((payload.get? errorMessageName).bind Json.Value.str?).getD handlerErrorMessage
    (q.fail message, .errorReply application message)
  else (q.settle (.succeeded payload), .reply application)

/-- An application has replied to a request. -/
def reply (r : Router) (around : Surroundings) (application : String) (id : RequestId)
    (isError : Bool) (payload : Json.Parameters) : Turn Router (Except Refusal Unit) :=
  match r.endWait? .reply id with
  | none =>
    let note := if r.history.contains id then .lateReply application
      else .unexpectedReply application
    ⟨.error (.notPending id), r, [.about id note]⟩
  | some r =>
    match r.request? id with
    | none => .quiet (.error (.notPending id)) r
    | some q =>
      let (settled, note) := settleBy q application isError payload
      (((r.update settled).joinMain around id).map .ok).after [.about id note]

/-- Handles an event that was posted earlier. -/
def handle (r : Router) (around : Surroundings) : ScheduledEvent → Turn Router Unit
  | .process => r.process around
  | .timeout stage id millis => r.timeOut around stage id millis

end IntentRouter.Router
