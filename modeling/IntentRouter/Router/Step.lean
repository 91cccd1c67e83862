import IntentRouter.Router.State

/-!
# One step of the router

A step takes the next request of the main lane as far as it can go without
waiting: to the choice of its handler, to the start of its handler, to its
handler, or, once settled, back to its requester.
-/

namespace IntentRouter.Router

/-- The failure of a request for which no handler has been chosen. -/
def invalidChoiceMessage : String := "Failed to disambiguate"

/-- The failure of a request whose handler has no channel. -/
def noChannelMessage : String := "No IPC channel to reach target application."

/-- A request on its way through a step. -/
structure Passage where
  /-- The request as far as it has come. -/
  request : Request
  /-- The listener that stays attached. -/
  listener : Option Nat
  /-- What has happened on the way. -/
  effects : List Effect

/-- The timer of the wait in a stage. -/
def timer (settings : Settings) (stage : Stage) (id : RequestId) : Effect :=
  .arm stage id (settings.timeout stage)

/-- Takes a request whose handler is decided here: the first candidate's owner,
unless one has been chosen. -/
def chooseFirst (q : Request) : Request × List Effect :=
  let q := match q.candidates with
    | first :: _ => q.choose first.owner
    | [] => q
  if q.handler.isSome then (q.moveTo .chosen, [.about q.id .choiceMade]) else (q, [])

/-- From admission to a chosen handler: asks the listener if it listens, and
takes the first candidate otherwise. A listener that is gone is detached. -/
def choosing (around : Surroundings) (settings : Settings) (p : Passage) : Passage :=
  let q := p.request
  if q.handler.isSome then
    let (q, effects) := chooseFirst q
    { p with request := q, effects := p.effects ++ effects }
  else match p.listener with
    | none =>
      let (q, effects) := chooseFirst q
      { p with request := q, effects := p.effects ++ effects }
    | some listener =>
      if around.listens listener then
        { p with
          request := q.moveTo .awaitingChoice
          effects := p.effects ++ [.offer listener (.ofRequest q),
            .about q.id (.awaitingChoice q.intentId), timer settings .choice q.id] }
      else
        let (q', effects) := chooseFirst q
        ⟨q', none, p.effects ++ .about q.id .listenerGone :: effects⟩

/-- From a chosen handler to a running one. A handler that does not run is started. -/
def starting (around : Surroundings) (settings : Settings) (p : Passage) : Passage :=
  let q := p.request
  match q.handler with
  | none => { p with request := q.fail invalidChoiceMessage }
  | some handler =>
    if around.host.isRunning handler then
      { p with
        request := q.moveTo .started
        effects := p.effects ++ [.about q.id (.handlerRunning handler)] }
    else
      { p with
        request := q.moveTo .awaitingStart
        effects := p.effects ++ [.about q.id (.handlerNotRunning handler),
          timer settings .start q.id, around.host.issue (.start handler)] }

/-- From a running handler to a request in its hands. Without a channel the request fails. -/
def sending (around : Surroundings) (settings : Settings) (p : Passage) : Passage :=
  let q := p.request
  let handler := q.handler.getD ""
  match around.host.connection? handler with
  | none =>
    { p with
      request := q.fail noChannelMessage
      effects := p.effects ++ [.about q.id (.handlerUnreachable handler)] }
  | some channel =>
    let sent := q.moveTo .awaitingReply
    { p with
      request := sent
      effects := p.effects ++ [.about q.id (.sending handler), timer settings .reply q.id,
        around.host.issue (.deliverRequest channel sent)] }

/-- Applies a part of the step to a request in the given state. -/
def whenIn (state : RequestState) (part : Passage → Passage) (p : Passage) : Passage :=
  if p.request.state = state then part p else p

/-- How far a request goes in one step. -/
def advance (around : Surroundings) (settings : Settings) (listener : Option Nat) (q : Request) :
    Passage :=
  let start : Passage := ⟨q, listener, [.about q.id (.processing q.state)]⟩
  whenIn .started (sending around settings)
    (whenIn .chosen (starting around settings)
      (whenIn .received (choosing around settings) start))

/-- Returns a settled request to its requester and forgets it. -/
def deliver (r : Router) (around : Surroundings) (q : Request) : Turn Router Unit :=
  let m := match q.outcome with
    | some (.succeeded _) => { r.counters with succeeded := r.counters.succeeded + 1 }
    | _ => { r.counters with failed := r.counters.failed + 1 }
  let r := { r.discard q.id with history := r.history.record q.id }
  match around.host.connection? q.requester with
  | some channel =>
    ⟨(), { r with counters := m },
      [.about q.id (.returning q.requester), around.host.issue (.deliverReply channel q)]⟩
  | none =>
    ⟨(), { r with counters := { m with undeliverable := m.undeliverable + 1 } },
      [.about q.id (.requesterUnreachable q.requester)]⟩

/-- Puts a request where its state belongs after a step: into the lane of its
stage if it waits, back to its requester if it is settled. -/
def conclude (r : Router) (around : Surroundings) (q : Request) : Turn Router Unit :=
  match q.state.stage? with
  | some stage =>
    .quiet () { r.update q with lanes := (r.lanes.join? stage.lane q.id).getD r.lanes }
  | none => if q.state = .settled then r.deliver around q else .quiet () (r.update q)

/-- Makes one step with the next request in the main lane and asks for another
step; does nothing when nobody stands there. -/
def process (r : Router) (around : Surroundings) : Turn Router Unit :=
  match r.lanes.takeNext? with
  | none => .quiet () r
  | some (id, lanes) =>
    let r := { r with lanes := lanes }
    match r.request? id with
    | none => ⟨(), r, [.about id .unknown, wake around]⟩
    | some q =>
      let p := advance around r.settings r.listener q
      let t := { r with listener := p.listener }.conclude around p.request
      { t with effects := p.effects ++ t.effects ++ [wake around] }

end IntentRouter.Router
