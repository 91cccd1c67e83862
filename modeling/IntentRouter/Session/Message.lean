import IntentRouter.Session.World

/-!
# Messages

A service is called with messages. A handle makes a message of each call, and the service makes an
operation of its world of each message. To most messages there is an answer, to three there is none.
-/

namespace IntentRouter

/-- What a handle sends to its service. -/
inductive Message where
  /-- Make an application known. -/
  | addApplication (application : String)
  /-- Forget an application. Not answered. -/
  | removeApplication (application : String)
  /-- Register a background handler. -/
  | addHandler (application handler : String)
  /-- Forget a background handler. Not answered. -/
  | removeHandler (application handler : String)
  /-- Register an intent. -/
  | add (intent : Intent)
  /-- Remove an intent. -/
  | remove (intent : Intent)
  /-- Find an intent by its id and owner. -/
  | find (intentId owner : String) (parameters : Json.Parameters)
  /-- All registered intents. -/
  | intents
  /-- Submit a request. -/
  | submit (requester intentId : String) (target : Option String) (parameters : Json.Parameters)
  /-- Attach a new listener. -/
  | attach
  /-- The listener has chosen. -/
  | resolve (id : RequestId) (selected : Intent)
  /-- The listener has rejected all candidates. -/
  | reject (id : RequestId)
  /-- An application has started. Not answered. -/
  | announceStart (application : String)
  /-- An application has replied. -/
  | reply (application : String) (id : RequestId) (isError : Bool) (payload : Json.Parameters)
  /-- Change how long requests may wait in a stage. -/
  | setTimeout (stage : Stage) (duration : Duration)
  /-- The counters. -/
  | counters

namespace Message

/-- The message that a handle makes of a call; `none` for what cannot be asked through a handle. -/
def ofOp? : Op → Option Message
  | .catalog (.addApplication application) => some (.addApplication application)
  | .catalog (.removeApplication application) => some (.removeApplication application)
  | .catalog (.addHandler application handler) => some (.addHandler application handler)
  | .catalog (.removeHandler application handler) => some (.removeHandler application handler)
  | .catalog (.add intent) => some (.add intent)
  | .catalog (.remove intent) => some (.remove intent)
  | .catalog (.find intentId owner parameters) => some (.find intentId owner parameters)
  | .catalog .intents => some .intents
  | .submit s => some (.submit s.requester s.intentId s.target s.parameters)
  | .attach => some .attach
  | .resolve (some number) selected => some (.resolve (.ofNat number) selected)
  | .reject (some number) => some (.reject (.ofNat number))
  | .announceStart application => some (.announceStart application)
  | .reply application (some number) isError payload =>
    some (.reply application (.ofNat number) isError payload)
  | .setTimeout stage duration => some (.setTimeout stage duration)
  | .counters => some .counters
  | _ => none

end Message

/-- The operation with the number of its request written out, if it is the one admitted last. -/
def Op.numbered (w : World) : Op → Op
  | .resolve ref selected => .resolve (some (ref.getD (w.admitted - 1))) selected
  | .reject ref => .reject (some (ref.getD (w.admitted - 1)))
  | .reply application ref isError payload =>
    .reply application (some (ref.getD (w.admitted - 1))) isError payload
  | op => op

namespace World

/-- Does what a message asks for, with the answer if there is one. -/
def carryOut (w : World) : Message → Turn World (Option Answer)
  | .addApplication application => (w.callCatalog (.addApplication application)).map some
  | .removeApplication application =>
    (w.callCatalog (.removeApplication application)).map fun _ => none
  | .addHandler application handler => (w.callCatalog (.addHandler application handler)).map some
  | .removeHandler application handler =>
    (w.callCatalog (.removeHandler application handler)).map fun _ => none
  | .add intent => (w.callCatalog (.add intent)).map some
  | .remove intent => (w.callCatalog (.remove intent)).map some
  | .find intentId owner parameters => (w.callCatalog (.find intentId owner parameters)).map some
  | .intents => (w.callCatalog .intents).map some
  | .submit requester intentId target parameters =>
    (w.submit ⟨requester, intentId, target, parameters⟩).map some
  | .attach => w.attach.map some
  | .resolve id selected => (w.callRouter (.resolve id selected)).map some
  | .reject id => (w.callRouter (.reject id)).map some
  | .announceStart application => (w.callRouter (.announceStart application)).map fun _ => none
  | .reply application id isError payload =>
    (w.callRouter (.reply application id isError payload)).map some
  | .setTimeout stage duration => (w.callRouter (.setTimeout stage duration)).map some
  | .counters => (w.callRouter .counters).map some

end World

end IntentRouter
