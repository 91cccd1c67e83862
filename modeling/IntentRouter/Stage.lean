import IntentRouter.Json.Record

/-!
# States, stages and lanes

A request moves through seven states. In three of them it waits on something
outside; each of these stages has a lane of its own, and a request that does
not wait is in the main lane.
-/

namespace IntentRouter

/-- Where a request stands. -/
inductive RequestState where
  /-- It has been admitted. -/
  | received
  /-- The listener has been asked to choose its handler. -/
  | awaitingChoice
  /-- Its handler is known. -/
  | chosen
  /-- Its handler is being started. -/
  | awaitingStart
  /-- Its handler is running. -/
  | started
  /-- It has been sent to its handler. -/
  | awaitingReply
  /-- Its outcome is known. -/
  | settled
deriving DecidableEq, Repr

/-- What a waiting request waits for. -/
inductive Stage where
  /-- The choice of a handler. -/
  | choice
  /-- The start of the handler. -/
  | start
  /-- The reply of the handler. -/
  | reply
deriving DecidableEq, Repr

/-- The lanes that hold requests in flight. -/
inductive Lane where
  /-- Ready for the next step. -/
  | main
  /-- Waiting for the choice of a handler. -/
  | choice
  /-- Waiting for the handler to start. -/
  | starting
  /-- Waiting for the handler to reply. -/
  | sent
deriving DecidableEq, Repr

namespace Lane

/-- All lanes, the main one first. -/
def all : List Lane := [.main, .choice, .starting, .sent]

/-- The name shown to people. -/
def text : Lane → String
  | .main => "main"
  | .choice => "disambiguation"
  | .starting => "starting-application"
  | .sent => "sent-to-application"

/-- The lane with the given name. -/
def ofText? (name : String) : Option Lane := all.find? fun l => l.text = name

end Lane

namespace Stage

/-- The lane of the requests that wait in a stage. -/
def lane : Stage → Lane
  | .choice => .choice
  | .start => .starting
  | .reply => .sent

/-- The name of a stage. -/
def text : Stage → String
  | .choice => "Disambiguation"
  | .start => "ApplicationStart"
  | .reply => "Reply"

/-- The stage with the given name. -/
def ofText? (name : String) : Option Stage :=
  [choice, start, reply].find? fun s => s.text = name

/-- The failure of a request whose wait took too long. -/
def timeoutMessage (s : Stage) (millis : Nat) : String :=
  let what := match s with
    | .choice => "Disambiguation"
    | .start => "Starting handler application"
    | .reply => "Waiting for reply from handler application"
  what ++ " timed out after " ++ toString millis ++ " ms"

/-- The setting that bounds a stage, as it is called in refusals. -/
def settingText : Stage → String
  | .choice => "disambiguation timeout"
  | .start => "start application timeout"
  | .reply => "reply timeout"

/-- The field of the settings that bounds a stage. -/
def fieldName : Stage → String
  | .choice => "disambiguation_timeout_ms"
  | .start => "start_application_timeout_ms"
  | .reply => "reply_timeout_ms"

end Stage

namespace RequestState

/-- All states in the order of a request's life. -/
def all : List RequestState :=
  [.received, .awaitingChoice, .chosen, .awaitingStart, .started, .awaitingReply, .settled]

/-- The name of the state. -/
def text : RequestState → String
  | .received => "ReceivedRequest"
  | .awaitingChoice => "WaitingForDisambiguation"
  | .chosen => "Disambiguated"
  | .awaitingStart => "WaitingForApplicationStart"
  | .started => "StartedApplication"
  | .awaitingReply => "WaitingForReplyFromApplication"
  | .settled => "ReceivedReplyFromApplication"

/-- The state with the given name. -/
def ofText? (name : String) : Option RequestState := all.find? fun s => s.text = name

/-- The stage in which a request in this state waits; `none` when it does not wait. -/
def stage? : RequestState → Option Stage
  | .awaitingChoice => some .choice
  | .awaitingStart => some .start
  | .awaitingReply => some .reply
  | _ => none

/-- The lane that holds the requests in this state. -/
def lane (s : RequestState) : Lane := s.stage?.elim .main Stage.lane

/-- Reads a state. -/
def ofNode? (depth : Nat) (n : Json.Node) : Option RequestState :=
  (n.caseName? depth).bind ofText?

/-- The state as a document. -/
def toNode (s : RequestState) : Json.Node := .ofString s.text

end RequestState

end IntentRouter
