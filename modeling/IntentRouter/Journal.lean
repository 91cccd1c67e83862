import IntentRouter.Settings.Log
import IntentRouter.Refusal
import IntentRouter.Stage

/-!
# The journal

What the router and its host report while they work. An entry says what
happened; its level, wording and fields follow from it.
-/

namespace IntentRouter

/-- What is reported about one request. -/
inductive RequestNote where
  /-- It joins the main lane. -/
  | joining (state : RequestState)
  /-- It stands in a lane already. -/
  | alreadyQueued
  /-- It stood in the main lane, but nothing is known about it. -/
  | unknown
  /-- A step is made with it. -/
  | processing (state : RequestState)
  /-- The listener has been asked. -/
  | awaitingChoice (intentId : String)
  /-- Its handler is known without asking. -/
  | choiceMade
  /-- The listener is gone, so the first candidate is taken. -/
  | listenerGone
  /-- Its handler is running. -/
  | handlerRunning (handler : String)
  /-- Its handler is not running. -/
  | handlerNotRunning (handler : String)
  /-- Its handler has no channel. -/
  | handlerUnreachable (handler : String)
  /-- It is sent to its handler. -/
  | sending (handler : String)
  /-- Its outcome is sent to the requester. -/
  | returning (requester : String)
  /-- The requester has no channel. -/
  | requesterUnreachable (requester : String)
  /-- A timer found it elsewhere. -/
  | staleTimer (stage : Stage)
  /-- Its wait took too long. -/
  | timedOut (stage : Stage) (millis : Nat)
  /-- A choice was reported that nobody waits for. -/
  | unexpectedChoice
  /-- The choice is not among its candidates. -/
  | notCandidate (intent : String)
  /-- A rejection was reported that nobody waits for. -/
  | unexpectedRejection
  /-- Its handler has been started. -/
  | released (application : String)
  /-- A reply came after it had ended. -/
  | lateReply (application : String)
  /-- A reply was reported that nobody waits for. -/
  | unexpectedReply (application : String)
  /-- Another application than its handler replied. -/
  | wrongReplier (application expected : String)
  /-- Its handler replied with an error. -/
  | errorReply (application message : String)
  /-- Its handler replied. -/
  | reply (application : String)
deriving DecidableEq, Repr

/-- One report. -/
inductive Entry where
  /-- An intent was registered. -/
  | intentAdded (intent : String)
  /-- An intent was removed. -/
  | intentRemoved (intent : String)
  /-- An intent was passed over because only its owner may see it. -/
  | hiddenIntent (intent : String)
  /-- An intent was passed over because the requester lacks a capability. -/
  | guardedIntent (intent : String)
  /-- The capability table was left in doubt by a fault and is used all the same. -/
  | capabilitiesRecovered
  /-- Nobody takes commands any more. -/
  | commandDiscarded
  /-- Nobody takes scheduled events any more. -/
  | schedulerClosed
  /-- A request came in. -/
  | incoming (intentId requester target : String)
  /-- A request was refused. -/
  | rejected (reason : Refusal)
  /-- Something about one request. -/
  | request (id : RequestId) (note : RequestNote)
deriving DecidableEq, Repr

namespace RequestNote

/-- How severe a report is. -/
def level : RequestNote → LogLevel
  | .alreadyQueued | .unknown | .handlerUnreachable _ | .requesterUnreachable _ | .timedOut ..
  | .unexpectedChoice | .notCandidate _ | .unexpectedRejection | .unexpectedReply _
  | .wrongReplier .. => .warn
  | .staleTimer _ => .trace
  | _ => .debug

/-- The wording of a report. -/
def message : RequestNote → String
  | .joining _ => "Enqueueing intent request"
  | .alreadyQueued => "Intent request is already queued"
  | .unknown => "Queued intent request is unknown"
  | .processing _ => "Processing intent request"
  | .awaitingChoice _ => "Waiting for disambiguation"
  | .choiceMade => "No disambiguation necessary"
  | .listenerGone => "Disambiguation listener went away, selecting automatically"
  | .handlerRunning _ => "Intent handler is already running"
  | .handlerNotRunning _ => "Intent handler is not running"
  | .handlerUnreachable _ => "No IPC channel to forward the intent request"
  | .sending _ => "Sending intent request to handler application"
  | .returning _ => "Forwarding intent reply to requesting application"
  | .requesterUnreachable _ => "No IPC channel to forward the intent reply"
  | .staleTimer _ => "Timer fired after the request moved on"
  | .timedOut stage millis => stage.timeoutMessage millis
  | .unexpectedChoice => "Got a disambiguation acknowledge but no disambiguation was expected"
  | .notCandidate _ => "Disambiguated to an intent that was not a candidate"
  | .unexpectedRejection => "Got a disambiguation reject but no disambiguation was expected"
  | .released _ => "Intent request can now be forwarded"
  | .lateReply _ => "Ignoring late reply for an already completed intent request"
  | .unexpectedReply _ => "Got a reply but no reply was expected for this intent request"
  | .wrongReplier .. => "Got a reply from the wrong application"
  | .errorReply .. => "Got an error reply"
  | .reply _ => "Got a reply"

/-- What a report says besides the request it is about. -/
def fields : RequestNote → List (String × String)
  | .joining state | .processing state => [("state", state.text)]
  | .awaitingChoice intentId => [("intent_id", intentId)]
  | .handlerRunning handler | .handlerNotRunning handler | .handlerUnreachable handler
  | .sending handler => [("handler", handler)]
  | .returning requester | .requesterUnreachable requester => [("requester", requester)]
  | .staleTimer stage | .timedOut stage _ => [("stage", stage.text)]
  | .notCandidate intent => [("intent", intent)]
  | .released application => [("application_id", application)]
  | .lateReply application | .unexpectedReply application | .reply application =>
    [("replying_application_id", application)]
  | .wrongReplier application expected =>
    [("replying_application_id", application), ("expected", expected)]
  | .errorReply application message =>
    [("replying_application_id", application), ("error", message)]
  | _ => []

end RequestNote

namespace Entry

/-- How severe a report is. -/
def level : Entry → LogLevel
  | .capabilitiesRecovered | .commandDiscarded | .schedulerClosed | .rejected _ => .warn
  | .request _ note => note.level
  | _ => .debug

/-- The wording of a report. -/
def message : Entry → String
  | .intentAdded _ => "Intent added"
  | .intentRemoved _ => "Intent removed"
  | .hiddenIntent _ => "Not considering intent due to private visibility"
  | .guardedIntent _ => "Not considering intent due to missing capabilities"
  | .capabilitiesRecovered => "Capability map lock poisoned, recovering"
  | .commandDiscarded => "System command receiver dropped, discarding command"
  | .schedulerClosed => "Scheduler channel closed, request queue will not be processed"
  | .incoming .. => "Incoming intent request"
  | .rejected _ => "Rejected intent request"
  | .request _ note => note.message

/-- What a report says besides its wording; requests are named by `label`. -/
def fields (label : RequestId → String) : Entry → List (String × String)
  | .intentAdded intent | .intentRemoved intent | .hiddenIntent intent | .guardedIntent intent =>
    [("intent", intent)]
  | .incoming intentId requester target =>
    [("intent_id", intentId), ("requester", requester), ("target", target)]
  | .rejected reason => [("err", (reason.message? label).getD "")]
  | .request id note => ("request_id", label id) :: note.fields
  | _ => []

end Entry

end IntentRouter
