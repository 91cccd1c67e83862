import IntentRouter.Connection
import IntentRouter.Journal
import IntentRouter.Request

/-!
# Effects

An operation gives a value, a new state and the effects it has on the world
around: reports, events on the catalog's bus, events to be handled later,
timers, offers to the listener and commands to the host. Effects are listed in
the order in which they happen.
-/

namespace IntentRouter

/-- A change of the set of registered intents. -/
inductive CatalogEvent where
  /-- An intent was registered. -/
  | added (intent : Intent)
  /-- An intent was removed. -/
  | removed (intent : Intent)
  /-- The list of intents changed; this follows each of the others. -/
  | listChanged

/-- What the host has to do. -/
inductive Command where
  /-- Start an application. -/
  | start (application : String)
  /-- Send a request to its handler. -/
  | deliverRequest (channel : Connection) (request : Request)
  /-- Send a settled request back to its requester. -/
  | deliverReply (channel : Connection) (request : Request)

/-- Work that the router leaves for later. -/
inductive ScheduledEvent where
  /-- Make one step with the next request in the main lane. -/
  | process
  /-- The wait of a request in a stage may have taken too long. -/
  | timeout (stage : Stage) (request : RequestId) (millis : Nat)
deriving DecidableEq, Repr

/-- What an operation does to the world around it. -/
inductive Effect where
  /-- A report. -/
  | note (entry : Entry)
  /-- An event for the subscribers of the catalog. -/
  | publish (event : CatalogEvent)
  /-- An event that is to be handled later. -/
  | post (event : ScheduledEvent)
  /-- A timer that will report the end of a wait. -/
  | arm (stage : Stage) (request : RequestId) (millis : Nat)
  /-- A question to a listener. -/
  | offer (listener : Nat) (offer : Offer)
  /-- A command to the host. -/
  | command (command : Command)

namespace Effect

/-- A report about one request. -/
def about (id : RequestId) (note : RequestNote) : Effect := .note (.request id note)

/-- The report, if the effect is one. -/
def entry? : Effect → Option Entry
  | .note e => some e
  | _ => none

/-- The command, if the effect is one. -/
def command? : Effect → Option Command
  | .command c => some c
  | _ => none

/-- The listener and what it is asked, if the effect is an offer. -/
def offer? : Effect → Option (Nat × Offer)
  | .offer listener o => some (listener, o)
  | _ => none

end Effect

/-- What an operation gives. -/
structure Turn (σ α : Type) where
  /-- The answer. -/
  value : α
  /-- The state afterwards. -/
  state : σ
  /-- The effects, in order. -/
  effects : List Effect

namespace Turn

variable {σ τ α β : Type}

/-- An operation that only answers. -/
def quiet (value : α) (state : σ) : Turn σ α := ⟨value, state, []⟩

/-- The same turn with effects that happened before it. -/
def after (effects : List Effect) (t : Turn σ α) : Turn σ α := { t with effects := effects ++ t.effects }

/-- The same turn with its answer changed. -/
def map (f : α → β) (t : Turn σ α) : Turn σ β := ⟨f t.value, t.state, t.effects⟩

/-- The same turn seen as a turn of a larger state. -/
def lift (f : σ → τ) (t : Turn σ α) : Turn τ α := ⟨t.value, f t.state, t.effects⟩

end Turn

end IntentRouter
