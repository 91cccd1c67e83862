import IntentRouter.Router.Admission
import IntentRouter.Router.Response
import IntentRouter.Session.Answer

/-!
# Calls

Everything that can be asked of a host, of a catalog and of a router, as data.
A run is a list of calls.
-/

namespace IntentRouter

/-- What can be asked of a host. -/
inductive HostCall where
  /-- An application runs, with or without a channel. -/
  | run (application : String) (channel : Option Connection)
  /-- An application has stopped. -/
  | stop (application : String)
  /-- Grant capabilities, and say which are held then. -/
  | grant (application : String) (names : List String)
  /-- The same, breaking off after the given capabilities. -/
  | grantBroken (application : String) (names : List String)
  /-- Take all capabilities away, and say which are held then. -/
  | revoke (application : String)
  /-- Which capabilities are held. -/
  | capabilities (application : String)
  /-- Whether an application runs. -/
  | isRunning (application : String)
  /-- The channel of an application. -/
  | findConnection (application : String)
  /-- Start an application. -/
  | start (application : String)
  /-- Nobody carries out commands any more. -/
  | leave
deriving DecidableEq, Repr

/-- What can be asked of a catalog. -/
inductive CatalogCall where
  /-- Make an application known. -/
  | addApplication (application : String)
  /-- Forget an application. -/
  | removeApplication (application : String)
  /-- Whether an application is known. -/
  | isKnown (application : String)
  /-- All known applications. -/
  | applications
  /-- Register a background handler. -/
  | addHandler (application handler : String)
  /-- Forget a background handler. -/
  | removeHandler (application handler : String)
  /-- The background handlers of an application. -/
  | handlersOf (application : String)
  /-- Register an intent. -/
  | add (intent : Intent)
  /-- Remove an intent. -/
  | remove (intent : Intent)
  /-- Find an intent by its id and owner. -/
  | find (intentId owner : String) (parameters : Json.Parameters)
  /-- All registered intents. -/
  | intents

/-- What can be asked of a router. -/
inductive RouterCall where
  /-- Admit a submission under a fresh name. -/
  | submit (id : RequestId) (now : Timestamp) (submission : Router.Submission)
  /-- Attach a listener. -/
  | attach (listener : Nat)
  /-- Whether a live listener is attached. -/
  | hasListener
  /-- The listener has chosen. -/
  | resolve (id : RequestId) (selected : Intent)
  /-- The listener has rejected all candidates. -/
  | reject (id : RequestId)
  /-- An application has replied. -/
  | reply (application : String) (id : RequestId) (isError : Bool) (payload : Json.Parameters)
  /-- Change how long requests may wait in a stage. -/
  | setTimeout (stage : Stage) (duration : Duration)
  /-- An application has started. -/
  | announceStart (application : String)
  /-- Make one step. -/
  | process
  /-- Handle a scheduled event. -/
  | handle (event : ScheduledEvent)
  /-- The request in flight with a name. -/
  | request (id : RequestId)
  /-- The settings. -/
  | settings
  /-- The counters. -/
  | counters

/-- The capabilities of an application, with what looking them up reports. -/
def Host.look (h : Host) (application : String) : Turn Host Answer :=
  ⟨.names (h.capabilities application).members, h, h.lookReport.map .note⟩

/-- Carries out a call. A change of the capabilities is a look at them as well. -/
def Host.perform (h : Host) : HostCall → Turn Host Answer
  | .run application channel => .quiet .nothing (h.run application channel)
  | .stop application => .quiet .nothing (h.stop application)
  | .grant application names =>
    ((h.grant application names).look application).after (h.lookReport.map .note)
  | .grantBroken application names =>
    ((h.grantBroken application names).look application).after (h.lookReport.map .note)
  | .revoke application => ((h.revoke application).look application).after (h.lookReport.map .note)
  | .capabilities application => h.look application
  | .isRunning application => .quiet (.flag (h.isRunning application)) h
  | .findConnection application => .quiet (.channel (h.connection? application)) h
  | .start application => ⟨.nothing, h, [h.issue (.start application)]⟩
  | .leave => .quiet .nothing h.leave

/-- Carries out a call. -/
def Catalog.perform (c : Catalog) : CatalogCall → Turn Catalog Answer
  | .addApplication application =>
    let (isNew, c) := c.addApplication application
    .quiet (.flag isNew) c
  | .removeApplication application => .quiet .nothing (c.removeApplication application)
  | .isKnown application => .quiet (.flag (c.isKnown application)) c
  | .applications => .quiet (.names c.applications) c
  | .addHandler application handler =>
    let (isNew, c) := c.addHandler application handler
    .quiet (.flag isNew) c
  | .removeHandler application handler =>
    .quiet .nothing (c.removeHandler application handler)
  | .handlersOf application => .quiet (.names (c.handlersOf application)) c
  | .add intent => (c.add intent).map (Answer.ofExcept fun i => .intent (some i))
  | .remove intent => (c.remove intent).map .intent
  | .find intentId owner parameters => .quiet (.intent (c.find? intentId owner parameters)) c
  | .intents => .quiet (.intents c.intents) c

/-- Carries out a call. -/
def Router.perform (r : Router) (around : Surroundings) : RouterCall → Turn Router Answer
  | .submit id now submission =>
    (r.submit around id now submission).map (Answer.ofExcept fun q => .request (some q))
  | .attach listener => .quiet (.count listener) (r.attach listener)
  | .hasListener => .quiet (.flag (r.liveListener? around).isSome) r
  | .resolve id selected => (r.resolve around id selected).map (Answer.ofExcept fun _ => .done)
  | .reject id => (r.reject around id).map (Answer.ofExcept fun _ => .done)
  | .reply application id isError payload =>
    (r.reply around application id isError payload).map (Answer.ofExcept fun _ => .done)
  | .setTimeout stage duration =>
    match r.setTimeout stage duration with
    | .ok r => .quiet .done r
    | .error reason => .quiet (.refused reason) r
  | .announceStart application => (r.announceStart around application).map .count
  | .process => (r.process around).map fun _ => .nothing
  | .handle event => (r.handle around event).map fun _ => .nothing
  | .request id => .quiet (.request (r.request? id)) r
  | .settings => .quiet (.settings r.settings) r
  | .counters => .quiet (.counters r.counters) r

end IntentRouter
