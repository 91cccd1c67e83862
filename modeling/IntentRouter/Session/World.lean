import IntentRouter.Session.Calls

/-!
# A router and the world around it

A world holds a router, its host, the bus of its catalog, the events it has
posted and not yet handled, its timers and a clock that moves only when told.
Timers are never cancelled. The requests of a world are named by the order of
their admission.
-/

namespace IntentRouter

/-- A timer that has not yet run out. -/
structure Timer where
  /-- When it runs out. -/
  due : Nat
  /-- What it posts then. -/
  event : ScheduledEvent
deriving DecidableEq, Repr

/-- A router and the world around it. -/
structure World where
  /-- The router. -/
  router : Router
  /-- The host. -/
  host : Host
  /-- The bus of catalog events. -/
  bus : Bus
  /-- For each subscriber the number of the event it reads next. -/
  subscribers : List Nat
  /-- For each listener ever attached whether it still listens. -/
  listeners : List Bool
  /-- The posted events in order; `none` when nobody takes them any more. -/
  inbox : Option (List ScheduledEvent)
  /-- The time in milliseconds. -/
  now : Nat
  /-- The timers in the order of arming. -/
  timers : List Timer
  /-- How many requests have been admitted. -/
  admitted : Nat

/-- A request as a session names it: by its number, or the one admitted last. -/
abbrev RequestRef := Option Nat

/-- What a session can ask of a world. -/
inductive Op where
  /-- A call of the host. -/
  | host (call : HostCall)
  /-- A call of the catalog. -/
  | catalog (call : CatalogCall)
  /-- The names of the intents with an id that accept parameters, among those given or registered. -/
  | withId (intents : Option (List Intent)) (intentId : String) (parameters : Json.Parameters)
  /-- The names of the intents of an owner that accept parameters. -/
  | ownedBy (intents : Option (List Intent)) (owner : String) (parameters : Json.Parameters)
  /-- The names of the intents that a requester may use. -/
  | usableBy (intents : Option (List Intent)) (requester : String)
  /-- Subscribe to the catalog's events. -/
  | subscribe
  /-- Receive events, at most so many if a number is given. -/
  | receive (subscriber : Nat) (limit : Option Nat)
  /-- Submit a request. -/
  | submit (submission : Router.Submission)
  /-- Attach a new listener. -/
  | attach
  /-- Whether a live listener is attached. -/
  | hasListener
  /-- A listener stops listening. -/
  | dropListener (listener : Nat)
  /-- What has become of the listeners. -/
  | listeners
  /-- The listener has chosen. -/
  | resolve (request : RequestRef) (selected : Intent)
  /-- The listener has rejected all candidates. -/
  | reject (request : RequestRef)
  /-- An application has replied. -/
  | reply (application : String) (request : RequestRef) (isError : Bool) (payload : Json.Parameters)
  /-- Change how long requests may wait in a stage. -/
  | setTimeout (stage : Stage) (duration : Duration)
  /-- An application has started. -/
  | announceStart (application : String)
  /-- The settings. -/
  | settings
  /-- The counters. -/
  | counters
  /-- The request in flight with a name. -/
  | request (request : RequestRef)
  /-- Report the end of a wait without a timer. -/
  | timeOut (stage : Stage) (request : RequestRef) (millis : Nat)
  /-- Make one step without an event. -/
  | process
  /-- Handle the next posted event. -/
  | step
  /-- Handle posted events until none is left. -/
  | pump
  /-- Let time pass. -/
  | advance (millis : Nat)
  /-- Nobody takes posted events any more. -/
  | closeInbox
  /-- Carry out operations so many times, without a word. -/
  | again (times : Nat) (ops : List Op)

namespace World

/-- A world in which nothing has happened. -/
def fresh (router : Router) : World := ⟨router, .fresh, .fresh, [], [], some [], 0, [], 0⟩

/-- A world whose router has the given settings. Without anything to run timers on
there is none. -/
def create (settings : Settings) (timers : Bool) : Except Refusal World := do
  let router ← Router.create settings
  if timers then .ok (fresh router) else .error .noTimers

/-- What the router sees. -/
def around (w : World) : Surroundings :=
  ⟨w.host, w.inbox.isSome, fun listener => w.listeners[listener]?.getD false⟩

/-- The name of the request with a number. -/
def idOf (w : World) (ref : RequestRef) : RequestId := .ofNat (ref.getD (w.admitted - 1))

/-- Lets an effect act on the world. -/
def absorb (w : World) : Effect → World
  | .publish event => { w with bus := w.bus.publish event }
  | .post event => { w with inbox := w.inbox.map (· ++ [event]) }
  | .arm stage id millis =>
    { w with timers := w.timers ++ [⟨w.now + millis, .timeout stage id millis⟩] }
  | _ => w

/-- A turn of a part of the world, with its effects on the rest. -/
def take {σ α : Type} (put : σ → World) (t : Turn σ α) : Turn World α :=
  ⟨t.value, t.effects.foldl absorb (put t.state), t.effects⟩

/-- A call of the router. -/
def callRouter (w : World) (call : RouterCall) : Turn World Answer :=
  take (fun r => { w with router := r }) (w.router.perform w.around call)

/-- A call of the catalog. -/
def callCatalog (w : World) (call : CatalogCall) : Turn World Answer :=
  take (fun c => { w with router := { w.router with catalog := c } })
    (w.router.catalog.perform call)

/-- A call of the host. -/
def callHost (w : World) (call : HostCall) : Turn World Answer :=
  take (fun h => { w with host := h }) (w.host.perform call)

/-- Submits a request under the next name. When requests are created is not
shown by any session, so all are created at the same time. -/
def submit (w : World) (s : Router.Submission) : Turn World Answer :=
  let t := w.callRouter (.submit (.ofNat w.admitted) .epoch s)
  match t.value with
  | .request (some _) => { t with state := { t.state with admitted := t.state.admitted + 1 } }
  | _ => t

/-- Attaches a new listener, which gets the next number. -/
def attach (w : World) : Turn World Answer :=
  { w with listeners := w.listeners ++ [true] }.callRouter (.attach w.listeners.length)

/-- Handles the next posted event and says which it was. -/
def step (w : World) : Turn World (Option ScheduledEvent) :=
  match w.inbox with
  | some (event :: rest) =>
    ({ w with inbox := some rest }.callRouter (.handle event)).map fun _ => some event
  | _ => .quiet none w

/-- Handles posted events until none is left, but not more than so many. -/
def pumpAtMost : Nat → World → Turn World (List ScheduledEvent)
  | 0, w => .quiet [] w
  | more + 1, w =>
    let t := w.step
    match t.value with
    | none => .quiet [] w
    | some event => ((pumpAtMost more t.state).map (event :: ·)).after t.effects

/-- The work that a posted event can cause: an event that reports the end of a
wait handles itself, lets a request join the main lane and asks for a step. -/
def workOf : ScheduledEvent → Nat
  | .process => 1
  | .timeout .. => 3

/-- A bound for the number of events that are handled until none is left. -/
def workload (w : World) : Nat :=
  (w.inbox.getD []).foldr (fun event n => workOf event + n) w.router.lanes.main.length

/-- Handles posted events until none is left. -/
def pump (w : World) : Turn World (List ScheduledEvent) := pumpAtMost w.workload w

/-- Lets time pass. Timers that have run out then post their events, ordered by
when they were due and then by when they were armed. -/
def advance (w : World) (millis : Nat) : World :=
  let now := w.now + millis
  let (due, later) := w.timers.partition fun t => t.due ≤ now
  let events := (due.mergeSort fun s t => s.due ≤ t.due).map Timer.event
  { w with now := now, timers := later, inbox := w.inbox.map (· ++ events) }

/-- What has become of the listeners. -/
def listenerStatuses (w : World) : List ListenerStatus :=
  w.listeners.zipIdx.map fun (listens, n) =>
    if ¬ listens then .dropped else if w.router.listener = some n then .active else .closed

/-- The names of intents, as answered by the filters. -/
def namesOf (intents : List Intent) : Answer := .names (intents.map Intent.name)

/-- The intents given, or those registered. -/
def given (w : World) (intents : Option (List Intent)) : List Intent :=
  intents.getD w.router.catalog.intents

/-- Receives events for a subscriber. -/
def receive (w : World) (subscriber : Nat) (limit : Option Nat) : Turn World Answer :=
  match w.subscribers[subscriber]? with
  | none => .quiet (.received none) w
  | some next =>
    let (rs, next) := match limit with
      | some times => w.bus.receiveMany times next
      | none => w.bus.receiveAll next
    .quiet (.received (some rs)) { w with subscribers := w.subscribers.set subscriber next }

mutual

/-- Carries out an operation. -/
def perform : Op → World → Turn World Answer
  | .host call, w => w.callHost call
  | .catalog call, w => w.callCatalog call
  | .withId intents intentId parameters, w =>
    .quiet (namesOf (Catalog.withId (w.given intents) intentId parameters)) w
  | .ownedBy intents owner parameters, w =>
    .quiet (namesOf (Catalog.ownedBy (w.given intents) owner parameters)) w
  | .usableBy intents requester, w =>
    let screening := w.host.screen requester (w.given intents)
    ⟨namesOf screening.visible, w, screening.report.map .note⟩
  | .subscribe, w =>
    .quiet (.count w.subscribers.length)
      { w with subscribers := w.subscribers ++ [w.bus.subscribe] }
  | .receive subscriber limit, w => w.receive subscriber limit
  | .submit submission, w => w.submit submission
  | .attach, w => w.attach
  | .hasListener, w => w.callRouter .hasListener
  | .dropListener listener, w => .quiet .nothing { w with listeners := w.listeners.set listener false }
  | .listeners, w => .quiet (.listeners w.listenerStatuses) w
  | .resolve ref selected, w => w.callRouter (.resolve (w.idOf ref) selected)
  | .reject ref, w => w.callRouter (.reject (w.idOf ref))
  | .reply application ref isError payload, w =>
    w.callRouter (.reply application (w.idOf ref) isError payload)
  | .setTimeout stage duration, w => w.callRouter (.setTimeout stage duration)
  | .announceStart application, w => w.callRouter (.announceStart application)
  | .settings, w => w.callRouter .settings
  | .counters, w => w.callRouter .counters
  | .request ref, w => w.callRouter (.request (w.idOf ref))
  | .timeOut stage ref millis, w => w.callRouter (.handle (.timeout stage (w.idOf ref) millis))
  | .process, w => w.callRouter .process
  | .step, w => w.step.map .event
  | .pump, w => w.pump.map .events
  | .advance millis, w => .quiet .nothing (w.advance millis)
  | .closeInbox, w => .quiet .nothing { w with inbox := none }
  | .again times ops, w => .quiet .nothing (times.repeat (performAll ops) w)

/-- Carries out operations one after another and keeps the world only. -/
def performAll : List Op → World → World
  | [], w => w
  | op :: ops, w => performAll ops (perform op w).state

end

end World

end IntentRouter
