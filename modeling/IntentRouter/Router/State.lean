import IntentRouter.Settings
import IntentRouter.Lanes
import IntentRouter.Counters
import IntentRouter.Catalog
import IntentRouter.Screening

/-!
# The router's state

The router holds the catalog, the requests in flight and the lanes they stand
in. It never waits and never calls itself: what it leaves for later it posts as
an event, and whoever runs it hands every posted event back to it.
-/

namespace IntentRouter

/-- What a router sees of the world around it during one operation. -/
structure Surroundings where
  /-- The host. -/
  host : Host
  /-- Posted events are taken. -/
  inboxOpen : Bool
  /-- Whether the listener with a number still listens. -/
  listens : Nat → Bool

/-- The names of requests that have ended, kept to tell late replies from stray ones. -/
structure History where
  /-- The names, the one that ended first in front. -/
  ended : List RequestId
  /-- The same names as a set, in which they are looked up. -/
  known : List RequestId
deriving DecidableEq

namespace History

/-- How many names are kept. -/
def capacity : Nat := 512

/-- Nothing has ended. -/
def empty : History := ⟨[], []⟩

/-- Whether the request is remembered. -/
def contains (h : History) (id : RequestId) : Bool := h.known.contains id

/-- Adds a name as the last one, unless it is there already. -/
def add (h : History) (id : RequestId) : History :=
  if h.contains id then h else ⟨h.ended ++ [id], id :: h.known⟩

/-- Forgets the first name as long as there are more than are kept. -/
def trim (known : List RequestId) : List RequestId → History
  | [] => ⟨[], known⟩
  | oldest :: rest =>
    if capacity < rest.length + 1 then trim (known.erase oldest) rest
    else ⟨oldest :: rest, known⟩

/-- Remembers a request that has ended, and forgets the oldest beyond the capacity. -/
def record (h : History) (id : RequestId) : History := trim (h.add id).known (h.add id).ended

end History

/-- A router. -/
structure Router where
  /-- What has been registered. -/
  catalog : Catalog
  /-- How long requests may wait. -/
  settings : Settings
  /-- The requests in flight. -/
  requests : List Request
  /-- Where they stand. -/
  lanes : Lanes RequestId
  /-- The number of the listener that is asked to choose handlers, if any. -/
  listener : Option Nat
  /-- The requests that ended last. -/
  history : History
  /-- What has become of requests. -/
  counters : Counters

namespace Router

/-- A router that has seen nothing. -/
def fresh (settings : Settings) : Router :=
  ⟨.empty, settings, [], .empty, none, .empty, .zero⟩

/-- A new router with settings that have been checked. -/
def create (settings : Settings) : Except Refusal Router := settings.check.map fresh

/-- The request in flight with the given name. -/
def request? (r : Router) (id : RequestId) : Option Request :=
  r.requests.find? fun q => q.id = id

/-- How many requests are in flight. -/
def pending (r : Router) : Nat := r.requests.length

/-- Puts a request in the place of the one with its name. -/
def update (r : Router) (q : Request) : Router :=
  { r with requests := r.requests.map fun p => if p.id = q.id then q else p }

/-- Drops the request with the given name. -/
def discard (r : Router) (id : RequestId) : Router :=
  { r with requests := r.requests.filter fun p => p.id ≠ id }

/-- Attaches a listener in place of any other. -/
def attach (r : Router) (listener : Nat) : Router := { r with listener := some listener }

/-- The attached listener, if it still listens. -/
def liveListener? (r : Router) (around : Surroundings) : Option Nat :=
  r.listener.filter around.listens

/-- Changes how long requests may wait in a stage from now on. -/
def setTimeout (r : Router) (stage : Stage) (d : Duration) : Except Refusal Router :=
  (r.settings.setTimeout stage d).map fun settings => { r with settings := settings }

/-- Asks for one more step. -/
def wake (around : Surroundings) : Effect :=
  if around.inboxOpen then .post .process else .note .schedulerClosed

/-- Lets a request join the main lane and asks for a step. -/
def joinMain (r : Router) (around : Surroundings) (id : RequestId) : Turn Router Unit :=
  let report := match r.request? id with
    | some q => [Effect.about id (.joining q.state)]
    | none => []
  match r.lanes.join? .main id with
  | some lanes => ⟨(), { r with lanes := lanes }, report ++ [wake around]⟩
  | none => ⟨(), r, report ++ [Effect.about id .alreadyQueued, wake around]⟩

/-- Settles a request in flight as a failure and lets it join the main lane. -/
def abandon (r : Router) (around : Surroundings) (id : RequestId) (message : String) :
    Turn Router Unit :=
  match r.request? id with
  | some q => (r.update (q.fail message)).joinMain around id
  | none => .quiet () r

end Router

end IntentRouter
