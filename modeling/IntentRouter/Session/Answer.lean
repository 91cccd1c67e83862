import IntentRouter.Bus
import IntentRouter.Settings
import IntentRouter.Counters

/-!
# Answers

What the operations of a session answer.
-/

namespace IntentRouter

/-- What has become of a listener. -/
inductive ListenerStatus where
  /-- It has stopped listening. -/
  | dropped
  /-- It listens, but will not be asked any more. -/
  | closed
  /-- It listens and may be asked. -/
  | active
deriving DecidableEq, Repr

/-- The answer of an operation. -/
inductive Answer where
  /-- Nothing to say. -/
  | nothing
  /-- It has been done. -/
  | done
  /-- Yes or no. -/
  | flag (b : Bool)
  /-- A number. -/
  | count (n : Nat)
  /-- A list of names. -/
  | names (ns : List String)
  /-- An intent, or none. -/
  | intent (i : Option Intent)
  /-- A list of intents. -/
  | intents (is : List Intent)
  /-- A request, or none. -/
  | request (q : Option Request)
  /-- A channel, or none. -/
  | channel (c : Option Connection)
  /-- What has become of all listeners. -/
  | listeners (ls : List ListenerStatus)
  /-- What a subscriber has received; `none` when there is no such subscriber. -/
  | received (rs : Option (List Received))
  /-- The event that has been handled, or none. -/
  | event (e : Option ScheduledEvent)
  /-- The events that have been handled. -/
  | events (es : List ScheduledEvent)
  /-- The settings. -/
  | settings (c : Settings)
  /-- The counters. -/
  | counters (m : Counters)
  /-- The operation was refused. -/
  | refused (reason : Refusal)
  /-- There is no handle to call through. -/
  | noHandle

namespace Answer

/-- The answer of an operation that is refused or gives a value. -/
def ofExcept {α : Type} (f : α → Answer) : Except Refusal α → Answer
  | .ok a => f a
  | .error reason => .refused reason

end Answer

end IntentRouter
