import IntentRouter.Effect

/-!
# The bus of catalog events

Subscribers read the events published since they subscribed, each at its own
pace. The bus keeps the newest events only; a subscriber whose next event has
been dropped is told once how many it missed and goes on with the oldest event
that is kept.
-/

namespace IntentRouter

/-- The events that have been published. -/
structure Bus where
  /-- How many events have been published. -/
  published : Nat
  /-- The newest of them, the oldest in front. -/
  kept : List CatalogEvent
  /-- More events may be published. -/
  isOpen : Bool

/-- What a subscriber receives. -/
inductive Received where
  /-- The next event. -/
  | event (e : CatalogEvent)
  /-- So many events have been missed. -/
  | lagged (missed : Nat)
  /-- There is nothing to read now. -/
  | empty
  /-- There is nothing to read, and never will be. -/
  | closed

namespace Bus

/-- How many events are kept. -/
def capacity : Nat := 64

/-- A bus on which nothing has been published. -/
def fresh : Bus := ⟨0, [], true⟩

/-- Publishes an event. -/
def publish (b : Bus) (e : CatalogEvent) : Bus :=
  let kept := b.kept ++ [e]
  { b with published := b.published + 1, kept := kept.drop (kept.length - capacity) }

/-- Nothing will be published any more. -/
def close (b : Bus) : Bus := { b with isOpen := false }

/-- The number of the oldest event that is kept, counted from zero. -/
def oldest (b : Bus) : Nat := b.published - b.kept.length

/-- Where a subscriber starts that subscribes now. -/
def subscribe (b : Bus) : Nat := b.published

/-- What the subscriber whose next event has the number `next` receives, and the
number of the one after. -/
def receive (b : Bus) (next : Nat) : Received × Nat :=
  if next < b.oldest then (.lagged (b.oldest - next), b.oldest)
  else match b.kept[next - b.oldest]? with
    | some e => (.event e, next + 1)
    | none => (if b.isOpen then .empty else .closed, next)

/-- Receives up to so many times, stopping where there is nothing to read. -/
def receiveMany (b : Bus) : Nat → Nat → List Received × Nat
  | 0, next => ([], next)
  | times + 1, next =>
    match b.receive next with
    | (.empty, next) => ([.empty], next)
    | (.closed, next) => ([.closed], next)
    | (r, next) =>
      let (rest, next) := b.receiveMany times next
      (r :: rest, next)

/-- Receives until there is nothing to read: at most one notice of missed events,
the events that are kept, and the end. -/
def receiveAll (b : Bus) (next : Nat) : List Received × Nat :=
  b.receiveMany (b.kept.length + 2) next

end Bus

end IntentRouter
