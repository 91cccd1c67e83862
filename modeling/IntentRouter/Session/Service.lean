import IntentRouter.Session.Message

/-!
# A router that runs by itself

A service owns a router and is called through handles, which all send to one
mailbox. Messages wait there and posted events in the inbox; the service takes
one thing at a time, from either, each in order. The answer to a message goes to
whoever has sent it. The service ends with its last handle, or when whatever
runs it is shut down; from then on its calls are refused. The bus of its catalog
stays open while a handle exists.

A session works after every operation until nothing is left to do, the calls
first.
-/

namespace IntentRouter

/-- A message on its way. -/
structure Letter where
  /-- The number under which it was sent, and under which its sender waits for the answer. -/
  number : Nat
  /-- What is asked. -/
  message : Message

/-- A router that runs by itself. -/
structure Service where
  /-- The router and the world around it. -/
  world : World
  /-- The messages that have been sent and not yet carried out, in order. -/
  mailbox : List Letter
  /-- How many messages have been sent. -/
  sent : Nat
  /-- The answers that have been given, each with the number of its message, in order. -/
  answers : List (Nat × Answer)
  /-- It is still working. -/
  running : Bool
  /-- How many handles exist. -/
  handles : Nat

/-- Where a service takes the next thing to do from. -/
inductive Source where
  /-- The calls. -/
  | mailbox
  /-- The posted events. -/
  | inbox
deriving DecidableEq, Repr

/-- What a session can ask of a service and its surroundings. -/
inductive ServiceOp where
  /-- Something that happens around the service, without a handle. -/
  | outside (op : Op)
  /-- A call that waits for the answer. -/
  | call (op : Op)
  /-- A call that does not wait and is only acknowledged. -/
  | tell (op : Op)
  /-- Subscribe to the events of the catalog. -/
  | subscribe
  /-- Whether the service has ended. -/
  | isClosed
  /-- One more handle. -/
  | clone
  /-- One handle less, if there is one. -/
  | drop
  /-- End the service, whatever handles exist. -/
  | shutDown

namespace Service

/-- A service with one handle that has just begun to work. -/
def start (w : World) : Service := ⟨w, [], 0, [], true, 1⟩

/-- A service with one handle and the given settings. -/
def create (settings : Settings) (timers : Bool) : Except Refusal Service :=
  (World.create settings timers).map start

/-- The service with another world. -/
def withWorld (s : Service) (w : World) : Service := { s with world := w }

/-- Sends a message under the next number. -/
def send (s : Service) (m : Message) : Service :=
  { s with mailbox := s.mailbox ++ [⟨s.sent, m⟩], sent := s.sent + 1 }

/-- Makes a call, if it can be made through a handle. -/
def call (s : Service) (op : Op) : Service := (Message.ofOp? op).elim s s.send

/-- Takes the next thing to do from a source, if there is one, and does it. -/
def serve (s : Service) : Source → Turn Service Unit
  | .mailbox =>
    match s.mailbox with
    | [] => .quiet () s
    | letter :: rest =>
      let t := s.world.carryOut letter.message
      ⟨(), { s with
        world := t.state
        mailbox := rest
        answers := s.answers ++ t.value.toList.map fun a => (letter.number, a) }, t.effects⟩
  | .inbox => (s.world.step.lift s.withWorld).map fun _ => ()

/-- Carries out so many messages. -/
def serveMailbox : Nat → Service → Turn Service Unit
  | 0, s => .quiet () s
  | more + 1, s =>
    let t := s.serve .mailbox
    (serveMailbox more t.state).after t.effects

/-- Handles posted events until none is left. -/
def settle (s : Service) : Turn Service Unit :=
  (s.world.pump.lift s.withWorld).map fun _ => ()

/-- What the sender of a message is told in the end. -/
def answerTo (s : Service) (number : Nat) : Answer :=
  (s.answers.lookup number).getD (.refused .stopped)

/-- Makes a call and works until nothing is left to do, the messages first. Answers what the
sender is told. -/
def work (s : Service) (op : Op) : Turn Service Answer :=
  let number := s.sent
  let s := s.call (op.numbered s.world)
  let t := serveMailbox s.mailbox.length s
  let u := t.state.settle
  ⟨u.state.answerTo number, u.state, t.effects ++ u.effects⟩

/-- Lets something happen around the service, which then works until nothing is left to do. -/
def witness (s : Service) (op : Op) : Turn Service Answer :=
  let t := (World.perform op s.world).lift s.withWorld
  (t.state.settle.map fun _ => t.value).after t.effects

/-- The service ends: nobody is asked any more, and calls, posted events and timers are gone. -/
def halt (s : Service) : Service :=
  { s with
    running := false
    mailbox := []
    world := { s.world with
      router := { s.world.router with listener := none }
      inbox := none
      timers := [] } }

/-- Something that needs a handle. -/
def withHandle (s : Service) (use : Turn Service Answer) : Turn Service Answer :=
  if s.handles = 0 then .quiet .noHandle s else use

/-- Something that needs a handle and a working service. -/
def whileRunning (s : Service) (use : Turn Service Answer) : Turn Service Answer :=
  s.withHandle (if s.running then use else .quiet (.refused .stopped) s)

/-- Drops a handle, if there is one. With the last one the service ends and its bus closes. -/
def dropHandle (s : Service) : Service :=
  let s := { s with handles := s.handles - 1 }
  if s.handles = 0 then
    let s := s.halt
    s.withWorld { s.world with bus := s.world.bus.close }
  else s

/-- Carries out an operation. Dropping a handle answers how many are left, which is
none when there was none to drop. -/
def perform (s : Service) : ServiceOp → Turn Service Answer
  | .outside op => s.witness op
  | .call op => s.whileRunning (s.work op)
  | .tell op => s.whileRunning ((s.work op).map fun _ => .done)
  | .subscribe => s.withHandle (s.witness .subscribe)
  | .isClosed => s.withHandle (.quiet (.flag (! s.running)) s)
  | .clone =>
    s.withHandle (.quiet (.count (s.handles + 1)) { s with handles := s.handles + 1 })
  | .drop => .quiet (.count (s.handles - 1)) s.dropHandle
  | .shutDown => .quiet .nothing s.halt

end Service

end IntentRouter
