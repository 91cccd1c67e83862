import IntentRouter.Proofs.Lifecycle
import IntentRouter.Router.Step

/-!
# What goes out

Of the effects of an operation four kinds concern a run as a whole: what goes out
to a listener or to an application, the timers that are armed, the events that
are posted and the requests that are returned. The reports on the way are left
out, but for those that a request has been taken back to its requester: one that
cannot be reached is an output that was dropped.
-/

namespace IntentRouter

/-- What goes out on behalf of a request. -/
inductive Output where
  /-- A listener is asked to choose. -/
  | asked (listener : Nat) (offer : Offer)
  /-- An application is started. -/
  | started (application : String)
  /-- A request is sent to its handler. -/
  | sent (channel : Connection) (request : Request)
  /-- A settled request is sent back to its requester. -/
  | returned (channel : Connection) (request : Request)
  /-- A settled request is not sent back, because its requester has no channel. -/
  | dropped (requester : String)

namespace Output

/-- The place of an output among those of its request. Nothing comes after the last place,
which is that of a reply, sent or dropped. -/
def rank : Output → Nat
  | .asked .. => 1
  | .started _ => 3
  | .sent .. => 5
  | .returned .. => 6
  | .dropped _ => 6

/-- What an output says about the record with which its request enters a state, and about
the host at that moment. -/
def Marks (around : Surroundings) (q : Request) : Output → Prop
  | .asked listener offer =>
    q.state = .awaitingChoice ∧ around.listens listener = true ∧ offer = .ofRequest q
  | .started application =>
    q.state = .awaitingStart ∧ q.handler = some application ∧
      around.host.isRunning application = false
  | .sent channel request =>
    q.state = .awaitingReply ∧ request = q ∧
      ∃ handler, q.handler = some handler ∧ around.host.connection? handler = some channel
  | .returned channel request =>
    q.state = .settled ∧ request = q ∧ around.host.connection? q.requester = some channel
  | .dropped requester =>
    q.state = .settled ∧ requester = q.requester ∧
      around.host.connection? q.requester = none

variable {around : Surroundings} {q : Request} {o : Output}

/-- The place of an output is that of the state its request enters. -/
theorem Marks.rank_eq (h : o.Marks around q) : o.rank = (Phase.inFlight q.state).rank := by
  cases o <;> rw [h.1] <;> rfl

/-- The command, if the output is one. -/
def command? : Output → Option Command
  | .started application => some (.start application)
  | .sent channel request => some (.deliverRequest channel request)
  | .returned channel request => some (.deliverReply channel request)
  | .asked .. | .dropped _ => none

end Output

/-- The request a report is about, if it is about one. -/
def Entry.subject? : Entry → Option RequestId
  | .request id _ => some id
  | _ => none

namespace Effect

/-- What goes out, if the effect is an output. -/
def output? : Effect → Option Output
  | .offer listener o => some (.asked listener o)
  | .command (.start application) => some (.started application)
  | .command (.deliverRequest channel request) => some (.sent channel request)
  | .command (.deliverReply channel request) => some (.returned channel request)
  | .note (.request _ (.requesterUnreachable requester)) => some (.dropped requester)
  | _ => none

/-- The event that a timer will post, if the effect arms one. -/
def armed? : Effect → Option ScheduledEvent
  | .arm stage id millis => some (.timeout stage id millis)
  | _ => none

/-- The event, if the effect posts one. -/
def posted? : Effect → Option ScheduledEvent
  | .post e => some e
  | _ => none

/-- The request that is taken back to its requester, if the effect reports that. -/
def ended? : Effect → Option RequestId
  | .note (.request id (.returning _)) => some id
  | .note (.request id (.requesterUnreachable _)) => some id
  | _ => none

/-- What goes out, in order. -/
def outputs (es : List Effect) : List Output := es.filterMap output?

/-- The events of the timers that are armed, in order. -/
def armed (es : List Effect) : List ScheduledEvent := es.filterMap armed?

/-- The events that are posted, in order. -/
def posted (es : List Effect) : List ScheduledEvent := es.filterMap posted?

/-- The requests that are taken back to their requesters, in order. -/
def ended (es : List Effect) : List RequestId := es.filterMap ended?

@[simp]
theorem outputs_append (es fs : List Effect) : outputs (es ++ fs) = outputs es ++ outputs fs :=
  List.filterMap_append

@[simp]
theorem armed_append (es fs : List Effect) : armed (es ++ fs) = armed es ++ armed fs :=
  List.filterMap_append

@[simp]
theorem posted_append (es fs : List Effect) : posted (es ++ fs) = posted es ++ posted fs :=
  List.filterMap_append

@[simp]
theorem ended_append (es fs : List Effect) : ended (es ++ fs) = ended es ++ ended fs :=
  List.filterMap_append

/-- The commands, in order. -/
def commands (es : List Effect) : List Command := es.filterMap command?

/-- The commands are among what goes out. -/
theorem commands_eq (es : List Effect) : commands es = (outputs es).filterMap Output.command? := by
  rw [commands, outputs, List.filterMap_filterMap]
  refine congrArg (fun f => es.filterMap f) (funext fun e => ?_)
  cases e with
  | command c => cases c <;> rfl
  | note entry =>
    cases entry with
    | request id note => cases note <;> rfl
    | _ => rfl
  | _ => rfl

/-- What a list of effects amounts to for a run as a whole. -/
structure Shows (es : List Effect) (outs : List Output) (arms posts : List ScheduledEvent)
    (ends : List RequestId) : Prop where
  /-- What goes out. -/
  outputs : outputs es = outs
  /-- The timers that are armed. -/
  armed : armed es = arms
  /-- The events that are posted. -/
  posted : posted es = posts
  /-- The requests that are taken back. -/
  ended : ended es = ends

/-- Effects that are reports only, none of which takes a request back. -/
abbrev Silent (es : List Effect) : Prop := Shows es [] [] [] []

theorem Silent.nil : Silent [] := ⟨rfl, rfl, rfl, rfl⟩

variable {es fs : List Effect} {outs outs' : List Output}
  {arms arms' posts posts' : List ScheduledEvent} {ends ends' : List RequestId}

theorem Shows.append (h : Shows es outs arms posts ends) (k : Shows fs outs' arms' posts' ends') :
    Shows (es ++ fs) (outs ++ outs') (arms ++ arms') (posts ++ posts') (ends ++ ends') := by
  constructor
  · rw [outputs_append, h.outputs, k.outputs]
  · rw [armed_append, h.armed, k.armed]
  · rw [posted_append, h.posted, k.posted]
  · rw [ended_append, h.ended, k.ended]

/-- Reports made before change nothing. -/
theorem Shows.after_silent (k : Shows fs outs arms posts ends) (h : Silent es) :
    Shows (es ++ fs) outs arms posts ends := h.append k

/-- Reports made afterwards change nothing. -/
theorem Shows.before_silent (h : Shows es outs arms posts ends) (k : Silent fs) :
    Shows (es ++ fs) outs arms posts ends := by
  have hall := h.append k
  simpa only [List.append_nil] using hall

/-- Reports on no request are silent. -/
theorem silent_map_note {entries : List Entry} (h : ∀ e ∈ entries, e.subject? = none) :
    Silent (entries.map .note) := by
  induction entries with
  | nil => exact Silent.nil
  | cons e rest ih =>
    obtain ⟨he, hrest⟩ := List.forall_mem_cons.mp h
    have hhead : Silent [Effect.note e] := by
      cases e with
      | request id note => cases he
      | _ => exact ⟨rfl, rfl, rfl, rfl⟩
    exact hhead.append (ih hrest)

end Effect

/-- A command that is handed over is the one output, unless it is dropped. -/
theorem Host.issue_shows (h : Host) (command : Command) :
    ∃ outs, outs.length ≤ 1 ∧ (∀ o ∈ outs, (Effect.command command).output? = some o) ∧
      Effect.Shows [h.issue command] outs [] [] [] := by
  unfold Host.issue
  by_cases hatt : h.attended = true
  · rw [if_pos hatt]
    cases command with
    | start application =>
      refine ⟨[.started application], Nat.le_refl 1, ?_, rfl, rfl, rfl, rfl⟩
      exact List.forall_mem_singleton.mpr rfl
    | deliverRequest channel request =>
      refine ⟨[.sent channel request], Nat.le_refl 1, ?_, rfl, rfl, rfl, rfl⟩
      exact List.forall_mem_singleton.mpr rfl
    | deliverReply channel request =>
      refine ⟨[.returned channel request], Nat.le_refl 1, ?_, rfl, rfl, rfl, rfl⟩
      exact List.forall_mem_singleton.mpr rfl
  · rw [if_neg hatt]
    exact ⟨[], Nat.zero_le 1, List.forall_mem_nil _, rfl, rfl, rfl, rfl⟩

/-- The events that a router posts when it asks for a step. -/
def Surroundings.wakes (around : Surroundings) : List ScheduledEvent :=
  if around.inboxOpen then [.process] else []

/-- Asking for a step posts an event where events are taken, and does nothing else. -/
theorem Router.wake_shows (around : Surroundings) :
    Effect.Shows [Router.wake around] [] [] around.wakes [] := by
  unfold Router.wake Surroundings.wakes
  by_cases h : around.inboxOpen = true
  · rw [if_pos h, if_pos h]
    exact ⟨rfl, rfl, rfl, rfl⟩
  · rw [if_neg h, if_neg h]
    exact ⟨rfl, rfl, rfl, rfl⟩

/-- Effects that post nothing, followed by a request for a step. -/
theorem Effect.Shows.before_wake {es : List Effect} {outs : List Output}
    {arms : List ScheduledEvent} {ends : List RequestId} (h : Effect.Shows es outs arms [] ends)
    (around : Surroundings) :
    Effect.Shows (es ++ [Router.wake around]) outs arms around.wakes ends := by
  have hall := h.append (Router.wake_shows around)
  simpa only [List.append_nil, List.nil_append] using hall

end IntentRouter
