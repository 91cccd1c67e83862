import IntentRouter.Proofs.Passage
import IntentRouter.Proofs.Wait

/-!
# What an operation does to the requests in flight

An operation does one of six things to the requests in flight: nothing, admit one,
end the wait of one, end the wait of all whose handler has started, take one
through a step to its next wait, or take one through a step to its end. Everything
about runs is proved by these six cases, without a look at the operations.
-/

namespace IntentRouter

open Effect

/-- A request of which an application is the handler, once that application has started. -/
def Request.releasedBy (application : String) (q : Request) : Request :=
  if q.state = .awaitingStart ∧ q.handler = some application then q.moveTo .started else q

/-- What becomes of the requests in flight by an operation with the given effects. The
operation is a step with the request `taken`, if there is one, and admits `admitted`. -/
inductive Change (around : Surroundings) (before : List Request) :
    (after : List Request) → (effects : List Effect) → (taken : Option RequestId) →
      (admitted : Option Request) → Prop where
  /-- Nothing becomes of them. -/
  | still {effects : List Effect} (shows : Silent effects) :
    Change around before before effects none none
  /-- A request is admitted. -/
  | admitted {effects : List Effect} (q : Request) (state : q.state = .received)
    (sound : q.Sound) (shows : Shows effects [] [] around.wakes []) :
    Change around before (before ++ [q]) effects none (some q)
  /-- The wait of a request ends. -/
  | resumed {effects : List Effect} (p q : Request) (known : p ∈ before)
    (waits : p.state.stage?.isSome = true) (becomes : p.Becomes q) (sound : q.Sound)
    (ready : q.state.lane = .main) (shows : Shows effects [] [] around.wakes []) :
    Change around before (q.replaceIn before) effects none none
  /-- The wait of all requests ends whose handler has started. -/
  | released {effects : List Effect} (application : String)
    (waits : ∃ q ∈ before, q.state = .awaitingStart ∧ q.handler = some application)
    (shows : Shows effects [] [] around.wakes []) :
    Change around before (before.map (Request.releasedBy application)) effects none none
  /-- A step takes a request to its next wait. -/
  | parked {effects : List Effect} (p q : Request) (stage : Stage) (millis : Nat)
    (outs : List Output) (known : p ∈ before) (ready : p.state.lane = .main)
    (becomes : p.Becomes q) (sound : q.Sound) (waits : q.state.stage? = some stage)
    (single : outs.length ≤ 1) (marks : ∀ o ∈ outs, o.Marks around q)
    (shows : Shows effects outs [.timeout stage p.id millis] around.wakes []) :
    Change around before (q.replaceIn before) effects (some p.id) none
  /-- A step takes a request to its end. -/
  | delivered {effects : List Effect} (p q : Request) (outs : List Output) (known : p ∈ before)
    (ready : p.state.lane = .main) (becomes : p.Becomes q) (sound : q.Sound)
    (settled : q.state = .settled) (single : outs.length ≤ 1)
    (marks : ∀ o ∈ outs, o.Marks around q) (shows : Shows effects outs [] around.wakes [p.id]) :
    Change around before (before.filter fun r => r.id ≠ p.id) effects (some p.id) none

/-- An operation that leaves the requests in flight coupled with the lanes and does one of
the six things to them. -/
def Router.Changes (r : Router) (around : Surroundings) (after : Router) (effects : List Effect)
    (taken : Option RequestId) (admitted : Option Request) : Prop :=
  Coupled after.requests after.lanes ∧
    Change around r.requests after.requests effects taken admitted

namespace Router

variable {r : Router} {around : Surroundings} {p q : Request} {id : RequestId} {stage : Stage}
  {call : RouterCall}

/-- Nothing changes by an operation that only reports. -/
theorem changes_still (h : Coupled r.requests r.lanes) {effects : List Effect}
    (hs : Silent effects) : r.Changes around r effects none none :=
  ⟨h, .still hs⟩

/-- A request that waits is resumed with a later record. -/
theorem changes_resumed (h : Coupled r.requests r.lanes) (hp : p ∈ r.requests)
    (hw : p.state.stage?.isSome = true) (hb : p.Becomes q) (hq : q.Sound)
    (hlane : q.state.lane = .main) {effects : List Effect}
    (hs : Shows effects [] [] around.wakes []) :
    r.Changes around (r.resume p q) effects none none := by
  have hcoupled := h.transfer hp hb.alike.id hq
  rw [hlane] at hcoupled
  exact ⟨hcoupled, .resumed p q hp hw hb hq hlane hs⟩

/-- A report ends the wait of its request, or comes too late. -/
theorem changes_report (h : Coupled r.requests r.lanes)
    (hcall : call.wait? = some (stage, id)) :
    r.Changes around (r.perform around call).state (r.perform around call).effects none none := by
  by_cases hw : r.Waits stage id
  · obtain ⟨p, hp, rfl, hstage⟩ := hw
    obtain ⟨es, hshows, hperform⟩ := perform_of_waits around h hp hstage hcall
    obtain ⟨hbecomes, hsound, hready⟩ := Request.resumedBy_spec (h.sound p hp) hstage hcall
    rw [hperform]
    exact changes_resumed h hp (by rw [hstage]; rfl) hbecomes hsound hready hshows
  · obtain ⟨note, hsilent, hperform⟩ := perform_of_not_waits around h hw hcall
    rw [hperform]
    exact changes_still h hsilent

/-- A timer ends the wait of a request, or comes too late. -/
theorem changes_timeOut (h : Coupled r.requests r.lanes) (stage : Stage) (id : RequestId)
    (millis : Nat) :
    r.Changes around (r.timeOut around stage id millis).state
      (r.timeOut around stage id millis).effects none none := by
  have hcall : (RouterCall.handle (.timeout stage id millis)).wait? = some (stage, id) := rfl
  exact changes_report h hcall

end Router

end IntentRouter
