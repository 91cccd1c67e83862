import IntentRouter.Proofs.Subscription
import IntentRouter.Proofs.Wake

/-!
# Sessions

Whatever is asked of a world comes down to elementary operations: neither a number of others nor the
handling of a number of events. Each of them is one move of the router, or none. It may let time
pass, or stop that events are taken; otherwise the events that the router posts come to the inbox
and its timers begin to run. So in a session, elementary operations one after another on a new
world, the router makes a run.
-/

namespace IntentRouter

open Effect

/-! ## Elementary operations -/

/-- Whether an operation is neither a number of others nor the handling of a number of events. -/
def Op.isElementary : Op → Bool
  | .again .. | .pump => false
  | _ => true

/-- The move that the router makes in an operation: it may only be asked for its counters where the
operation asks nothing of it. -/
def Op.move (w : World) : Op → Move
  | .catalog call => ⟨w.around, .catalog call⟩
  | .submit s => ⟨w.around, .router (.submit (.ofNat w.admitted) .epoch s)⟩
  | .attach =>
    ⟨({ w with listeners := w.listeners ++ [true] } : World).around,
      .router (.attach w.listeners.length)⟩
  | .hasListener => ⟨w.around, .router .hasListener⟩
  | .resolve ref selected => ⟨w.around, .router (.resolve (w.idOf ref) selected)⟩
  | .reject ref => ⟨w.around, .router (.reject (w.idOf ref))⟩
  | .reply application ref isError payload =>
    ⟨w.around, .router (.reply application (w.idOf ref) isError payload)⟩
  | .setTimeout stage duration => ⟨w.around, .router (.setTimeout stage duration)⟩
  | .announceStart application => ⟨w.around, .router (.announceStart application)⟩
  | .settings => ⟨w.around, .router .settings⟩
  | .request ref => ⟨w.around, .router (.request (w.idOf ref))⟩
  | .timeOut stage ref millis =>
    ⟨w.around, .router (.handle (.timeout stage (w.idOf ref) millis))⟩
  | .process => ⟨w.around, .router .process⟩
  | .step =>
    match w.inbox with
    | some (event :: _) => ⟨w.around, .router (.handle event)⟩
    | _ => ⟨w.around, .router .counters⟩
  | _ => ⟨w.around, .router .counters⟩

/-- The posted events that are left when an operation has taken its own. -/
def Op.left : Op → List ScheduledEvent → List ScheduledEvent
  | .step, events => events.tail
  | _, events => events

/-- Whether an operation handles a posted event, if there is any. -/
def Op.handles : Op → Bool
  | .step => true
  | _ => false

/-- The posted event that an operation takes is the first one. -/
theorem Op.left_eq (op : Op) (events : List ScheduledEvent) :
    op.left events = if op.handles then events.tail else events := by
  cases op <;> rfl

theorem Op.eq_step {op : Op} (h : op.handles = true) : op = .step := by
  cases op with
  | step => rfl
  | _ => cases h

/-- The timer that reports the end of a wait which begins now. -/
def ScheduledEvent.timer (now : Nat) : ScheduledEvent → Timer
  | .process => ⟨now, .process⟩
  | .timeout stage id millis => ⟨now + millis, .timeout stage id millis⟩

/-- No call of the host arms a timer or posts an event. -/
theorem Host.performs_quietly (h : Host) (call : HostCall) :
    armed (h.perform call).effects = [] ∧ posted (h.perform call).effects = [] := by
  have hreports : ∀ entries : List Entry, armed (entries.map .note) = [] ∧
      posted (entries.map .note) = [] := by
    intro entries
    induction entries with
    | nil => exact ⟨rfl, rfl⟩
    | cons entry rest ih => exact ih
  have hlook : ∀ (changed : Host) (application : String),
      let t := (changed.look application).after (h.lookReport.map .note)
      armed t.effects = [] ∧ posted t.effects = [] := by
    intro changed application t
    have hboth : t.effects = (h.lookReport ++ changed.lookReport).map .note :=
      (List.map_append ..).symm
    rw [hboth]
    exact hreports _
  cases call with
  | grant application names => exact hlook (h.grant application names) application
  | grantBroken application names => exact hlook (h.grantBroken application names) application
  | revoke application => exact hlook (h.revoke application) application
  | capabilities application => exact hreports h.lookReport
  | start application =>
    obtain ⟨outs, -, -, hshows⟩ := h.issue_shows (.start application)
    exact ⟨hshows.armed, hshows.posted⟩
  | _ => exact ⟨rfl, rfl⟩

namespace World

variable {w w' : World}

/-- Effects arm timers, which run from now on. -/
theorem timers_absorb (es : List Effect) (w : World) :
    (es.foldl absorb w).timers = w.timers ++ (armed es).map (·.timer w.now) ∧
      (es.foldl absorb w).now = w.now := by
  induction es generalizing w with
  | nil => exact ⟨(List.append_nil _).symm, rfl⟩
  | cons effect es ih =>
    obtain ⟨htimers, hnow⟩ := ih (w.absorb effect)
    rw [List.foldl_cons, htimers, hnow]
    cases effect with
    | arm stage id millis => exact ⟨List.append_assoc .., rfl⟩
    | _ => exact ⟨rfl, rfl⟩

/-- Effects admit nothing. -/
theorem admitted_absorb (es : List Effect) (w : World) :
    (es.foldl absorb w).admitted = w.admitted := by
  induction es generalizing w with
  | nil => rfl
  | cons effect es ih =>
    rw [List.foldl_cons, ih]
    cases effect <;> rfl

/-- A world after a turn of its router, in which so many posted events have been left. -/
structure Turned (w : World) (left : List ScheduledEvent → List ScheduledEvent)
    (t : Turn Router Answer) (w' : World) : Prop where
  /-- The router has made its turn. -/
  router : w'.router = t.state
  /-- No time has passed. -/
  now : w'.now = w.now
  /-- The timers that the router has armed run. -/
  timers : w'.timers = w.timers ++ (armed t.effects).map (·.timer w.now)
  /-- The events that the router has posted come last. -/
  inbox : w'.inbox = w.inbox.map fun events => left events ++ posted t.effects

/-- The world is the same but for what the session does not look at. -/
theorem turned_quiet (hrouter : w'.router = w.router) (hnow : w'.now = w.now)
    (htimers : w'.timers = w.timers) (hinbox : w'.inbox = w.inbox) :
    w.Turned id (.quiet (.counters w.router.counters) w.router) w' where
  router := hrouter
  now := hnow
  timers := htimers.trans (List.append_nil _).symm
  inbox := by
    rw [hinbox]
    cases w.inbox with
    | none => rfl
    | some events => exact congrArg some (List.append_nil events).symm

theorem turned_callRouter (w : World) (call : RouterCall) :
    w.Turned id (w.router.perform w.around call) (w.callRouter call).state where
  router := router_absorb _ _
  now := (timers_absorb _ _).2
  timers := (timers_absorb _ _).1
  inbox := inbox_absorb _ _

theorem turned_callCatalog (w : World) (call : CatalogCall) :
    w.Turned id ((w.router.catalog.perform call).lift fun c => { w.router with catalog := c })
      (w.callCatalog call).state where
  router := router_absorb _ _
  now := (timers_absorb _ _).2
  timers := (timers_absorb _ _).1
  inbox := inbox_absorb _ _

theorem turned_callHost (w : World) (call : HostCall) :
    w.Turned id (.quiet (.counters w.router.counters) w.router) (w.callHost call).state := by
  obtain ⟨harmed, hposted⟩ := Host.performs_quietly w.host call
  obtain ⟨htimers, hnow⟩ := timers_absorb (w.host.perform call).effects
    { w with host := (w.host.perform call).state }
  have hinbox := inbox_absorb (w.host.perform call).effects
    { w with host := (w.host.perform call).state }
  rw [harmed, List.map_nil, List.append_nil] at htimers
  rw [hposted] at hinbox
  refine turned_quiet (router_absorb _ _) hnow htimers (hinbox.trans ?_)
  cases w.inbox with
  | none => rfl
  | some events => exact congrArg some (List.append_nil events)

theorem turned_submit (w : World) (s : Router.Submission) :
    w.Turned id (w.router.perform w.around (.submit (.ofNat w.admitted) .epoch s))
      (w.submit s).state := by
  have hcall := w.turned_callRouter (.submit (.ofNat w.admitted) .epoch s)
  unfold submit
  dsimp only
  split
  · exact ⟨hcall.router, hcall.now, hcall.timers, hcall.inbox⟩
  · exact hcall

theorem turned_step (w : World) :
    w.Turned Op.step.left ((Op.step.move w).turn w.router) w.step.state := by
  cases hinbox : w.inbox with
  | none =>
    rw [Op.move, hinbox, step, hinbox]
    exact ⟨rfl, rfl, (List.append_nil _).symm, hinbox.trans (by rw [hinbox]; rfl)⟩
  | some events =>
    cases events with
    | nil =>
      rw [Op.move, hinbox, step, hinbox]
      exact ⟨rfl, rfl, (List.append_nil _).symm, hinbox.trans (by rw [hinbox]; rfl)⟩
    | cons event rest =>
      have hcall := turned_callRouter { w with inbox := some rest } (.handle event)
      have haround : w.around = ({ w with inbox := some rest } : World).around := by
        rw [around, hinbox]
        rfl
      rw [Op.move, hinbox, step, hinbox, haround]
      exact ⟨hcall.router, hcall.now, hcall.timers, hcall.inbox.trans (by rw [hinbox]; rfl)⟩

theorem turned_receive (w : World) (subscriber : Nat) (limit : Option Nat) :
    w.Turned id (.quiet (.counters w.router.counters) w.router)
      (w.receive subscriber limit).state := by
  unfold receive
  split
  · exact turned_quiet rfl rfl rfl rfl
  · exact turned_quiet rfl rfl rfl rfl

/-- An elementary operation is a turn of the router, it lets time pass, or it stops that events are
taken. -/
theorem perform_elementary {op : Op} (h : op.isElementary = true) (w : World) :
    w.Turned op.left ((op.move w).turn w.router) (perform op w).state ∨
      (∃ millis, op = .advance millis) ∨ op = .closeInbox := by
  cases op with
  | host call => exact .inl (w.turned_callHost call)
  | catalog call => exact .inl (w.turned_callCatalog call)
  | submit s => exact .inl (w.turned_submit s)
  | attach =>
    have hcall := turned_callRouter { w with listeners := w.listeners ++ [true] }
      (.attach w.listeners.length)
    exact .inl ⟨hcall.router, hcall.now, hcall.timers, hcall.inbox⟩
  | step => exact .inl w.turned_step
  | advance millis => exact .inr (.inl ⟨millis, rfl⟩)
  | closeInbox => exact .inr (.inr rfl)
  | receive subscriber limit => exact .inl (w.turned_receive subscriber limit)
  | hasListener => exact .inl (w.turned_callRouter .hasListener)
  | resolve ref selected => exact .inl (w.turned_callRouter (.resolve (w.idOf ref) selected))
  | reject ref => exact .inl (w.turned_callRouter (.reject (w.idOf ref)))
  | reply application ref isError payload =>
    exact .inl (w.turned_callRouter (.reply application (w.idOf ref) isError payload))
  | setTimeout stage duration => exact .inl (w.turned_callRouter (.setTimeout stage duration))
  | announceStart application => exact .inl (w.turned_callRouter (.announceStart application))
  | settings => exact .inl (w.turned_callRouter .settings)
  | counters => exact .inl (w.turned_callRouter .counters)
  | request ref => exact .inl (w.turned_callRouter (.request (w.idOf ref)))
  | timeOut stage ref millis =>
    exact .inl (w.turned_callRouter (.handle (.timeout stage (w.idOf ref) millis)))
  | process => exact .inl (w.turned_callRouter .process)
  | pump => cases h
  | again times ops => cases h
  | _ => exact .inl (turned_quiet rfl rfl rfl rfl)

/-- Only the submission of a request may admit it. -/
theorem admitted_perform_of_never {op : Op} (h : (op.move w).admitted? w.router = none)
    (hsame : (perform op w).state.admitted = w.admitted) :
    w.admitted ≤ (perform op w).state.admitted ∧
      ∀ q, (op.move w).admitted? w.router = some q →
        q.id = .ofNat w.admitted ∧ (perform op w).state.admitted = w.admitted + 1 := by
  refine ⟨Nat.le_of_eq hsame.symm, fun q hq => ?_⟩
  rw [h] at hq
  cases hq

/-- A request that is admitted gets the next name. -/
theorem admitted_submit (w : World) (s : Router.Submission) :
    w.admitted ≤ (w.submit s).state.admitted ∧
      ∀ q, (w.router.submit w.around (.ofNat w.admitted) .epoch s).value.toOption = some q →
        q.id = .ofNat w.admitted ∧ (w.submit s).state.admitted = w.admitted + 1 := by
  have hadmitted : (w.callRouter (.submit (.ofNat w.admitted) .epoch s)).state.admitted =
      w.admitted := admitted_absorb _ _
  have hvalue : (w.callRouter (.submit (.ofNat w.admitted) .epoch s)).value =
      .ofExcept (fun q => .request (some q))
        (w.router.submit w.around (.ofNat w.admitted) .epoch s).value := rfl
  rw [submit]
  rcases w.router.submit_cases w.around (.ofNat w.admitted) .epoch s with
    ⟨candidates, lanes, -, hok, -⟩ | ⟨reason, herror, -⟩
  · rw [hok] at hvalue ⊢
    rw [hvalue]
    refine ⟨Nat.le_succ_of_le (Nat.le_of_eq hadmitted.symm), fun q hq => ?_⟩
    rw [← Option.some.inj hq]
    exact ⟨rfl, congrArg (· + 1) hadmitted⟩
  · rw [herror] at hvalue ⊢
    rw [hvalue]
    refine ⟨Nat.le_of_eq hadmitted.symm, fun q hq => ?_⟩
    cases hq

theorem admitted_step (w : World) : w.step.state.admitted = w.admitted := by
  unfold step
  split
  · exact admitted_absorb _ _
  · rfl

theorem admitted_receive (w : World) (subscriber : Nat) (limit : Option Nat) :
    (w.receive subscriber limit).state.admitted = w.admitted := by
  unfold receive
  split <;> rfl

/-- The requests are numbered in the order of their admission. -/
theorem admitted_perform {op : Op} (h : op.isElementary = true) (w : World) :
    w.admitted ≤ (perform op w).state.admitted ∧
      ∀ q, (op.move w).admitted? w.router = some q →
        q.id = .ofNat w.admitted ∧ (perform op w).state.admitted = w.admitted + 1 := by
  cases op with
  | submit s => exact w.admitted_submit s
  | step =>
    refine admitted_perform_of_never ?_ w.admitted_step
    rw [Op.move]
    split <;> rfl
  | receive subscriber limit =>
    exact admitted_perform_of_never rfl (w.admitted_receive subscriber limit)
  | pump => cases h
  | again times ops => cases h
  | host | catalog | attach | hasListener | resolve | reject | reply | setTimeout | announceStart
  | settings | counters | request | timeOut | process =>
    exact admitted_perform_of_never rfl (admitted_absorb _ _)
  | _ => exact admitted_perform_of_never rfl rfl

/-! ## What is asked comes down to elementary operations -/

theorem performAll_nil (w : World) : performAll [] w = w := by rw [performAll]

theorem performAll_cons (op : Op) (ops : List Op) (w : World) :
    performAll (op :: ops) w = performAll ops (perform op w).state := by rw [performAll]

theorem performAll_append (ops later : List Op) (w : World) :
    performAll (ops ++ later) w = performAll later (performAll ops w) := by
  induction ops generalizing w with
  | nil => rw [List.nil_append, performAll_nil]
  | cons op ops ih => rw [List.cons_append, performAll_cons, performAll_cons, ih]

/-- Pumping is to handle one event after another. -/
theorem exists_pumpAtMost (n : Nat) (w : World) :
    ∃ k, performAll (List.replicate k .step) w = (pumpAtMost n w).state := by
  induction n generalizing w with
  | zero => exact ⟨0, performAll_nil w⟩
  | succ n ih =>
    rw [pumpAtMost]
    cases w.step.value with
    | none => exact ⟨0, performAll_nil w⟩
    | some event =>
      obtain ⟨k, hk⟩ := ih w.step.state
      exact ⟨k + 1, (performAll_cons ..).trans hk⟩

/-- An operation that is not a number of others comes down to elementary ones. -/
theorem exists_elementary_of_isSingle {op : Op} (h : op.isSingle = true) (w : World) :
    ∃ parts : List Op, (∀ part ∈ parts, part.isElementary = true) ∧
      performAll parts w = (perform op w).state := by
  by_cases helementary : op.isElementary = true
  · refine ⟨[op], List.forall_mem_singleton.mpr helementary, ?_⟩
    rw [performAll_cons, performAll_nil]
  · cases op with
    | pump =>
      obtain ⟨k, hk⟩ := exists_pumpAtMost w.workload w
      exact ⟨List.replicate k .step, fun op hop => by rw [List.eq_of_mem_replicate hop]; rfl, hk⟩
    | again times ops => cases h
    | _ => exact absurd rfl helementary

/-- So do several of them, one after another. -/
theorem exists_elementary_of_singles {singles : List Op}
    (h : ∀ op ∈ singles, op.isSingle = true) (w : World) :
    ∃ parts : List Op, (∀ part ∈ parts, part.isElementary = true) ∧
      performAll parts w = performAll singles w := by
  induction singles generalizing w with
  | nil => exact ⟨[], List.forall_mem_nil _, rfl⟩
  | cons op rest ih =>
    obtain ⟨hop, hrest⟩ := List.forall_mem_cons.mp h
    obtain ⟨first, hfirst, hled⟩ := exists_elementary_of_isSingle hop w
    obtain ⟨parts, hparts, hsame⟩ := ih hrest (perform op w).state
    refine ⟨first ++ parts, List.forall_mem_append.mpr ⟨hfirst, hparts⟩, ?_⟩
    rw [performAll_append, hled, hsame, performAll_cons]

/-- Whatever is asked, there are elementary operations that lead to the same world. -/
theorem exists_elementary (op : Op) (w : World) :
    ∃ parts : List Op, (∀ part ∈ parts, part.isElementary = true) ∧
      performAll parts w = (perform op w).state := by
  have hunrolls := unrolls.2 [op]
  obtain ⟨parts, hparts, hsame⟩ := exists_elementary_of_singles hunrolls.single w
  refine ⟨parts, hparts, ?_⟩
  rw [hsame, ← state_performEach, hunrolls.same, performAll_cons, performAll_nil]

/-! ## The run of a session -/

/-- The moves that the router makes in operations one after another. -/
def moves : List Op → World → List Move
  | [], _ => []
  | op :: ops, w => op.move w :: moves ops (perform op w).state

/-- The move in each operation. -/
theorem getElem?_moves (ops : List Op) (w : World) (n : Nat) :
    (moves ops w)[n]? = ops[n]?.map fun op => op.move (performAll (ops.take n) w) := by
  induction ops generalizing w n with
  | nil => rfl
  | cons op ops ih =>
    cases n with
    | zero =>
      rw [List.take_zero, performAll_nil]
      rfl
    | succ n =>
      rw [moves, List.getElem?_cons_succ, List.getElem?_cons_succ, List.take_succ_cons, ih,
        performAll_cons]

/-- An elementary operation leaves the router as its move does. -/
theorem router_perform {op : Op} (h : op.isElementary = true) (w : World) :
    (perform op w).state.router = ((op.move w).turn w.router).state := by
  rcases perform_elementary h w with hturned | ⟨millis, rfl⟩ | rfl
  · exact hturned.router
  · rfl
  · rfl

/-- Elementary operations leave the router as their moves do. -/
theorem play_moves {ops : List Op} (h : ∀ op ∈ ops, op.isElementary = true) (w : World) (n : Nat) :
    w.router.play ((moves ops w).take n) = (performAll (ops.take n) w).router := by
  induction ops generalizing w n with
  | nil =>
    rw [moves, List.take_nil, List.take_nil, performAll_nil]
    rfl
  | cons op ops ih =>
    obtain ⟨hop, hops⟩ := List.forall_mem_cons.mp h
    cases n with
    | zero =>
      rw [List.take_zero, List.take_zero, performAll_nil]
      rfl
    | succ n =>
      rw [moves, List.take_succ_cons, List.take_succ_cons, performAll_cons, ← ih hops,
        router_perform hop]
      rfl

end World

/-- Elementary operations on a new world, in which no two requests are admitted under one name. -/
structure Session where
  /-- The settings of the router. -/
  settings : Settings
  /-- The new world. -/
  start : World
  /-- The settings have passed their check. -/
  created : World.create settings true = .ok start
  /-- The timeouts fit 64 bits. -/
  fits : ∀ stage, settings.timeout stage ≤ Json.Numeral.largest
  /-- The operations, in order. -/
  ops : List Op
  /-- None of them is a number of others, or the handling of a number of events. -/
  elementary : ∀ op ∈ ops, op.isElementary = true
  /-- The requests that are admitted have names of their own. -/
  names : ∀ m n, m < (World.performAll ops start).admitted →
    n < (World.performAll ops start).admitted → RequestId.ofNat m = .ofNat n → m = n

namespace Session

variable {s : Session} {i j k n : Nat} {op : Op}

/-- The world after so many operations. -/
def world (s : Session) (n : Nat) : World := World.performAll (s.ops.take n) s.start

theorem world_succ (h : s.ops[n]? = some op) :
    s.world (n + 1) = (World.perform op (s.world n)).state := by
  rw [world, List.take_add_one, h, World.performAll_append, Option.toList_some,
    World.performAll_cons, World.performAll_nil]
  rfl

/-- Nothing happens after the last operation. -/
theorem world_succ_of_none (h : s.ops[n]? = none) : s.world (n + 1) = s.world n := by
  rw [world, world, List.take_add_one, h, Option.toList_none, List.append_nil]

theorem elementary_of (h : s.ops[n]? = some op) : op.isElementary = true :=
  s.elementary op (List.mem_of_getElem? h)

/-- Ever more requests have been admitted. -/
theorem admitted_le (s : Session) (h : i ≤ j) : (s.world i).admitted ≤ (s.world j).admitted := by
  induction j, h using Nat.le_induction with
  | base => exact Nat.le_refl _
  | succ j _ ih =>
    cases hop : s.ops[j]? with
    | none => rwa [world_succ_of_none hop]
    | some op =>
      rw [world_succ hop]
      exact Nat.le_trans ih (World.admitted_perform (elementary_of hop) (s.world j)).1

/-- The new world holds a new router. -/
theorem start_spec (s : Session) :
    Router.create s.settings = .ok s.start.router ∧ s.start = .fresh s.start.router := by
  have hcreated := s.created
  unfold World.create at hcreated
  cases hrouter : Router.create s.settings with
  | error reason =>
    rw [hrouter] at hcreated
    cases hcreated
  | ok router =>
    rw [hrouter] at hcreated
    rw [← Except.ok.inj hcreated]
    exact ⟨rfl, rfl⟩

/-- A request is admitted under the next name. -/
theorem admission_spec {q : Request}
    (h : s.start.router.admission? (World.moves s.ops s.start) n = some q) :
    q.id = .ofNat (s.world n).admitted ∧
      (s.world (n + 1)).admitted = (s.world n).admitted + 1 ∧
        (s.world (n + 1)).admitted ≤ (World.performAll s.ops s.start).admitted := by
  obtain ⟨m, hm, hadmits⟩ := Option.bind_eq_some_iff.mp h
  rw [World.getElem?_moves] at hm
  obtain ⟨op, hop, rfl⟩ := Option.map_eq_some_iff.mp hm
  rw [World.play_moves s.elementary] at hadmits
  obtain ⟨hid, hnext⟩ :=
    (World.admitted_perform (elementary_of hop) (s.world n)).2 q hadmits
  have hlast : World.performAll s.ops s.start = s.world s.ops.length := by
    rw [world, List.take_length]
  have hlt : n < s.ops.length := (List.getElem?_eq_some_iff.mp hop).1
  rw [hlast]
  exact ⟨hid, by rw [world_succ hop]; exact hnext, s.admitted_le hlt⟩

/-- The router of a session makes a run. -/
def run (s : Session) : Run where
  settings := s.settings
  start := s.start.router
  created := s.start_spec.1
  moves := World.moves s.ops s.start
  fresh := by
    have hnot : ∀ {i j : Nat} {p q : Request},
        s.start.router.admission? (World.moves s.ops s.start) i = some p →
        s.start.router.admission? (World.moves s.ops s.start) j = some q → p.id = q.id →
          ¬ i < j := by
      intro i j p q hp hq hid hij
      obtain ⟨hpid, hpnext, hpall⟩ := admission_spec hp
      obtain ⟨hqid, hqnext, hqall⟩ := admission_spec hq
      have hsame := s.names _ _ (by omega) (by omega) (hpid.symm.trans (hid.trans hqid))
      have hle := s.admitted_le (show i + 1 ≤ j from hij)
      omega
    intro i j p q hp hq hid
    have hle := hnot hp hq hid
    have hge := hnot hq hp hid.symm
    omega

theorem router_run (s : Session) (n : Nat) : s.run.router n = (s.world n).router :=
  World.play_moves s.elementary s.start n

theorem move_run (h : s.ops[n]? = some op) : s.run.moves[n]? = some (op.move (s.world n)) := by
  have hmove := World.getElem?_moves s.ops s.start n
  rw [h] at hmove
  exact hmove

end Session

end IntentRouter
