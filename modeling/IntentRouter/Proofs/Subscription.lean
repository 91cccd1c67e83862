import IntentRouter.Proofs.Announcement
import IntentRouter.Proofs.Broadcast
import IntentRouter.Proofs.Schedule

/-!
# The events of the catalog replay it

A subscriber can keep a list of the registered intents of its own: it begins with the intents that
are registered when it subscribes, and lets every event that it receives act on the list. Whatever
else goes on in the world, however the catalog is called and however slowly the subscriber reads,
unless events are missed the list of a subscriber that has received everything is that of the
catalog, in the same order.
-/

namespace IntentRouter

/-! ## Operations one by one -/

mutual

/-- What is done one by one where an operation is carried out. -/
def Op.unrolled : Op → List Op
  | .again times ops => (List.replicate times (Op.unrolledAll ops)).flatten
  | op => [op]

/-- What is done one by one where operations are carried out one after another. -/
def Op.unrolledAll : List Op → List Op
  | [] => []
  | op :: ops => op.unrolled ++ Op.unrolledAll ops

end

/-- Whether an operation is not a number of others. -/
def Op.isSingle : Op → Bool
  | .again .. => false
  | _ => true

/-- Single operations that do together what is asked for. -/
structure Unrolls (singles : List Op) (act : World → World) : Prop where
  /-- None of them is a number of others. -/
  single : ∀ op ∈ singles, op.isSingle = true
  /-- They lead to the same world. -/
  same : ∀ w, (World.performEach singles w).state = act w

/-- To carry out operations with a look at the answers leads to the same world as without. -/
theorem World.state_performEach (ops : List Op) (w : World) :
    (World.performEach ops w).state = World.performAll ops w := by
  induction ops generalizing w with
  | nil => rw [performAll]; rfl
  | cons op ops ih =>
    rw [performAll]
    exact ih (World.perform op w).state

/-- What some operations lead to and others after them. -/
theorem World.state_performEach_append (ops later : List Op) (w : World) :
    (World.performEach (ops ++ later) w).state =
      (World.performEach later (World.performEach ops w).state).state := by
  induction ops generalizing w with
  | nil => rfl
  | cons op ops ih => exact ih (World.perform op w).state

theorem Unrolls.append {ops later : List Op} {f g : World → World} (h : Unrolls ops f)
    (h' : Unrolls later g) : Unrolls (ops ++ later) (g ∘ f) where
  single := List.forall_mem_append.mpr ⟨h.single, h'.single⟩
  same w := by rw [World.state_performEach_append, h.same, h'.same, Function.comp_apply]

theorem Unrolls.repeat {ops : List Op} {f : World → World} (h : Unrolls ops f) (times : Nat) :
    Unrolls (List.replicate times ops).flatten (times.repeat f) := by
  induction times with
  | zero => exact ⟨List.forall_mem_nil _, fun _ => rfl⟩
  | succ times ih =>
    rw [List.replicate_succ', List.flatten_concat]
    exact ih.append h

/-- What is done one by one is what has been asked for. -/
theorem unrolls :
    (∀ op, Unrolls op.unrolled fun w => (World.perform op w).state) ∧
      ∀ ops, Unrolls (Op.unrolledAll ops) (World.performAll ops) := by
  refine Op.unrolled.mutual_induct _ _ (fun times ops ih => ?_) (fun op hop => ?_) ?_
    fun op ops ih ihs => ?_
  · rw [Op.unrolled]
    have hrepeat := ih.repeat times
    exact ⟨hrepeat.single, fun w => by rw [hrepeat.same, World.perform]; rfl⟩
  · rw [Op.unrolled]
    · refine ⟨List.forall_mem_singleton.mpr ?_, fun _ => rfl⟩
      cases op with
      | again times ops => exact (hop times ops rfl).elim
      | _ => rfl
    · exact hop
  · exact ⟨List.forall_mem_nil _, fun w => by rw [World.performAll]; rfl⟩
  · rw [Op.unrolledAll]
    have happend := ih.append ihs
    exact ⟨happend.single, fun w => by rw [happend.same, World.performAll]; rfl⟩

/-! ## One operation after another -/

/-- The change that an operation makes by registering or removing an intent, as its answer tells. -/
def Op.change? : Op → Answer → Option CatalogEvent
  | .catalog call, a => call.change? a
  | _, _ => none

/-- What a subscriber receives in an operation. -/
def Op.received (subscriber : Nat) : Op → Answer → List Received
  | .receive number _, .received (some rs) => if number = subscriber then rs else []
  | _, _ => []

/-- A subscriber receives nothing where another one reads. -/
theorem Op.received_of_ne {number subscriber : Nat} (h : number ≠ subscriber) (limit : Option Nat)
    (a : Answer) : (Op.receive number limit).received subscriber a = [] := by
  cases a with
  | received rs? =>
    cases rs? with
    | none => rfl
    | some rs => exact if_neg h
  | _ => rfl

/-- What is done with its answers, one thing after another. -/
def World.course (ops : List Op) (w : World) : List (Op × Answer) :=
  ops.zip (World.performEach ops w).value

/-- The changes made by those operations that register or remove an intent, one for each. -/
def World.changes (ops : List Op) (w : World) : List CatalogEvent :=
  (World.course ops w).filterMap fun done => done.1.change? done.2

/-- All that a subscriber receives. -/
def World.received (subscriber : Nat) (ops : List Op) (w : World) : List Received :=
  (World.course ops w).flatMap fun done => done.1.received subscriber done.2

/-- The change of the first operation and those after it. -/
theorem World.changes_cons (op : Op) (ops : List Op) (w : World) :
    let t := World.perform op w
    World.changes (op :: ops) w = (op.change? t.value).toList ++ World.changes ops t.state := by
  intro t
  have hcourse : World.course (op :: ops) w = (op, t.value) :: World.course ops t.state := rfl
  rw [World.changes, hcourse, List.filterMap_cons]
  cases op.change? t.value <;> rfl

/-- The changes have been made of the intents that were known when so many events had been
published, and they have been announced. -/
structure Announced (known : List Intent) (start : Nat) (changes : List CatalogEvent) (w : World) :
    Prop where
  /-- No two intents are registered under one key. -/
  keyed : w.router.catalog.Keyed
  /-- Every change is one. -/
  isChange : ∀ change ∈ changes, change.isChange = true
  /-- The changes have led to the intents that are registered. -/
  intents : w.router.catalog.intents = changes.foldl CatalogEvent.actOn known
  /-- Their announcements are all that has been published. -/
  carries : w.bus.Carries start (changes.flatMap CatalogEvent.announcement)

section

variable {w : World} {known : List Intent} {start subscriber next : Nat}
  {changes : List CatalogEvent} {rs : List Received}

/-- A subscriber receives nothing and stays at its place; or it reads from there on, and there is no
change. -/
def World.Delivers (w : World) (op : Op) (t : Turn World Answer) : Prop :=
  ∀ {subscriber next}, w.subscribers[subscriber]? = some next →
    (op.received subscriber t.value = [] ∧ t.state.subscribers[subscriber]? = some next) ∨
      op.change? t.value = none ∧ ∃ times,
        op.received subscriber t.value = (w.bus.receiveMany times next).1 ∧
        t.state.subscribers[subscriber]? = some (w.bus.receiveMany times next).2

/-- What a single operation comes to for whoever knows the intents and for whoever subscribes. -/
structure World.Heard (w : World) (op : Op) (t : Turn World Answer) : Prop where
  /-- No two intents are registered under one key. -/
  keyed : t.state.router.catalog.Keyed
  /-- A change is one. -/
  isChange : ∀ change ∈ op.change? t.value, change.isChange = true
  /-- The change has been made of the intents that are registered. -/
  intents : t.state.router.catalog.intents =
    (op.change? t.value).toList.foldl CatalogEvent.actOn w.router.catalog.intents
  /-- Its announcement has been published, and nothing else. -/
  bus : t.state.bus =
    ((op.change? t.value).toList.flatMap CatalogEvent.announcement).foldl Bus.publish w.bus
  /-- Every subscriber receives nothing or reads. -/
  delivers : w.Delivers op t

/-- Where the catalog and the bus stay as they are there is no change. -/
theorem World.Heard.still {op : Op} {t : Turn World Answer} (keyed : w.router.catalog.Keyed)
    (hnone : op.change? t.value = none) (hcatalog : t.state.router.catalog = w.router.catalog)
    (hbus : t.state.bus = w.bus) (hdelivers : w.Delivers op t) : w.Heard op t where
  keyed := hcatalog ▸ keyed
  isChange := by rw [hnone]; nofun
  intents := by rw [hnone, hcatalog]; rfl
  bus := by rw [hnone, hbus]; rfl
  delivers := hdelivers

theorem World.heard_callCatalog (keyed : w.router.catalog.Keyed) (call : CatalogCall) :
    w.Heard (.catalog call) (w.callCatalog call) := by
  obtain ⟨hcatalog, hbus, hsubscribers⟩ := World.callCatalog_spec keyed call
  have hannounces := keyed.announces call
  refine ⟨?_, hannounces.isChange, ?_, hbus, fun hplace => .inl ⟨rfl, ?_⟩⟩
  · rw [hcatalog]
    exact keyed.perform call
  · rw [hcatalog]
    exact hannounces.intents
  · rwa [hsubscribers]

/-- What a subscriber receives that has come to a place, and the world afterwards. -/
theorem World.receive_eq (hplace : w.subscribers[subscriber]? = some next) (limit : Option Nat) :
    let reading := w.bus.receiveMany (limit.getD (w.bus.kept.length + 2)) next
    w.receive subscriber limit =
      .quiet (.received (some reading.1))
        { w with subscribers := w.subscribers.set subscriber reading.2 } := by
  rw [World.receive, hplace]
  cases limit <;> rfl

theorem World.heard_receive (keyed : w.router.catalog.Keyed) (number : Nat) (limit : Option Nat) :
    w.Heard (.receive number limit) (w.receive number limit) := by
  have hsame := w.receive_spec number limit
  have hcatalog := congrArg Router.catalog hsame.1
  refine .still keyed rfl hcatalog hsame.2 fun {subscriber next} hplace => ?_
  by_cases hself : number = subscriber
  · subst hself
    have hlt := (List.getElem?_eq_some_iff.mp hplace).1
    rw [World.receive_eq hplace]
    exact .inr ⟨rfl, limit.getD _, if_pos rfl, List.getElem?_set_self hlt⟩
  · -- What others receive does not matter.
    refine .inl ⟨Op.received_of_ne hself limit _, ?_⟩
    unfold World.receive
    split
    · exact hplace
    · exact (List.getElem?_set_ne hself).trans hplace

/-- What comes of a single operation. -/
theorem World.heard_perform (keyed : w.router.catalog.Keyed) {op : Op}
    (hsingle : op.isSingle = true) : w.Heard op (World.perform op w) := by
  by_cases helse : op.isElsewhere = true
  · have hsame := World.unheard_perform helse w
    have hnone : op.change? (World.perform op w).value = none := by
      cases op with
      | catalog call => cases helse
      | _ => rfl
    have hnothing : ∀ subscriber, op.received subscriber (World.perform op w).value = [] := by
      intro subscriber
      cases op with
      | receive number limit => cases helse
      | _ => rfl
    refine .still keyed hnone hsame.catalog hsame.bus fun hplace => .inl ⟨hnothing _, ?_⟩
    rwa [hsame.subscribers]
  · cases op with
    | catalog call => exact heard_callCatalog keyed call
    | subscribe =>
      refine .still keyed rfl rfl rfl fun hplace => .inl ⟨rfl, ?_⟩
      have hlt := (List.getElem?_eq_some_iff.mp hplace).1
      exact (List.getElem?_append_left hlt).trans hplace
    | receive number limit => exact heard_receive keyed number limit
    | again times ops => cases hsingle
    | _ => exact absurd rfl helse

/-- Whatever is done, the changes are announced. -/
theorem Announced.perform (h : Announced known start changes w) {op : Op}
    (hsingle : op.isSingle = true) :
    let t := World.perform op w
    Announced known start (changes ++ (op.change? t.value).toList) t.state := by
  intro t
  have hheard : w.Heard op t := World.heard_perform h.keyed hsingle
  refine ⟨hheard.keyed, List.forall_mem_append.mpr ⟨h.isChange, fun change hchange => ?_⟩, ?_, ?_⟩
  · exact hheard.isChange change (Option.mem_toList.mp hchange)
  · rw [hheard.intents, h.intents, List.foldl_append]
  · rw [hheard.bus, List.flatMap_append]
    exact h.carries.publishAll _

/-- A subscriber has received so much of the events that have been published since it subscribed. -/
def Listens (start : Nat) (events : List CatalogEvent) (subscriber : Nat) (rs : List Received)
    (w : World) : Prop :=
  ∃ next, w.subscribers[subscriber]? = some next ∧ w.bus.Reads start events start rs next

/-- What holds of the changes that have been made, of what a subscriber has received and of the
world holds whatever is done, one thing after another, if one thing keeps it up. -/
theorem World.performEach_keeps {P : List CatalogEvent → List Received → World → Prop}
    (subscriber : Nat) (rs : List Received)
    (step : ∀ {changes rs w op}, P changes rs w → op.isSingle = true →
      let t := World.perform op w
      P (changes ++ (op.change? t.value).toList) (rs ++ op.received subscriber t.value) t.state)
    (h : P changes rs w) {ops : List Op} (hsingle : ∀ op ∈ ops, op.isSingle = true) :
    P (changes ++ World.changes ops w) (rs ++ World.received subscriber ops w)
      (World.performEach ops w).state := by
  induction ops generalizing w changes rs with
  | nil => rwa [World.changes, World.received, World.course, List.zip_nil_left, List.filterMap_nil,
      List.append_nil, List.flatMap_nil, List.append_nil]
  | cons op ops ih =>
    obtain ⟨hop, hops⟩ := List.forall_mem_cons.mp hsingle
    have hall := ih _ (step h hop) hops
    rw [List.append_assoc, List.append_assoc, ← World.changes_cons] at hall
    exact hall

/-- Whatever is done, one thing after another, the changes are announced. -/
theorem Announced.performEach (h : Announced known start changes w) {ops : List Op}
    (hsingle : ∀ op ∈ ops, op.isSingle = true) :
    Announced known start (changes ++ World.changes ops w) (World.performEach ops w).state :=
  World.performEach_keeps (P := fun changes _ w => Announced known start changes w) 0 []
    (fun h hop => h.perform hop) h hsingle

/-- Whatever is done, a subscriber receives what has been published. -/
theorem Listens.perform
    (h : Listens start (changes.flatMap CatalogEvent.announcement) subscriber rs w)
    (hannounced : Announced known start changes w) {op : Op} (hsingle : op.isSingle = true) :
    let t := World.perform op w
    Listens start ((changes ++ (op.change? t.value).toList).flatMap CatalogEvent.announcement)
      subscriber (rs ++ op.received subscriber t.value) t.state := by
  intro t
  obtain ⟨next, hnext, hreads⟩ := h
  have hheard : w.Heard op t := World.heard_perform hannounced.keyed hsingle
  rcases hheard.delivers hnext with ⟨hnothing, hplace⟩ | ⟨hnone, times, hreceived, hplace⟩
  · refine ⟨next, hplace, ?_⟩
    rw [hheard.bus, hnothing, List.append_nil, List.flatMap_append]
    exact hreads.publishAll hannounced.carries _
  · refine ⟨_, hplace, ?_⟩
    rw [hheard.bus, hreceived, hnone, Option.toList_none, List.append_nil]
    exact hreads.append (hannounced.carries.receiveMany times hreads.forward hreads.bounded)

/-- Whatever is done, one thing after another, a subscriber receives what has been published. -/
theorem Listens.performEach
    (h : Listens start (changes.flatMap CatalogEvent.announcement) subscriber rs w)
    (hannounced : Announced known start changes w) {ops : List Op}
    (hsingle : ∀ op ∈ ops, op.isSingle = true) :
    Listens start ((changes ++ World.changes ops w).flatMap CatalogEvent.announcement) subscriber
      (rs ++ World.received subscriber ops w) (World.performEach ops w).state :=
  (World.performEach_keeps
    (P := fun changes rs w => Announced known start changes w ∧
      Listens start (changes.flatMap CatalogEvent.announcement) subscriber rs w)
    subscriber rs (fun h hop => ⟨h.1.perform hop, h.2.perform h.1 hop⟩) ⟨hannounced, h⟩ hsingle).2

end

/-! ## Subscriptions -/

/-- Somebody subscribes in a world in which things have been done and go on being done. -/
structure Subscription where
  /-- The settings of the router. -/
  settings : Settings
  /-- What has been done before. -/
  earlier : List Op
  /-- What is done afterwards. -/
  later : List Op

namespace Subscription

/-- The world to begin with. -/
def origin (s : Subscription) : World := .fresh (.fresh s.settings)

/-- The world before the subscription. -/
def before (s : Subscription) : World := World.performAll s.earlier s.origin

/-- The world right after the subscription. -/
def opened (s : Subscription) : World := (World.perform .subscribe s.before).state

/-- The number of the subscriber. -/
def subscriber (s : Subscription) : Nat := s.before.subscribers.length

/-- The world now. -/
def now (s : Subscription) : World := World.performAll s.later s.opened

/-- The changes made since the subscription by the calls that have registered or removed an intent,
one for each. -/
def changes (s : Subscription) : List CatalogEvent :=
  World.changes (Op.unrolledAll s.later) s.opened

/-- All that the subscriber has received. -/
def received (s : Subscription) : List Received :=
  World.received s.subscriber (Op.unrolledAll s.later) s.opened

/-- The events that the subscriber has received. -/
def events (s : Subscription) : List CatalogEvent := s.received.filterMap Received.event?

/-- The subscriber has received everything: it would find nothing more to read. -/
def IsCaughtUp (s : Subscription) : Prop :=
  (World.perform (.receive s.subscriber (some 1)) s.now).value = .received (some [.empty])

theorem announced_origin (s : Subscription) : Announced [] 0 [] s.origin :=
  ⟨Catalog.keyed_empty, nofun, rfl, Bus.carries_fresh⟩

theorem announced_before (s : Subscription) : ∃ changes, Announced [] 0 changes s.before := by
  have hunrolls := unrolls.2 s.earlier
  have hbefore := s.announced_origin.performEach hunrolls.single
  rw [hunrolls.same] at hbefore
  exact ⟨_, hbefore⟩

theorem announced_opened (s : Subscription) :
    Announced s.before.router.catalog.intents s.before.bus.published [] s.opened := by
  obtain ⟨_, h⟩ := s.announced_before
  exact ⟨h.keyed, nofun, rfl, h.carries.here⟩

/-- Since the subscription the changes have been announced. -/
theorem announced_now (s : Subscription) :
    Announced s.before.router.catalog.intents s.before.bus.published s.changes s.now := by
  have hunrolls := unrolls.2 s.later
  have hnow := s.announced_opened.performEach hunrolls.single
  rwa [hunrolls.same] at hnow

/-- Since the subscription the subscriber receives what has been published. -/
theorem listens_now (s : Subscription) :
    Listens s.before.bus.published (s.changes.flatMap CatalogEvent.announcement) s.subscriber
      s.received s.now := by
  have hunrolls := unrolls.2 s.later
  have hopened : Listens s.before.bus.published ([].flatMap CatalogEvent.announcement) s.subscriber
      [] s.opened :=
    ⟨s.before.bus.published, List.getElem?_concat_length, .nothing (Nat.le_refl _)⟩
  have hnow := hopened.performEach s.announced_opened hunrolls.single
  rwa [hunrolls.same] at hnow

/-- A subscriber that has received everything, and was not told of missed events, has received the
announcements of all changes. -/
theorem events_eq (s : Subscription) (lossless : Lossless s.received) (caughtUp : s.IsCaughtUp) :
    s.events = s.changes.flatMap CatalogEvent.announcement := by
  obtain ⟨next, hnext, hreads⟩ := s.listens_now
  have hcarries := s.announced_now.carries
  have hempty : (s.now.bus.receive next).1 = .empty := by
    have hvalue : (World.perform (.receive s.subscriber (some 1)) s.now).value =
        .received (some [(s.now.bus.receive next).1]) := by
      rw [World.perform, World.receive_eq hnext, ← Bus.receiveMany_one]
      rfl
    have hsame := hvalue.symm.trans caughtUp
    injection hsame with hsame
    injection hsame with hsame
    injection hsame
  have hend := hcarries.next_eq_of_empty hreads.bounded hempty
  have hall := hreads.between lossless
  rw [hend, hcarries.published, Nat.add_sub_cancel_left, List.take_length, Nat.sub_self,
    List.take_zero, List.nil_append] at hall
  exact hall.symm

/-- A subscriber that has received everything, and was not told of missed events, has received two
events for each call that has registered or removed an intent since it subscribed, in the order of
the calls: one that says what has changed and then one that says that the list has; and it has
received nothing else. If it lets them act on the intents that were registered when it subscribed,
it has those that are registered now. It makes no difference whether the calls have been made of
the catalog or through handles: a service of which the schedule does the same is in the same
world. -/
theorem replays (s : Subscription) (lossless : Lossless s.received) (caughtUp : s.IsCaughtUp) :
    s.events = s.changes.flatMap (fun change => [change, .listChanged]) ∧
      (∀ change ∈ s.changes, change.isChange = true) ∧
      s.events.foldl CatalogEvent.actOn s.before.router.catalog.intents =
        s.now.router.catalog.intents ∧
      ∀ beats, (Ledger.ofBeats beats).deeds.map Deed.op = s.earlier ++ .subscribe :: s.later →
        ((Service.start s.origin).live beats).state.world = s.now := by
  have hannounced := s.announced_now
  have hevents := s.events_eq lossless caughtUp
  refine ⟨hevents, hannounced.isChange, ?_, fun beats hdeeds => ?_⟩
  · rw [hevents, CatalogEvent.foldl_actOn_announcement]
    exact hannounced.intents.symm
  · have hworld := (Service.follows_live s.origin beats).agrees.world
    rw [hworld, Deed.plain, hdeeds, World.state_performEach_append, World.state_performEach,
      World.state_performEach, World.performAll]
    rfl

/-- Somebody subscribes while one intent is registered. Then another one is registered, refused when
it is to be registered again, and the first one is removed. -/
def printing : Subscription where
  settings := .standard
  earlier := [.catalog (.addApplication "printer"), .catalog (.add (.plain "scan" "printer"))]
  later := [.catalog (.add (.plain "print" "printer")), .receive 0 none,
    .catalog (.add (.plain "print" "printer")), .catalog (.remove (.plain "scan" "printer")),
    .receive 0 none]

/-- The same calls, made through a handle. -/
def printingBeats : List Beat :=
  [.call 0 (.catalog (.addApplication "printer")),
    .call 0 (.catalog (.add (.plain "scan" "printer"))), .serve .mailbox, .serve .mailbox,
    .outside .subscribe, .call 0 (.catalog (.add (.plain "print" "printer"))), .serve .mailbox,
    .outside (.receive 0 none), .call 0 (.catalog (.add (.plain "print" "printer"))),
    .call 0 (.catalog (.remove (.plain "scan" "printer"))), .serve .mailbox, .serve .mailbox,
    .outside (.receive 0 none)]

/-- The subscriber knows in the end that the second intent is the only one, however the calls have
been made. -/
theorem replays_printing :
    Lossless printing.received ∧ printing.IsCaughtUp ∧
      printing.events.foldl CatalogEvent.actOn [.plain "scan" "printer"] =
        [.plain "print" "printer"] ∧
      ((Service.start printing.origin).live printingBeats).state.world = printing.now := by
  have lossless : Lossless printing.received := by
    have hreceived : printing.received =
        [.event (.added (.plain "print" "printer")), .event .listChanged, .empty,
          .event (.removed (.plain "scan" "printer")), .event .listChanged, .empty] := rfl
    rw [hreceived]
    intro missed hmem
    simp only [List.mem_cons, reduceCtorEq, List.not_mem_nil, or_self] at hmem
  have caughtUp : printing.IsCaughtUp := rfl
  obtain ⟨-, -, hreplayed, hworld⟩ := replays printing lossless caughtUp
  exact ⟨lossless, caughtUp, hreplayed, hworld printingBeats rfl⟩

end Subscription

end IntentRouter
