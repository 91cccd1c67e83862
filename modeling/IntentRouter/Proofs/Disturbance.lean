import IntentRouter.Proofs.Faults

/-!
# Disturbances leave no trace

A run is disturbed when grants of capabilities break off, when nobody is left to carry out commands,
or when subscriptions are opened and read that are nobody else's concern. A disturbed run keeps in
step with the run in which the same is asked and none of this happens. So two runs in which the same
is asked are in the same state wherever they have got equally far, however either is disturbed; what
is asked gets the same answer and has the same effects in both, except that looks at the
capabilities cause alarm after a grant that broke off and that commands are reported where nobody
carries them out.
-/

namespace IntentRouter

open Effect

/-! ## Disturbed runs -/

/-- What is done in a run that may be disturbed. To give up a subscription is not to receive from it
any more: what is published goes to the bus whoever reads it, and no subscriber knows of another. -/
inductive Act where
  /-- Something is asked, of which no part is a fault or something that a subscriber does. -/
  | ask (op : Op) (ordinary : ∀ part ∈ op.unrolled, part.isOrdinary = true)
  /-- Somebody subscribes. -/
  | subscribe
  /-- The subscription with a number receives events. -/
  | receive (number : Nat) (limit : Option Nat)
  /-- A grant breaks off after the given capabilities. -/
  | grantBroken (application : String) (names : List String)
  /-- Nobody carries out commands any more. -/
  | leave
  /-- A subscription is opened aside. -/
  | subscribeAside
  /-- The subscription aside with a number receives events. -/
  | receiveAside (number : Nat) (limit : Option Nat)

/-- What is asked by an act in any run, disturbed or not. A grant that breaks off is one of what was
granted till then. -/
def Act.asked? : Act → Option Op
  | .ask op _ => some op
  | .subscribe => some .subscribe
  | .receive number limit => some (.receive number limit)
  | .grantBroken application names => some (.host (.grant application names))
  | _ => none

/-- A single operation is asked. -/
def Act.single (op : Op) (hsingle : op.isSingle = true) (h : op.isOrdinary = true) : Act :=
  .ask op (World.unrolled_of_isSingle hsingle ▸ List.forall_mem_singleton.mpr h)

/-- All that is asked, in order. -/
def Act.asked (acts : List Act) : List Op := acts.filterMap Act.asked?

/-- A world in a run that may be disturbed. -/
structure Disturbed where
  /-- The world. -/
  world : World
  /-- The subscribers that belong to the subscriptions, in the order in which these were opened. -/
  known : List Nat
  /-- The subscribers that belong to the subscriptions aside, in the same order. -/
  aside : List Nat

namespace Disturbed

/-- A world in which nothing has happened. -/
def start (settings : Settings) : Disturbed := ⟨.fresh (.fresh settings), [], []⟩

/-- The subscriber with a number among some; nobody if there is none. -/
def among (d : Disturbed) (subscribers : List Nat) (number : Nat) : Nat :=
  subscribers[number]?.getD d.world.subscribers.length

/-- What is done to the world. -/
def op (d : Disturbed) : Act → Op
  | .ask op _ => op
  | .subscribe | .subscribeAside => .subscribe
  | .receive number limit => .receive (d.among d.known number) limit
  | .grantBroken application names => .host (.grantBroken application names)
  | .leave => .host .leave
  | .receiveAside number limit => .receive (d.among d.aside number) limit

/-- What is done to the world, with answer and effects. -/
def turn (d : Disturbed) (act : Act) : Turn World Answer := World.perform (d.op act) d.world

/-- The answer. Whoever subscribes is told the number of the subscription; those aside do not
count. -/
def answer (d : Disturbed) (act : Act) : Answer :=
  match act with
  | .subscribe => .count d.known.length
  | act => (d.turn act).value

/-- The world afterwards. -/
def next (d : Disturbed) (act : Act) : Disturbed where
  world := (d.turn act).state
  known := match act with
    | .subscribe => d.known ++ [d.world.subscribers.length]
    | _ => d.known
  aside := match act with
    | .subscribeAside => d.aside ++ [d.world.subscribers.length]
    | _ => d.aside

/-- The world after some acts. -/
def after (d : Disturbed) (acts : List Act) : Disturbed := acts.foldl next d

/-- The places of some subscribers. -/
def placesOf (subscribers : List Nat) (known : List Nat) : List Nat :=
  known.map fun subscriber => subscribers[subscriber]?.getD 0

/-- The places of the subscribers that belong to the subscriptions. -/
def places (d : Disturbed) : List Nat := placesOf d.world.subscribers d.known

/-- The world as it is in the run without disturbances. -/
def calmed (d : Disturbed) : World := d.world.faultless d.places

/-- Every subscriber belongs to one subscription at most. -/
structure Sorted (d : Disturbed) : Prop where
  /-- No subscriber belongs to two. -/
  once : (d.known ++ d.aside).Nodup
  /-- They have all subscribed. -/
  bounded : ∀ subscriber ∈ d.known ++ d.aside, subscriber < d.world.subscribers.length

variable {d d' : Disturbed} {act : Act} {op : Op}

/-! ## One act -/

theorem length_receive (w : World) (subscriber : Nat) (limit : Option Nat) :
    (w.receive subscriber limit).state.subscribers.length = w.subscribers.length := by
  unfold World.receive
  split
  · rfl
  · exact List.length_set

/-- It stays clear whose subscriber is whose where nobody subscribes. -/
theorem Sorted.keep (h : d.Sorted) (hknown : d'.known = d.known) (haside : d'.aside = d.aside)
    (hlength : d'.world.subscribers.length = d.world.subscribers.length) : d'.Sorted := by
  refine ⟨?_, ?_⟩ <;> rw [hknown, haside]
  · exact h.once
  · exact hlength ▸ h.bounded

/-- It stays clear whose subscriber is whose where one more subscribes. -/
theorem Sorted.add (h : d.Sorted)
    (hperm : (d'.known ++ d'.aside).Perm (d.world.subscribers.length :: (d.known ++ d.aside)))
    (hlength : d'.world.subscribers.length = d.world.subscribers.length + 1) : d'.Sorted where
  once := hperm.nodup_iff.mpr (List.nodup_cons.mpr
    ⟨fun hmem => Nat.lt_irrefl _ (h.bounded _ hmem), h.once⟩)
  bounded subscriber hmem := by
    rw [hlength]
    rcases List.mem_cons.mp (hperm.mem_iff.mp hmem) with rfl | hbefore
    · exact Nat.lt_succ_self _
    · exact Nat.lt_succ_of_lt (h.bounded subscriber hbefore)

theorem Sorted.next (h : d.Sorted) (act : Act) : (d.next act).Sorted := by
  have hone : ∀ place : Nat, (d.world.subscribers ++ [place]).length =
      d.world.subscribers.length + 1 := fun _ => List.length_append
  cases act with
  | ask op ordinary =>
    exact h.keep rfl rfl (congrArg List.length (World.steady_perform ordinary d.world).subscribers)
  | subscribe =>
    refine h.add ?_ (hone _)
    simp only [Disturbed.next, List.append_assoc]
    exact List.perm_middle
  | subscribeAside =>
    refine h.add ?_ (hone _)
    simp only [Disturbed.next, ← List.append_assoc]
    exact List.perm_append_singleton _ _
  | receive number limit => exact h.keep rfl rfl (length_receive _ _ _)
  | receiveAside number limit => exact h.keep rfl rfl (length_receive _ _ _)
  | grantBroken application names =>
    have hsteady := d.world.steady_callHost (.grantBroken application names) nofun
    exact h.keep rfl rfl (congrArg List.length hsteady.subscribers)
  | leave => exact h.keep rfl rfl rfl

/-- Whoever does not receive anything is where it was. -/
theorem placesOf_set {subscribers known : List Nat} {subscriber : Nat}
    (h : subscriber ∉ known) (place : Nat) :
    placesOf (subscribers.set subscriber place) known = placesOf subscribers known :=
  List.map_congr_left fun s hs => by
    have hne : subscriber ≠ s := fun he => h (he ▸ hs)
    rw [List.getElem?_set_ne hne]

/-- Whoever receives something moves, and nobody else. -/
theorem placesOf_set_self {subscribers known : List Nat} {number subscriber : Nat}
    (hnodup : known.Nodup) (hnumber : known[number]? = some subscriber)
    (hlt : subscriber < subscribers.length) (place : Nat) :
    placesOf (subscribers.set subscriber place) known =
      (placesOf subscribers known).set number place := by
  obtain ⟨_, hget⟩ := List.getElem?_eq_some_iff.mp hnumber
  refine List.ext_getElem (by simp only [placesOf, List.length_map, List.length_set]) ?_
  intro n hn _
  rw [placesOf, List.length_map] at hn
  simp only [placesOf, List.getElem_map, List.getElem_set]
  by_cases hsame : number = n
  · subst hsame
    rw [if_pos rfl, hget, List.getElem?_set_self hlt, Option.getD_some]
  · have hne : subscriber ≠ known[n] := fun he => hsame (hnodup.getElem_inj_iff.mp (hget.trans he))
    rw [if_neg hsame, List.getElem?_set_ne hne]

/-- Whoever subscribes does not move the others. -/
theorem placesOf_append {subscribers known : List Nat}
    (h : ∀ subscriber ∈ known, subscriber < subscribers.length) (place : Nat) :
    placesOf (subscribers ++ [place]) known = placesOf subscribers known :=
  List.map_congr_left fun s hs => by rw [List.getElem?_append_left (h s hs)]

theorem Sorted.known_lt (h : d.Sorted) :
    ∀ subscriber ∈ d.known, subscriber < d.world.subscribers.length :=
  fun subscriber hmem => h.bounded subscriber (List.mem_append_left _ hmem)

/-- An act by which something is asked does in a disturbed run what is done where it is asked
without disturbances, but for reports. -/
structure InStep (d : Disturbed) (act : Act) (op : Op) : Prop where
  /-- The answer is the same. -/
  answer : d.answer act = (World.perform op d.calmed).value
  /-- The world afterwards is the same. -/
  calmed : (d.next act).calmed = (World.perform op d.calmed).state
  /-- The effects come to pass, with more alarm. -/
  effects : calm (d.turn act).effects =
    (calm (World.perform op d.calmed).effects).map d.world.host.carry

/-- What concerns no subscriber is done in step. -/
theorem InStep.of_mirrors (hknown : (d.next act).known = d.known)
    (hanswer : d.answer act = (d.turn act).value)
    (hsubscribers : (d.turn act).state.subscribers = d.world.subscribers)
    (hmirrors : ((d.turn act).lift (World.faultless d.places)).Mirrors d.world.host
      (World.perform op d.calmed)) : d.InStep act op := by
  have hplaces : (d.next act).places = d.places := by
    rw [places, places, hknown]
    exact congrArg (placesOf · d.known) hsubscribers
  refine ⟨hanswer.trans hmirrors.value, ?_, hmirrors.effects⟩
  rw [Disturbed.calmed, hplaces]
  exact hmirrors.state

/-- A subscription is where its subscriber is, and where there is none there is no subscriber. -/
theorem Sorted.place_among (h : d.Sorted) (number : Nat) :
    d.world.subscribers[d.among d.known number]? = d.places[number]? := by
  rw [among, places, placesOf, List.getElem?_map]
  cases hnumber : d.known[number]? with
  | none => exact List.getElem?_eq_none (Nat.le_refl _)
  | some subscriber =>
    have hlt := h.known_lt subscriber (List.mem_of_getElem? hnumber)
    simp only [Option.getD_some, Option.map_some, List.getElem?_eq_getElem hlt]

theorem Sorted.inStep_receive (h : d.Sorted) (number : Nat) (limit : Option Nat) :
    d.InStep (.receive number limit) (.receive number limit) := by
  have hplace := h.place_among number
  cases hnumber : d.places[number]? with
  | none =>
    -- There is no such subscription, neither here nor there.
    rw [hnumber] at hplace
    have hhere : d.turn (.receive number limit) = .quiet (.received none) d.world := by
      rw [turn, Disturbed.op, World.perform, World.receive, hplace]
    have hthere : World.perform (.receive number limit) d.calmed =
        .quiet (.received none) d.calmed := by
      have hnobody : d.calmed.subscribers[number]? = none := hnumber
      rw [World.perform, World.receive, hnobody]
    refine ⟨?_, ?_, ?_⟩
    · exact (congrArg Turn.value hhere).trans (congrArg Turn.value hthere).symm
    · have hworld : (d.next (.receive number limit)).world = d.world := congrArg Turn.state hhere
      have hknown : (d.next (.receive number limit)).known = d.known := rfl
      rw [hthere, Disturbed.calmed, places, hworld, hknown]
      rfl
    · rw [hhere, hthere]
      rfl
  | some place =>
    have hhere := World.receive_eq (hplace.trans hnumber) limit
    have hthere := World.receive_eq (w := d.calmed) hnumber limit
    have hsubscriber : d.known[number]? = some (d.among d.known number) := by
      rw [places, placesOf, List.getElem?_map, Option.map_eq_some_iff] at hnumber
      obtain ⟨subscriber, hknown, -⟩ := hnumber
      rw [among, hknown, Option.getD_some]
    refine ⟨?_, ?_, ?_⟩
    · exact (congrArg Turn.value hhere).trans (congrArg Turn.value hthere).symm
    · have hset := placesOf_set_self h.once.of_append_left hsubscriber
        (h.known_lt _ (List.mem_of_getElem? hsubscriber))
        (d.world.bus.receiveMany (limit.getD (d.world.bus.kept.length + 2)) place).2
      have hworld : (d.next (.receive number limit)).world = _ := congrArg Turn.state hhere
      have hknown : (d.next (.receive number limit)).known = d.known := rfl
      rw [World.perform, hthere, Disturbed.calmed, places, hworld, hknown]
      exact congrArg (World.faultless · d.world) hset
    · rw [turn, Disturbed.op, World.perform, World.perform, hhere, hthere]
      rfl

theorem Sorted.inStep_subscribe (h : d.Sorted) : d.InStep .subscribe .subscribe := by
  have hlength : d.places.length = d.known.length := List.length_map _
  have hplaces : (d.next .subscribe).places = d.places ++ [d.world.bus.published] := by
    have hworld : (d.next .subscribe).world.subscribers =
        d.world.subscribers ++ [d.world.bus.published] := rfl
    have hknown : (d.next .subscribe).known = d.known ++ [d.world.subscribers.length] := rfl
    have happend := placesOf_append h.known_lt d.world.bus.published
    rw [places, hworld, hknown, places, ← happend, placesOf, placesOf, List.map_append,
      List.map_singleton, List.getElem?_concat_length, Option.getD_some]
  refine ⟨?_, ?_, rfl⟩
  · exact congrArg Answer.count hlength.symm
  · rw [Disturbed.calmed, hplaces]
    rfl

theorem Sorted.inStep (h : d.Sorted) (hasked : act.asked? = some op) : d.InStep act op := by
  cases act with
  | ask op' ordinary =>
    cases hasked
    exact .of_mirrors rfl rfl (World.steady_perform ordinary d.world).subscribers
      (World.perform_mirrors ordinary d.world d.places)
  | subscribe =>
    cases hasked
    exact h.inStep_subscribe
  | receive number limit =>
    cases hasked
    exact h.inStep_receive number limit
  | grantBroken application names =>
    cases hasked
    exact .of_mirrors rfl rfl
      (d.world.steady_callHost (.grantBroken application names) nofun).subscribers
      (d.world.grantBroken_mirrors d.places application names)
  | leave => cases hasked
  | subscribeAside => cases hasked
  | receiveAside number limit => cases hasked

/-- A subscriber aside is not that of a subscription. -/
theorem Sorted.among_aside (h : d.Sorted) (number : Nat) : d.among d.aside number ∉ d.known := by
  intro hmem
  rw [among] at hmem
  cases hnumber : d.aside[number]? with
  | none =>
    rw [hnumber, Option.getD_none] at hmem
    exact Nat.lt_irrefl _ (h.known_lt _ hmem)
  | some subscriber =>
    rw [hnumber, Option.getD_some] at hmem
    exact List.disjoint_of_nodup_append h.once hmem (List.mem_of_getElem? hnumber)

/-- An act by which nothing is asked changes nothing in the world without disturbances. -/
theorem Sorted.calmed_next (h : d.Sorted) (hasked : act.asked? = none) :
    (d.next act).calmed = d.calmed := by
  cases act with
  | leave => rfl
  | subscribeAside =>
    exact congrArg (World.faultless · d.world) (placesOf_append h.known_lt d.world.bus.published)
  | receiveAside number limit =>
    have hworld : (d.next (.receiveAside number limit)).world =
        (d.world.receive (d.among d.aside number) limit).state := rfl
    have hknown : (d.next (.receiveAside number limit)).known = d.known := rfl
    rw [calmed, places, hknown, hworld]
    cases hplace : d.world.subscribers[d.among d.aside number]? with
    | none =>
      rw [World.receive, hplace]
      rfl
    | some place =>
      rw [World.receive_eq hplace]
      exact congrArg (World.faultless · d.world) (placesOf_set (h.among_aside number) _)
  | _ => cases hasked

/-! ## One act after another -/

theorem sorted_start (settings : Settings) : (start settings).Sorted := ⟨.nil, nofun⟩

theorem after_cons (d : Disturbed) (act : Act) (acts : List Act) :
    d.after (act :: acts) = (d.next act).after acts := rfl

theorem Sorted.after (h : d.Sorted) (acts : List Act) : (d.after acts).Sorted := by
  induction acts generalizing d with
  | nil => exact h
  | cons act acts ih => exact ih (h.next act)

/-- Without disturbances the world is that in which what is asked has been carried out. -/
theorem Sorted.calmed_after (h : d.Sorted) (acts : List Act) :
    (d.after acts).calmed = World.performAll (Act.asked acts) d.calmed := by
  induction acts generalizing d with
  | nil => rw [Act.asked, List.filterMap_nil, World.performAll]; rfl
  | cons act acts ih =>
    rw [after_cons, ih (h.next act), Act.asked, Act.asked, List.filterMap_cons]
    cases hasked : act.asked? with
    | none => rw [h.calmed_next hasked]
    | some op => rw [(h.inStep hasked).calmed, World.performAll]

/-- Commands are carried out until whoever does that leaves. -/
theorem attended_next (h : act ≠ .leave) :
    (d.next act).world.host.attended = d.world.host.attended := by
  cases act with
  | ask op ordinary => exact (World.steady_perform ordinary d.world).attended
  | grantBroken application names =>
    exact (d.world.steady_callHost (.grantBroken application names) nofun).attended
  | leave => exact absurd rfl h
  | receive number limit =>
    change (World.receive d.world _ limit).state.host.attended = _
    unfold World.receive
    split <;> rfl
  | receiveAside number limit =>
    change (World.receive d.world _ limit).state.host.attended = _
    unfold World.receive
    split <;> rfl
  | subscribe => rfl
  | subscribeAside => rfl

theorem attended_after {acts : List Act} (h : .leave ∉ acts) :
    (d.after acts).world.host.attended = d.world.host.attended := by
  induction acts generalizing d with
  | nil => rfl
  | cons act acts ih =>
    obtain ⟨hact, hacts⟩ := not_or.mp (mt List.mem_cons.mpr h)
    rw [after_cons, ih hacts, attended_next (Ne.symm hact)]

end Disturbed

/-! ## Two runs -/

/-- Two worlds that are the same but for faults of the host and for subscribers. -/
structure World.Alike (w w' : World) : Prop where
  /-- The routers are the same, with their catalogs, settings, requests, lanes, listeners, histories
  and counters. -/
  router : w.router = w'.router
  /-- The same applications run, on the same channels. -/
  running : w.host.running = w'.host.running
  /-- They hold the same capabilities. -/
  granted : w.host.granted = w'.host.granted
  /-- The same events of the catalog have been published. -/
  bus : w.bus = w'.bus
  /-- The same listeners listen. -/
  listeners : w.listeners = w'.listeners
  /-- The same events have been posted and not yet handled. -/
  inbox : w.inbox = w'.inbox
  /-- It is as late. -/
  now : w.now = w'.now
  /-- The same timers have not yet run out. -/
  timers : w.timers = w'.timers
  /-- As many requests have been admitted. -/
  admitted : w.admitted = w'.admitted

theorem World.Alike.of_faultless {w w' : World} {places places' : List Nat}
    (h : w.faultless places = w'.faultless places') : w.Alike w' where
  router := congrArg (·.router) h
  running := congrArg (·.host.running) h
  granted := congrArg (·.host.granted) h
  bus := congrArg (·.bus) h
  listeners := congrArg (·.listeners) h
  inbox := congrArg (·.inbox) h
  now := congrArg (·.now) h
  timers := congrArg (·.timers) h
  admitted := congrArg (·.admitted) h

namespace Disturbed

/-- Two runs in which the same has been asked are in the same state, however either is disturbed:
the worlds are alike, and the subscriptions are at the same places. Whatever is asked next gets the
same answer in both. It has the same effects except for alarm, and for commands, which are carried
out or reported at the same points; so unless somebody has left who carries out commands, the
commands are the same as well. -/
theorem leaves_no_trace (settings : Settings) (acts acts' : List Act)
    (same : Act.asked acts = Act.asked acts') :
    let d := (start settings).after acts
    let d' := (start settings).after acts'
    d.world.Alike d'.world ∧ d.places = d'.places ∧
      ∀ act act' op, act.asked? = some op → act'.asked? = some op →
        d.answer act = d'.answer act' ∧
          (∃ es : List Effect, calm (d.turn act).effects = es.map d.world.host.carry ∧
            calm (d'.turn act').effects = es.map d'.world.host.carry) ∧
          (.leave ∉ acts → .leave ∉ acts' →
            calm (d.turn act).effects = calm (d'.turn act').effects) := by
  intro d d'
  have hsorted : d.Sorted := (sorted_start settings).after acts
  have hsorted' : d'.Sorted := (sorted_start settings).after acts'
  have hcalmed : d.calmed = d'.calmed := by
    rw [(sorted_start settings).calmed_after, (sorted_start settings).calmed_after, same]
  refine ⟨.of_faultless hcalmed, congrArg World.subscribers hcalmed, ?_⟩
  intro act act' op hasked hasked'
  have hstep := hsorted.inStep hasked
  have hstep' := hsorted'.inStep hasked'
  refine ⟨?_, ⟨calm (World.perform op d.calmed).effects, hstep.effects, ?_⟩, fun hstay hstay' => ?_⟩
  · rw [hstep.answer, hstep'.answer, hcalmed]
  · rw [hstep'.effects, hcalmed]
  · have hatt : d.world.host.attended = true := attended_after hstay
    have hatt' : d'.world.host.attended = true := attended_after hstay'
    rw [hstep.effects, hstep'.effects, Host.map_carry_of_attended hatt,
      Host.map_carry_of_attended hatt', hcalmed]

/-- An intent is registered and an editor asks for it, while somebody has subscribed. -/
def errand : List Act :=
  [.single (.catalog (.addApplication "printer")) rfl rfl, .subscribe,
    .single (.catalog (.add (.plain "print" "printer"))) rfl rfl,
    .single (.host (.grant "editor" ["colour"])) rfl rfl,
    .single (.host (.run "editor" none)) rfl rfl,
    .single (.submit ⟨"editor", "print", none, .empty⟩) rfl rfl]

/-- The same, while the grant breaks off, somebody else has subscribed before and reads, and nobody
is left in the end to carry out commands. -/
def disturbedErrand : List Act :=
  [.single (.catalog (.addApplication "printer")) rfl rfl, .subscribeAside, .subscribe,
    .single (.catalog (.add (.plain "print" "printer"))) rfl rfl, .receiveAside 0 none,
    .grantBroken "editor" ["colour"], .single (.host (.run "editor" none)) rfl rfl,
    .single (.submit ⟨"editor", "print", none, .empty⟩) rfl rfl, .leave]

/-- The subscription receives the same from another subscriber, and the same events are handled,
although the printer is not started. -/
theorem leaves_no_trace_errand :
    let d := (start .standard).after errand
    let d' := (start .standard).after disturbedErrand
    Act.asked errand = Act.asked disturbedErrand ∧ d.world.Alike d'.world ∧
      d.known = [0] ∧ d'.known = [1] ∧
      d.answer (.receive 0 none) = d'.answer (.receive 0 none) ∧
      d.answer (.single .pump rfl rfl) = d'.answer (.single .pump rfl rfl) ∧
      .command (.start "printer") ∈ (d.turn (.single .pump rfl rfl)).effects ∧
      .note .commandDiscarded ∈ (d'.turn (.single .pump rfl rfl)).effects := by
  have same : Act.asked errand = Act.asked disturbedErrand := rfl
  obtain ⟨halike, -, hnext⟩ := leaves_no_trace .standard errand disturbedErrand same
  refine ⟨same, halike, rfl, rfl, (hnext (.receive 0 none) (.receive 0 none) _ rfl rfl).1,
    (hnext (.single .pump rfl rfl) (.single .pump rfl rfl) _ rfl rfl).1,
    List.mem_of_getElem? (i := 4) rfl, List.mem_of_getElem? (i := 4) rfl⟩

end Disturbed

end IntentRouter
