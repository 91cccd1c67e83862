import IntentRouter.Proofs.Remembered

/-!
# What a step does with its request

What a step does depends on the record of its request, on the settings and on the listener, where
one that is gone is as good as none. So it can be told beforehand for every request in the main
lane: a step with another request changes neither the record nor the settings, and detaches no
listener but one that is gone.
-/

namespace IntentRouter

open Effect

/-- The same listener stays attached, or it is gone and is detached. -/
def Surroundings.KeepsListener (around : Surroundings) (before after : Option Nat) : Prop :=
  after = before ∨ ∃ number, before = some number ∧ around.listens number = false ∧ after = none

/-- Whoever listens stays attached. -/
theorem Surroundings.KeepsListener.filter_eq {around : Surroundings} {before after : Option Nat}
    (h : around.KeepsListener before after) :
    after.filter around.listens = before.filter around.listens := by
  obtain rfl | ⟨number, rfl, hgone, rfl⟩ := h
  · rfl
  · rw [Option.filter_some_neg hgone]
    rfl

namespace Router

variable {r : Router} {around : Surroundings} {p q : Request} {pass : Passage}

/-! ## A listener that is gone -/

/-- A part of the step looks at the request alone. -/
def IsLocal (part : Passage → Passage) : Prop :=
  ∃ (next : Request → Request) (effects : Request → List Effect),
    ∀ p, part p = ⟨next p.request, p.listener, p.effects ++ effects p.request⟩

/-- Two passages that differ in their listeners and their reports at most. -/
structure Passage.Agree (p p' : Passage) : Prop where
  /-- The request is the same. -/
  request : p'.request = p.request
  /-- The same goes out. -/
  outputs : outputs p'.effects = outputs p.effects
  /-- The same timers are armed. -/
  armed : armed p'.effects = armed p.effects

theorem Passage.Agree.refl (p : Passage) : p.Agree p := ⟨rfl, rfl, rfl⟩

theorem isLocal_starting (around : Surroundings) (settings : Settings) :
    IsLocal (starting around settings) := by
  refine ⟨fun q => (starting around settings ⟨q, none, []⟩).request,
    fun q => (starting around settings ⟨q, none, []⟩).effects, fun p => ?_⟩
  simp only [starting]
  cases p.request.handler with
  | none => simp only [List.append_nil]
  | some handler =>
    by_cases hrun : around.host.isRunning handler = true
    · simp only [if_pos hrun, List.nil_append]
    · simp only [if_neg hrun, List.nil_append]

theorem isLocal_sending (around : Surroundings) (settings : Settings) :
    IsLocal (sending around settings) := by
  refine ⟨fun q => (sending around settings ⟨q, none, []⟩).request,
    fun q => (sending around settings ⟨q, none, []⟩).effects, fun p => ?_⟩
  simp only [sending]
  cases around.host.connection? (p.request.handler.getD "") <;> simp only [List.nil_append]

/-- A part that looks at the request alone keeps the listener. -/
theorem IsLocal.listener_whenIn {part : Passage → Passage} (h : IsLocal part)
    (state : RequestState) (p : Passage) : (whenIn state part p).listener = p.listener := by
  obtain ⟨next, effects, hpart⟩ := h
  unfold whenIn
  split
  · rw [hpart]
  · rfl

/-- A part that looks at the request alone does the same with passages that agree. -/
theorem IsLocal.agree_whenIn {part : Passage → Passage} (h : IsLocal part)
    (state : RequestState) {p p' : Passage} (hagree : p.Agree p') :
    (whenIn state part p).Agree (whenIn state part p') := by
  obtain ⟨next, effects, hpart⟩ := h
  unfold whenIn
  rw [hagree.request]
  split
  · rw [hpart, hpart]
    constructor
    · simp only [hagree.request]
    · simp only [outputs_append, hagree.request, hagree.outputs]
    · simp only [armed_append, hagree.request, hagree.armed]
  · exact hagree

/-- Choosing with a listener that is gone is choosing without one. -/
theorem agree_choosing (around : Surroundings) (settings : Settings) (q : Request)
    (listener : Option Nat) (effects : List Effect) :
    (choosing around settings ⟨q, listener, effects⟩).Agree
      (choosing around settings ⟨q, listener.filter around.listens, effects⟩) := by
  cases listener with
  | none => exact .refl _
  | some number =>
    by_cases hlive : around.listens number = true
    · rw [Option.filter_some_pos hlive]
      exact .refl _
    · rw [Option.filter_some_neg (Bool.eq_false_iff.mpr hlive)]
      unfold choosing
      by_cases hhandler : q.handler.isSome = true
      · simp only [if_pos hhandler]
        exact ⟨rfl, rfl, rfl⟩
      · simp only [if_neg hhandler, if_neg hlive]
        exact ⟨rfl, by simp only [outputs_append]; rfl, by simp only [armed_append]; rfl⟩

/-- Choosing detaches no listener but one that is gone. -/
theorem keepsListener_choosing (around : Surroundings) (settings : Settings) (p : Passage) :
    around.KeepsListener p.listener (choosing around settings p).listener := by
  unfold choosing
  by_cases hhandler : p.request.handler.isSome = true
  · simp only [if_pos hhandler]
    exact .inl rfl
  · simp only [if_neg hhandler]
    cases hl : p.listener with
    | none => exact .inl rfl
    | some number =>
      by_cases hlive : around.listens number = true
      · simp only [if_pos hlive]
        exact .inl rfl
      · simp only [if_neg hlive]
        exact .inr ⟨number, rfl, Bool.eq_false_iff.mpr hlive, rfl⟩

/-- A step with a listener that is gone is a step without one. -/
theorem agree_advance (around : Surroundings) (settings : Settings) (listener : Option Nat)
    (q : Request) :
    (advance around settings listener q).Agree
      (advance around settings (listener.filter around.listens) q) := by
  refine (isLocal_sending around settings).agree_whenIn _
    ((isLocal_starting around settings).agree_whenIn _ ?_)
  unfold whenIn
  split
  · exact agree_choosing around settings q listener _
  · exact ⟨rfl, rfl, rfl⟩

/-- A step detaches no listener but one that is gone. -/
theorem keepsListener_advance (around : Surroundings) (settings : Settings)
    (listener : Option Nat) (q : Request) :
    around.KeepsListener listener (advance around settings listener q).listener := by
  unfold advance
  rw [(isLocal_sending around settings).listener_whenIn,
    (isLocal_starting around settings).listener_whenIn, whenIn]
  split
  · exact keepsListener_choosing around settings _
  · exact .inl rfl

/-! ## What becomes of the request -/

namespace Passage

/-- What is left of the request in flight after the step. -/
def remains? (p : Passage) : Option Request :=
  if p.request.state = .settled then none else some p.request

/-- What the step returns. -/
def return? (p : Passage) (host : Host) : Option Return :=
  if p.request.state = .settled then some (host.returnOf p.request) else none

/-- What goes out in the step, the reply included. -/
def outs (p : Passage) (host : Host) : List Output :=
  outputs p.effects ++ if p.request.state = .settled then host.parting p.request else []

end Passage

/-- How far a step takes a request, if a listener that is gone is none. -/
def passage (r : Router) (around : Surroundings) (q : Request) : Passage :=
  advance around r.settings (r.liveListener? around) q

/-- What holds after a step with the request `q` that has the given effects. -/
structure Visited (r : Router) (around : Surroundings) (q : Request) (after : Router)
    (effects : List Effect) : Prop where
  /-- The requests are coupled with the lanes. -/
  coupled : Coupled after.requests after.lanes
  /-- The catalog is the same. -/
  catalog : after.catalog = r.catalog
  /-- The settings are the same. -/
  settings : after.settings = r.settings
  /-- The listener is the same, unless it is gone. -/
  listener : after.liveListener? around = r.liveListener? around
  /-- The request has left the main lane. -/
  main : after.lanes.main = r.lanes.main.tail
  /-- Nothing has become of any other request. -/
  requests : after.requests = r.requests.filterMap fun p =>
    if p.id = q.id then (r.passage around p).remains? else some p
  /-- What has been returned is counted. -/
  counters : after.counters =
    r.counters.plus (.tally [] ((r.passage around q).return? around.host).toList)
  /-- What has been returned is remembered. -/
  history : after.history = r.history.recordAll
    (((r.passage around q).return? around.host).toList.map fun x => x.request.id)
  /-- What goes out and which timers are armed. -/
  shows : Shows effects ((r.passage around q).outs around.host) (armed (r.passage around q).effects)
    around.wakes (((r.passage around q).return? around.host).toList.map fun x => x.request.id)

/-- The request is taken as far as can be told beforehand. -/
theorem Steps.agree_passage (hs : r.Steps around p pass) : pass.Agree (r.passage around p) := by
  rw [← hs.pass_eq]
  exact agree_advance around r.settings r.listener p

/-- A step returns what can be told beforehand. -/
theorem Steps.return?_eq (hs : r.Steps around p pass) (h : Coupled r.requests r.lanes) :
    (r.passage around p).return? around.host = r.returned? around := by
  rw [Passage.return?, hs.agree_passage.request, hs.returned?_eq h]

/-- Replacing a record by what is left of it. -/
theorem replaceIn_eq_filterMap {requests : List Request} (hid : q.id = p.id) :
    q.replaceIn requests = requests.filterMap fun x => if x.id = p.id then some q else some x := by
  rw [Request.replaceIn, ← List.filterMap_eq_map]
  refine List.filterMap_congr fun x _ => ?_
  rw [Function.comp_apply, hid]
  split <;> rfl

/-- Dropping a record of which nothing is left. -/
theorem filter_eq_filterMap (requests : List Request) (id : RequestId) :
    (requests.filter fun x => x.id ≠ id) =
      requests.filterMap fun x => if x.id = id then none else some x := by
  rw [← List.filterMap_eq_filter]
  refine List.filterMap_congr fun x _ => ?_
  by_cases he : x.id = id <;> simp [Option.guard, he]

/-- A step leaves the requests coupled with the lanes. -/
theorem coupled_process (around : Surroundings) (h : Coupled r.requests r.lanes) :
    Coupled (r.process around).state.requests (r.process around).state.lanes :=
  (changes_process h).1

/-- A step detaches no listener but one that is gone. -/
theorem Steps.keepsListener (hs : r.Steps around p pass) :
    around.KeepsListener r.listener pass.listener := by
  rw [← hs.pass_eq]
  exact keepsListener_advance around r.settings r.listener p

/-- What holds after a step. -/
theorem Steps.visited (hs : r.Steps around p pass) (h : Coupled r.requests r.lanes) :
    r.Visited around p (r.process around).state (r.process around).effects := by
  have hagree := hs.agree_passage
  have hway := hs.onWay h
  have hlistener := hs.keepsListener.filter_eq
  have hmain : (r.lanes.parted .main p.id).main = r.lanes.main.tail := by
    obtain ⟨rest, hrest⟩ := List.head?_eq_some_iff.mp hs.next
    have herase : (r.lanes.parted .main p.id).main = r.lanes.main.erase p.id :=
      r.lanes.get_parted .main .main p.id
    rw [herase, hrest, List.erase_cons_head, List.tail_cons]
  -- There is one record of the name, so looking at every record is looking at this one.
  have hrequests : r.requests.filterMap (fun x =>
        if x.id = p.id then (r.passage around x).remains? else some x) =
      r.requests.filterMap fun x =>
        if x.id = p.id then (r.passage around p).remains? else some x := by
    refine List.filterMap_congr fun x hx => ?_
    by_cases he : x.id = p.id
    · rw [h.eq_of_id hx hs.known he]
    · rw [if_neg he, if_neg he]
  have hcounters := counters_process h around
  have hhistory := history_process h around
  have hended := ended_process h around
  have hcoupled := coupled_process around h
  rw [← hs.return?_eq h] at hcounters hhistory hended
  rcases hs.waits_or_settled h with ⟨stage, hw⟩ | hq
  · have hne := RequestState.ne_settled_of_stage hw
    have hremains : (r.passage around p).remains? = some pass.request := by
      rw [Passage.remains?, hagree.request, if_neg hne]
    have houts : (r.passage around p).outs around.host = outputs pass.effects := by
      rw [Passage.outs, hagree.request, if_neg hne, hagree.outputs, List.append_nil]
    have hjoined : ((r.lanes.parted .main p.id).joined stage.lane p.id).main =
        (r.lanes.parted .main p.id).main := by
      cases stage <;> rfl
    have hshows : Shows pass.effects (outputs pass.effects) (armed pass.effects) [] [] :=
      ⟨rfl, rfl, hway.posted, hway.ended⟩
    have hall := hshows.before_wake around
    rw [process_of_waits hs h hw] at hcounters hhistory hended hcoupled ⊢
    refine ⟨hcoupled, rfl, rfl, hlistener, hjoined.trans hmain, ?_, hcounters, hhistory, ?_⟩
    · rw [hrequests, hremains]
      exact replaceIn_eq_filterMap hway.id_eq
    · rw [houts, hagree.armed]
      exact ⟨hall.outputs, hall.armed, hall.posted, hended⟩
  · have hremains : (r.passage around p).remains? = none := by
      rw [Passage.remains?, hagree.request, if_pos hq]
    have hsilent := hway.silent (by rw [hq]; rfl)
    have houts : (r.passage around p).outs around.host = around.host.parting pass.request := by
      rw [Passage.outs, hagree.request, if_pos hq, hagree.outputs, hsilent.outputs,
        List.nil_append]
    have hall := ((around.host.takeBack_shows pass.request).after_silent hsilent).before_wake around
    rw [process_of_settled hs h hq] at hcounters hhistory hended hcoupled ⊢
    refine ⟨hcoupled, rfl, rfl, hlistener, hmain, ?_, hcounters, hhistory, ?_⟩
    · rw [hrequests, hremains]
      exact filter_eq_filterMap r.requests p.id
    · rw [houts, hagree.armed, hsilent.armed]
      exact ⟨hall.outputs, hall.armed, hall.posted, hended⟩

end Router

end IntentRouter
