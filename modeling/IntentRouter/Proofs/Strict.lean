import IntentRouter.Proofs.Run

/-!
# A router that checks what it takes for granted

A router takes a good deal for granted: that whoever joins a lane stands in none, that whoever has
left one is in flight, that a request has candidates, gets its handler once and its outcome once,
and has a handler where it needs one. Where any of this failed the router would go on in silence,
with a request that stands nowhere or is lost.

A strict router does the same, but looks before each of these steps and breaks off with the reason
where it finds something else. In no run does it ever break off, whatever is asked and whatever
forged events are handled: it does what the router does, call by call.
-/

namespace IntentRouter

/-- Something that a router takes for granted and that is not so. -/
inductive Breach where
  /-- A request that joins a lane stands in one already. -/
  | alreadyQueued (id : RequestId)
  /-- A request that is next in line, or has left a lane, is not in flight. -/
  | notInFlight (id : RequestId)
  /-- A request is admitted without candidates. -/
  | noCandidates (id : RequestId)
  /-- A request gets a second handler. -/
  | chosenTwice (id : RequestId)
  /-- A request has no handler where it needs one. -/
  | noHandler (id : RequestId)
  /-- A request is settled a second time. -/
  | settledTwice (id : RequestId)
  /-- A request is as it was before its handler was to be chosen. -/
  | undecided (id : RequestId)
deriving DecidableEq, Repr

namespace Strict

open Router (Passage Submission timer)

/-! ## What is checked -/

/-- A request that has to be in flight. -/
def find (r : Router) (id : RequestId) : Except Breach Request :=
  (r.request? id).elim (.error (.notInFlight id)) .ok

/-- Joins a lane, which has to succeed. -/
def join (lanes : Lanes RequestId) (lane : Lane) (id : RequestId) :
    Except Breach (Lanes RequestId) :=
  (lanes.join? lane id).elim (.error (.alreadyQueued id)) .ok

/-- Admits a request, which has to have candidates. -/
def admitted (id : RequestId) (created : Timestamp) (requester intentId : String)
    (candidates : List Intent) (parameters : Json.Parameters) : Except Breach Request :=
  if candidates.isEmpty then .error (.noCandidates id)
  else .ok (.admitted id created requester intentId candidates parameters)

/-- Chooses the handler of a request, which must not have one. -/
def choose (q : Request) (handler : String) : Except Breach Request :=
  if q.handler.isSome then .error (.chosenTwice q.id) else .ok (q.choose handler)

/-- The handler of a request, which has to have one. -/
def handlerOf (q : Request) : Except Breach String :=
  q.handler.elim (.error (.noHandler q.id)) .ok

/-- Settles a request, which must not have an outcome. -/
def settle (q : Request) (o : Outcome) : Except Breach Request :=
  if q.outcome.isSome then .error (.settledTwice q.id) else .ok (q.settle o)

/-- A request whose handler was to be chosen, which must not be as it was. -/
def decided (p : Passage) : Except Breach Passage :=
  if p.request.state = .received then .error (.undecided p.request.id) else .ok p

/-! ## The operations with their checks -/

/-- Lets a request join the main lane and asks for a step. -/
def joinMain (r : Router) (around : Surroundings) (id : RequestId) :
    Except Breach (Turn Router Unit) := do
  let q ← find r id
  let lanes ← join r.lanes .main id
  return ⟨(), { r with lanes := lanes }, [.about id (.joining q.state), Router.wake around]⟩

/-- Settles a request in flight as a failure and lets it join the main lane. -/
def abandon (r : Router) (around : Surroundings) (id : RequestId) (message : String) :
    Except Breach (Turn Router Unit) := do
  let q ← find r id
  let failed ← settle q (.failed message)
  joinMain (r.update failed) around id

/-- Admits a submission under a fresh name, or refuses it. -/
def submit (r : Router) (around : Surroundings) (id : RequestId) (now : Timestamp)
    (s : Submission) : Except Breach (Turn Router (Except Refusal Request)) :=
  let (decision, report) := r.assess around.host s
  let before := .note (.incoming s.intentId s.requester (s.target.getD "")) :: report.map .note
  match decision with
  | .ok candidates => do
    let q ← admitted id now s.requester s.intentId candidates s.parameters
    let t ← joinMain
      { r with
        requests := r.requests ++ [q]
        counters := { r.counters with submitted := r.counters.submitted + 1 } } around id
    return (t.map fun _ => .ok q).after before
  | .error reason =>
    .ok ⟨.error reason,
      { r with counters := { r.counters with rejected := r.counters.rejected + 1 } },
      before ++ [.note (.rejected reason)]⟩

/-- Takes a request to which the owner of its first candidate becomes the handler. -/
def chooseFirst (q : Request) : Except Breach (Request × List Effect) := do
  let chosen ← match q.candidates with
    | first :: _ => choose q first.owner
    | [] => .ok q
  return if chosen.handler.isSome then (chosen.moveTo .chosen, [.about q.id .choiceMade])
    else (chosen, [])

/-- From admission to a chosen handler, or to a question to the listener. -/
def picking (around : Surroundings) (settings : Settings) (p : Passage) :
    Except Breach Passage :=
  let q := p.request
  if q.handler.isSome then
    .ok { p with
      request := q.moveTo .chosen
      effects := p.effects ++ [.about q.id .choiceMade] }
  else match p.listener with
    | none => do
      let (chosen, effects) ← chooseFirst q
      return { p with request := chosen, effects := p.effects ++ effects }
    | some listener =>
      if around.listens listener then
        .ok { p with
          request := q.moveTo .awaitingChoice
          effects := p.effects ++ [.offer listener (.ofRequest q),
            .about q.id (.awaitingChoice q.intentId), timer settings .choice q.id] }
      else do
        let (chosen, effects) ← chooseFirst q
        return ⟨chosen, none, p.effects ++ .about q.id .listenerGone :: effects⟩

/-- The same, after which the request must not be as it was. -/
def choosing (around : Surroundings) (settings : Settings) (p : Passage) :
    Except Breach Passage := do
  let passed ← picking around settings p
  decided passed

/-- From a chosen handler to a running one, or to its start. -/
def starting (around : Surroundings) (settings : Settings) (p : Passage) :
    Except Breach Passage := do
  let q := p.request
  let handler ← handlerOf q
  if around.host.isRunning handler then
    return { p with
      request := q.moveTo .started
      effects := p.effects ++ [.about q.id (.handlerRunning handler)] }
  else
    return { p with
      request := q.moveTo .awaitingStart
      effects := p.effects ++ [.about q.id (.handlerNotRunning handler),
        timer settings .start q.id, around.host.issue (.start handler)] }

/-- From a running handler to a request in its hands, or to a failure. -/
def sending (around : Surroundings) (settings : Settings) (p : Passage) :
    Except Breach Passage := do
  let q := p.request
  let handler ← handlerOf q
  match around.host.connection? handler with
  | none => do
    let failed ← settle q (.failed Router.noChannelMessage)
    return { p with
      request := failed
      effects := p.effects ++ [.about q.id (.handlerUnreachable handler)] }
  | some channel =>
    let sent := q.moveTo .awaitingReply
    return { p with
      request := sent
      effects := p.effects ++ [.about q.id (.sending handler), timer settings .reply q.id,
        around.host.issue (.deliverRequest channel sent)] }

/-- Applies a part of the step to a request in the given state. -/
def whenIn (state : RequestState) (part : Passage → Except Breach Passage) (p : Passage) :
    Except Breach Passage :=
  if p.request.state = state then part p else .ok p

/-- How far a request goes in one step. -/
def advance (around : Surroundings) (settings : Settings) (listener : Option Nat) (q : Request) :
    Except Breach Passage := do
  let p ← whenIn .received (choosing around settings)
    ⟨q, listener, [.about q.id (.processing q.state)]⟩
  let p ← whenIn .chosen (starting around settings) p
  whenIn .started (sending around settings) p

/-- Puts a request where its state belongs after a step. -/
def conclude (r : Router) (around : Surroundings) (q : Request) :
    Except Breach (Turn Router Unit) :=
  match q.state.stage? with
  | some stage => do
    let lanes ← join r.lanes stage.lane q.id
    return .quiet () { r.update q with lanes := lanes }
  | none =>
    .ok (if q.state = .settled then r.deliver around q else .quiet () (r.update q))

/-- Makes one step with the next request in the main lane. -/
def process (r : Router) (around : Surroundings) : Except Breach (Turn Router Unit) :=
  match r.lanes.takeNext? with
  | none => .ok (.quiet () r)
  | some (id, lanes) => do
    let r := { r with lanes := lanes }
    let q ← find r id
    let p ← advance around r.settings r.listener q
    let t ← conclude { r with listener := p.listener } around p.request
    return { t with effects := p.effects ++ t.effects ++ [Router.wake around] }

/-- A timer has run out. -/
def timeOut (r : Router) (around : Surroundings) (stage : Stage) (id : RequestId) (millis : Nat) :
    Except Breach (Turn Router Unit) :=
  match r.endWait? stage id with
  | none => .ok ⟨(), r, [.about id (.staleTimer stage)]⟩
  | some left => do
    let t ← abandon left around id (stage.timeoutMessage millis)
    return t.after [.about id (.timedOut stage millis)]

/-- The listener has chosen. -/
def resolve (r : Router) (around : Surroundings) (id : RequestId) (selected : Intent) :
    Except Breach (Turn Router (Except Refusal Unit)) :=
  match r.endWait? .choice id with
  | none => .ok ⟨.error (.notPending id), r, [.about id .unexpectedChoice]⟩
  | some left => do
    let q ← find left id
    if q.candidates.any fun i => i.same selected then
      let chosen ← choose q selected.owner
      let t ← joinMain (left.update (chosen.moveTo .chosen)) around id
      return t.map .ok
    else
      let t ← abandon left around id Router.invalidChoiceMessage
      return (t.map .ok).after [.about id (.notCandidate selected.name)]

/-- The listener has rejected all candidates. -/
def reject (r : Router) (around : Surroundings) (id : RequestId) :
    Except Breach (Turn Router (Except Refusal Unit)) :=
  match r.endWait? .choice id with
  | none => .ok ⟨.error (.notPending id), r, [.about id .unexpectedRejection]⟩
  | some left => do
    let t ← abandon left around id Router.rejectedMessage
    return t.map .ok

/-- Moves a request whose handler has started back to the main lane. -/
def release (application : String) (t : Turn Router Unit) (id : RequestId) :
    Except Breach (Turn Router Unit) := do
  let q ← find t.state id
  let lanes ← join t.state.lanes .main id
  return { t with
    state := { t.state.update (q.moveTo .started) with lanes := lanes }
    effects := t.effects ++ [.about id (.released application)] }

/-- An application has started. -/
def announceStart (r : Router) (around : Surroundings) (application : String) :
    Except Breach (Turn Router Nat) := do
  let (released, lanes) := r.lanes.extract .starting (r.handledBy application)
  let t ← released.foldlM (release application) (.quiet () { r with lanes := lanes })
  return ⟨released.length, t.state,
    t.effects ++ if released = [] then [] else [Router.wake around]⟩

/-- What a reply makes of a request. -/
def settleBy (q : Request) (application : String) (isError : Bool) (payload : Json.Parameters) :
    Except Breach (Request × RequestNote) := do
  let handler ← handlerOf q
  if handler ≠ application then
    let settled ← settle q (.failed Router.wrongReplierMessage)
    return (settled, .wrongReplier application handler)
  else if isError then
    let message := ((payload.get? Router.errorMessageName).bind Json.Value.str?).getD
      Router.handlerErrorMessage
    let settled ← settle q (.failed message)
    return (settled, .errorReply application message)
  else
    let settled ← settle q (.succeeded payload)
    return (settled, .reply application)

/-- An application has replied to a request. -/
def reply (r : Router) (around : Surroundings) (application : String) (id : RequestId)
    (isError : Bool) (payload : Json.Parameters) :
    Except Breach (Turn Router (Except Refusal Unit)) :=
  match r.endWait? .reply id with
  | none =>
    let note := if r.history.contains id then .lateReply application
      else .unexpectedReply application
    .ok ⟨.error (.notPending id), r, [.about id note]⟩
  | some left => do
    let q ← find left id
    let (settled, note) ← settleBy q application isError payload
    let t ← joinMain (left.update settled) around id
    return (t.map .ok).after [.about id note]

/-- Handles an event that was posted earlier. -/
def handle (r : Router) (around : Surroundings) :
    ScheduledEvent → Except Breach (Turn Router Unit)
  | .process => process r around
  | .timeout stage id millis => timeOut r around stage id millis

/-- Carries out a call. What is asked without any check is answered as ever. -/
def perform (r : Router) (around : Surroundings) :
    RouterCall → Except Breach (Turn Router Answer)
  | .submit id now s =>
    (submit r around id now s).map (Turn.map (Answer.ofExcept fun q => .request (some q)))
  | .resolve id selected =>
    (resolve r around id selected).map (Turn.map (Answer.ofExcept fun _ => .done))
  | .reject id => (reject r around id).map (Turn.map (Answer.ofExcept fun _ => .done))
  | .reply application id isError payload =>
    (reply r around application id isError payload).map
      (Turn.map (Answer.ofExcept fun _ => .done))
  | .announceStart application => (announceStart r around application).map (Turn.map .count)
  | .process => (process r around).map (Turn.map fun _ => .nothing)
  | .handle event => (handle r around event).map (Turn.map fun _ => .nothing)
  | call => .ok (r.perform around call)

/-- What comes of a move. The catalog checks everything itself. -/
def turn (m : Move) (r : Router) : Except Breach (Turn Router Answer) :=
  match m.ask with
  | .router call => perform r m.around call
  | .catalog _ => .ok (m.turn r)

/-- The router after some moves, if no check has failed. -/
def play (r : Router) (moves : List Move) : Except Breach Router :=
  moves.foldlM (fun r m => (turn m r).map Turn.state) r

/-! ## When a check passes -/

variable {r left : Router} {around : Surroundings} {settings : Settings} {p q : Request}
  {pass : Passage} {id : RequestId} {stage : Stage}

theorem find_eq (h : r.request? id = some q) : find r id = .ok q := by
  rw [find, h]
  rfl

theorem join_eq {lanes : Lanes RequestId} (absent : ∀ lane, id ∉ lanes.get lane) (lane : Lane) :
    join lanes lane id = .ok (lanes.joined lane id) := by
  rw [join, Lanes.join?_eq_some absent]
  rfl

theorem choose_eq (h : q.handler = none) (handler : String) :
    choose q handler = .ok (q.choose handler) := by
  rw [choose, h]
  rfl

theorem handlerOf_eq {handler : String} (h : q.handler = some handler) :
    handlerOf q = .ok handler := by
  rw [handlerOf, h]
  rfl

theorem settle_eq (h : q.outcome = none) (o : Outcome) : settle q o = .ok (q.settle o) := by
  rw [settle, h]
  rfl

/-- A record that has been put in the place of another is found there. -/
theorem request?_update (h : r.request? p.id = some p) (hid : q.id = p.id) :
    (r.update q).request? p.id = some q := by
  have hsame : ((fun x : Request => decide (x.id = p.id)) ∘
      fun x => if x.id = q.id then q else x) = fun x => decide (x.id = p.id) := by
    funext x
    by_cases he : x.id = q.id
    · rw [Function.comp_apply, if_pos he, he]
    · rw [Function.comp_apply, if_neg he]
  rw [Router.request?] at h
  rw [Router.request?, Router.update, List.find?_map, hsame, h, Option.map_some, if_pos hid.symm]

/-! ## Joining the main lane again -/

/-- Whoever is in flight and stands nowhere joins the main lane. -/
theorem joinMain_eq (around : Surroundings) (known : r.request? id = some q)
    (absent : ∀ lane, id ∉ r.lanes.get lane) :
    joinMain r around id = .ok (r.joinMain around id) := by
  have hjoin := Lanes.join?_eq_some absent .main
  rw [joinMain, find_eq known, join_eq absent, Router.joinMain, known, hjoin]
  rfl

/-- A record of whoever has left its lane joins the main lane. -/
theorem joinMain_update_eq (around : Surroundings) (known : left.request? p.id = some p)
    (absent : ∀ lane, p.id ∉ left.lanes.get lane) (hid : q.id = p.id) :
    joinMain (left.update q) around p.id = .ok ((left.update q).joinMain around p.id) :=
  joinMain_eq around (request?_update known hid) absent

/-- Whoever has left its lane without an outcome is settled. -/
theorem abandon_eq (around : Surroundings) (known : left.request? p.id = some p)
    (absent : ∀ lane, p.id ∉ left.lanes.get lane) (unsettled : p.outcome = none)
    (message : String) :
    abandon left around p.id message = .ok (left.abandon around p.id message) := by
  have hjoin := joinMain_update_eq around known absent (q := p.fail message) rfl
  rw [abandon, find_eq known]
  simp only [bind, Except.bind, settle_eq unsettled]
  rw [Router.abandon_eq around known]
  exact hjoin

/-! ## What ends a wait -/

/-- Whoever leaves the lane of its stage is in flight and stands nowhere then. -/
theorem exists_left (h : Coupled r.requests r.lanes) (hp : p ∈ r.requests)
    (hw : p.state.stage? = some stage) :
    ∃ left, r.endWait? stage p.id = some left ∧ left.request? p.id = some p ∧
      ∀ lane, p.id ∉ left.lanes.get lane := by
  obtain ⟨left, hend, rfl, hfind⟩ := Router.endWait?_eq_some h hp hw
  exact ⟨_, hend, hfind, h.absent_parted hp⟩

/-- A reply settles a request that has a handler and no outcome. -/
theorem settleBy_eq {handler : String} (chosen : q.handler = some handler)
    (unsettled : q.outcome = none) (application : String) (isError : Bool)
    (payload : Json.Parameters) :
    settleBy q application isError payload =
      .ok (Router.settleBy q application isError payload) := by
  simp only [settleBy, handlerOf_eq chosen, bind, Except.bind, pure, Except.pure,
    settle_eq unsettled, Router.settleBy, chosen]
  by_cases hwrong : handler = application
  · cases isError <;> simp [hwrong, Request.fail]
  · simp [hwrong, Request.fail]

/-- A timer finds the request that it ends the wait of. -/
theorem timeOut_eq (h : Coupled r.requests r.lanes) (around : Surroundings) (stage : Stage)
    (id : RequestId) (millis : Nat) :
    timeOut r around stage id millis = .ok (r.timeOut around stage id millis) := by
  by_cases hw : r.Waits stage id
  · obtain ⟨p, hp, rfl, hstage⟩ := hw
    obtain ⟨left, hend, hfind, habsent⟩ := exists_left h hp hstage
    have hopen := (h.sound p hp).outcome_none (RequestState.ne_settled_of_stage hstage)
    simp only [timeOut, hend, abandon_eq around hfind habsent hopen, bind, Except.bind, pure,
      Except.pure, Router.timeOut]
  · simp only [timeOut, Router.endWait?_eq_none h hw, Router.timeOut]

/-- So does a choice, and its request has neither a handler nor an outcome. -/
theorem resolve_eq (h : Coupled r.requests r.lanes) (around : Surroundings) (id : RequestId)
    (selected : Intent) :
    resolve r around id selected = .ok (r.resolve around id selected) := by
  by_cases hw : r.Waits .choice id
  · obtain ⟨p, hp, rfl, hstage⟩ := hw
    obtain ⟨left, hend, hfind, habsent⟩ := exists_left h hp hstage
    have hstate := RequestState.stage?_eq_some.mp hstage
    have hopen := (h.sound p hp).outcome_none (RequestState.ne_settled_of_stage hstage)
    have hnone := (h.sound p hp).unhandled (by rw [hstate]; rfl)
    have hjoin := joinMain_update_eq around hfind habsent
      (q := (p.choose selected.owner).moveTo .chosen) rfl
    simp only [resolve, hend, find_eq hfind, choose_eq hnone, bind, Except.bind, pure, Except.pure,
      Router.resolve, hfind]
    by_cases hany : (p.candidates.any fun i => i.same selected) = true
    · simp only [if_pos hany, hjoin]
    · simp only [if_neg hany, abandon_eq around hfind habsent hopen]
  · simp only [resolve, Router.endWait?_eq_none h hw, Router.resolve]

/-- So does a rejection, and its request has no outcome. -/
theorem reject_eq (h : Coupled r.requests r.lanes) (around : Surroundings) (id : RequestId) :
    reject r around id = .ok (r.reject around id) := by
  by_cases hw : r.Waits .choice id
  · obtain ⟨p, hp, rfl, hstage⟩ := hw
    obtain ⟨left, hend, hfind, habsent⟩ := exists_left h hp hstage
    have hopen := (h.sound p hp).outcome_none (RequestState.ne_settled_of_stage hstage)
    simp only [reject, hend, abandon_eq around hfind habsent hopen, bind, Except.bind, pure,
      Except.pure, Router.reject]
  · simp only [reject, Router.endWait?_eq_none h hw, Router.reject]

/-- So does a reply, and its request has a handler and no outcome. -/
theorem reply_eq (h : Coupled r.requests r.lanes) (around : Surroundings) (application : String)
    (id : RequestId) (isError : Bool) (payload : Json.Parameters) :
    reply r around application id isError payload =
      .ok (r.reply around application id isError payload) := by
  by_cases hw : r.Waits .reply id
  · obtain ⟨p, hp, rfl, hstage⟩ := hw
    obtain ⟨left, hend, hfind, habsent⟩ := exists_left h hp hstage
    have hstate := RequestState.stage?_eq_some.mp hstage
    have hopen := (h.sound p hp).outcome_none (RequestState.ne_settled_of_stage hstage)
    obtain ⟨handler, hhandler⟩ :=
      Option.isSome_iff_exists.mp ((h.sound p hp).handled (by rw [hstate]; rfl))
    obtain ⟨outcome, hsettled⟩ := (Router.settleBy_spec p application isError payload).1
    have hjoin := joinMain_update_eq around hfind habsent
      (q := (Router.settleBy p application isError payload).1) (by rw [hsettled]; rfl)
    simp only [reply, hend, find_eq hfind, settleBy_eq hhandler hopen, hjoin, bind, Except.bind,
      pure, Except.pure, Router.reply, hfind]
  · simp only [reply, Router.endWait?_eq_none h hw, Router.reply]

/-! ## The start of an application -/

/-- Whoever is in flight and stands nowhere is released. -/
theorem release_eq (application : String) {t : Turn Router Unit}
    (known : t.state.request? id = some q)
    (absent : ∀ lane, id ∉ t.state.lanes.get lane) :
    release application t id = .ok (Router.release application t id) := by
  have hjoin := Lanes.join?_eq_some absent .main
  have hlanes : (t.state.update (q.moveTo .started)).lanes = t.state.lanes := rfl
  simp only [release, find_eq known, join_eq absent, bind, Except.bind, pure, Except.pure,
    Router.release, known, hlanes, hjoin, Option.getD_some]

/-- Requests in flight that stand nowhere are released one after another. -/
theorem foldlM_release (application : String) {ids : List RequestId} (once : ids.Nodup) :
    ∀ {t : Turn Router Unit}, (t.state.requests.map Request.id).Nodup →
      (∀ id ∈ ids, ∃ q ∈ t.state.requests, q.id = id) →
      (∀ id ∈ ids, ∀ lane, id ∉ t.state.lanes.get lane) →
      ids.foldlM (release application) t = .ok (ids.foldl (Router.release application) t) := by
  induction ids with
  | nil => exact fun _ _ _ => rfl
  | cons id rest ih =>
    intro t names known absent
    obtain ⟨hid, hrest⟩ := List.nodup_cons.mp once
    obtain ⟨p, hp, rfl⟩ := known id List.mem_cons_self
    have hfind := Router.request?_eq_some (r := t.state) names hp
    -- What the release of the first leaves behind is known from the release of all.
    have hfirst := Router.foldl_release application (List.nodup_singleton p.id) (t := t) names
      (fun id hmem => List.mem_singleton.mp hmem ▸ known _ List.mem_cons_self)
      (fun id hmem => List.mem_singleton.mp hmem ▸ absent _ List.mem_cons_self)
    rw [List.foldl_cons, List.foldl_nil] at hfirst
    rw [List.foldlM_cons, release_eq application hfind (absent p.id List.mem_cons_self),
      List.foldl_cons]
    refine ih hrest ?_ ?_ ?_
    · rw [hfirst, List.map_map]
      refine (List.map_congr_left fun q _ => ?_) ▸ names
      rw [Function.comp_apply]
      split <;> rfl
    · intro other hother
      obtain ⟨q, hq, rfl⟩ := known other (List.mem_cons_of_mem _ hother)
      rw [hfirst]
      refine ⟨_, List.mem_map_of_mem hq, ?_⟩
      split <;> rfl
    · intro other hother lane hmem
      rw [hfirst] at hmem
      have hjoined : other ∈ (t.state.lanes.joined .main p.id).get lane := hmem
      rw [Lanes.mem_joined] at hjoined
      rcases hjoined with hold | ⟨he, -⟩
      · exact absent other (List.mem_cons_of_mem _ hother) lane hold
      · exact hid (he ▸ hother)

/-- The start of an application finds all requests that wait for it. -/
theorem announceStart_eq (h : Coupled r.requests r.lanes) (around : Surroundings)
    (application : String) :
    announceStart r around application = .ok (r.announceStart around application) := by
  have honce : (r.awaiting application).Nodup := (h.once .starting).filter _
  have hknown := fun id (hid : id ∈ r.awaiting application) => Router.exists_of_mem_awaiting h hid
  have habsent := fun id (hid : id ∈ r.awaiting application) => Router.absent_of_mem_awaiting h hid
  have hfold := foldlM_release application honce
    (t := ⟨(), { r with lanes := (r.lanes.extract .starting (r.handledBy application)).2 }, []⟩)
    h.names hknown habsent
  exact congrArg (fun x => x.bind fun t : Turn Router Unit =>
    .ok (⟨(r.awaiting application).length, t.state,
      t.effects ++ if r.awaiting application = [] then [] else [Router.wake around]⟩ :
        Turn Router Nat)) hfold

/-! ## A step -/

/-- The first candidate of a request without a handler is chosen. -/
theorem chooseFirst_eq (unchosen : q.handler = none) (first : Intent) (rest : List Intent)
    (hc : q.candidates = first :: rest) : chooseFirst q = .ok (Router.chooseFirst q) := by
  rw [Router.chooseFirst_eq unchosen first rest hc, chooseFirst, hc]
  simp only [choose_eq unchosen, bind, Except.bind, pure, Except.pure]
  rw [if_pos (by rw [Request.choose, unchosen]; rfl)]

/-- A request that has been admitted has candidates and no handler. -/
theorem picking_eq (around : Surroundings) (settings : Settings) (pass : Passage)
    (hsound : pass.request.Sound) (hs : pass.request.state = .received) :
    picking around settings pass = .ok (Router.choosing around settings pass) := by
  have hnone : pass.request.handler = none := hsound.unhandled (by rw [hs]; rfl)
  obtain ⟨first, rest, hc⟩ := List.exists_cons_of_ne_nil hsound.candidates
  have hfirst := chooseFirst_eq hnone first rest hc
  simp only [picking, Router.choosing, hnone, Option.isSome_none, Bool.false_eq_true, if_false]
  cases pass.listener with
  | none => simp only [hfirst, bind, Except.bind, pure, Except.pure]
  | some listener =>
    by_cases hlive : around.listens listener = true
    · simp only [if_pos hlive]
    · simp only [if_neg hlive, hfirst, bind, Except.bind, pure, Except.pure]

/-- Choosing leaves no request as it was. -/
theorem choosing_eq (h : pass.OnWay around settings q) (hs : pass.request.state = .received) :
    choosing around settings pass = .ok (Router.choosing around settings pass) := by
  have hdecided : (Router.choosing around settings pass).request.state ≠ .received := by
    rcases (Router.onWay_choosing h hs).2 with hin | hin <;> rw [hin] <;> decide
  rw [choosing, picking_eq around settings pass h.sound hs]
  exact if_neg hdecided

/-- A chosen request has its handler when that is to be started. -/
theorem starting_eq (h : pass.OnWay around settings q) (hs : pass.request.state = .chosen) :
    starting around settings pass = .ok (Router.starting around settings pass) := by
  obtain ⟨handler, hh⟩ := Option.isSome_iff_exists.mp (h.sound.handled (by rw [hs]; rfl))
  simp only [starting, handlerOf_eq hh, bind, Except.bind, pure, Except.pure, Router.starting, hh]
  split <;> rfl

/-- A request that is to be sent has its handler, and no outcome. -/
theorem sending_eq (h : pass.OnWay around settings q) (hs : pass.request.state = .started) :
    sending around settings pass = .ok (Router.sending around settings pass) := by
  obtain ⟨handler, hh⟩ := Option.isSome_iff_exists.mp (h.sound.handled (by rw [hs]; rfl))
  have hopen := h.sound.outcome_none (by rw [hs]; decide)
  simp only [sending, handlerOf_eq hh, bind, Except.bind, pure, Except.pure, Router.sending, hh,
    Option.getD_some]
  cases around.host.connection? handler with
  | none =>
    simp only [settle_eq hopen]
    rfl
  | some channel => rfl

/-- A part of the step passes its checks if it does so in its own state. -/
theorem whenIn_eq (h : pass.OnWay around settings q) (state : RequestState)
    {part : Passage → Except Breach Passage} {real : Passage → Passage}
    (hpart : pass.request.state = state →
      part pass = .ok (real pass) ∧ (real pass).OnWay around settings q) :
    whenIn state part pass = .ok (Router.whenIn state real pass) ∧
      (Router.whenIn state real pass).OnWay around settings q := by
  unfold whenIn Router.whenIn
  by_cases hs : pass.request.state = state
  · rw [if_pos hs, if_pos hs]
    exact hpart hs
  · rw [if_neg hs, if_neg hs]
    exact ⟨rfl, h⟩

/-- A step takes a sound request from the main lane as far as it gets. -/
theorem advance_eq (around : Surroundings) (settings : Settings) (listener : Option Nat)
    (hq : q.Sound) (hlane : q.state.lane = .main) :
    advance around settings listener q = .ok (Router.advance around settings listener q) := by
  have hstart := Router.onWay_start around settings listener hq (RequestState.lane_eq_main.mp hlane)
  obtain ⟨hreceived, hway⟩ := whenIn_eq hstart .received fun hs =>
    ⟨choosing_eq hstart hs, (Router.onWay_choosing hstart hs).1⟩
  obtain ⟨hchosen, hnear⟩ := whenIn_eq hway .chosen fun hs =>
    ⟨starting_eq hway hs, (Router.onWay_starting hway hs).1⟩
  obtain ⟨hsent, -⟩ := whenIn_eq hnear .started fun hs =>
    ⟨sending_eq hnear hs, (Router.onWay_sending hnear hs).1⟩
  simp only [advance, hreceived, hchosen, hsent, bind, Except.bind]
  rfl

/-- After a step a request that waits joins the lane of its stage. -/
theorem conclude_eq (around : Surroundings) (absent : ∀ lane, q.id ∉ r.lanes.get lane) :
    conclude r around q = .ok (r.conclude around q) := by
  unfold conclude Router.conclude
  cases q.state.stage? with
  | none => rfl
  | some stage =>
    simp only [join_eq absent, Lanes.join?_eq_some absent, Option.getD_some, bind, Except.bind,
      pure, Except.pure]

/-- A step finds the request that is next in line. -/
theorem process_eq (h : Coupled r.requests r.lanes) (around : Surroundings) :
    process r around = .ok (r.process around) := by
  rcases Router.idle_or_steps h around with hmain | ⟨p, pass, hs⟩
  · simp only [process, Router.process, Lanes.takeNext?_eq_none hmain]
  · obtain ⟨rest, hmain⟩ := List.head?_eq_some_iff.mp hs.next
    have hfind : ({ r with lanes := r.lanes.parted .main p.id } : Router).request? p.id = some p :=
      Router.request?_eq_some (r := r) h.names hs.known
    have hadvance := advance_eq around r.settings r.listener (h.sound p hs.known) hs.ready
    have habsent : ∀ lane, pass.request.id ∉ (r.lanes.parted .main p.id).get lane := by
      rw [(hs.onWay h).id_eq]
      exact hs.absent h
    have hconclude := conclude_eq around (q := pass.request)
      (r := { r with lanes := r.lanes.parted .main p.id, listener := pass.listener }) habsent
    rw [hs.pass_eq] at hadvance
    simp only [process, Router.process, Lanes.takeNext?_eq hmain, find_eq hfind, hfind, hadvance,
      hs.pass_eq, hconclude, bind, Except.bind, pure, Except.pure]

/-! ## Admission -/

/-- A request with a new name is found under that name. -/
theorem find?_concat {requests : List Request} (fresh : ∀ p ∈ requests, p.id ≠ q.id) :
    (requests ++ [q]).find? (fun p => p.id = q.id) = some q := by
  have hnone : requests.find? (fun p => p.id = q.id) = none := by
    rw [List.find?_eq_none]
    exact fun p hp => by simpa using fresh p hp
  rw [List.find?_append, hnone, Option.none_or]
  exact List.find?_cons_of_pos (decide_eq_true rfl)

/-- A request that is admitted has candidates, and under a new name it stands nowhere. -/
theorem submit_eq (h : Coupled r.requests r.lanes) (around : Surroundings) (id : RequestId)
    (now : Timestamp) (s : Submission)
    (fresh : ∀ q, (r.submit around id now s).value.toOption = some q →
      ∀ p ∈ r.requests, p.id ≠ q.id) :
    submit r around id now s = .ok (r.submit around id now s) := by
  obtain ⟨-, hcandidates⟩ := Router.assess_spec r around.host s
  cases hdecision : (r.assess around.host s).1 with
  | error reason => simp only [submit, Router.submit, hdecision]
  | ok candidates =>
    have hne : ¬ candidates.isEmpty = true :=
      mt List.isEmpty_iff.mp (hcandidates candidates hdecision)
    simp only [Router.submit, hdecision] at fresh
    have hnew : ∀ p ∈ r.requests, p.id ≠ id := fresh _ rfl
    have hfound := find?_concat
      (q := Request.admitted id now s.requester s.intentId candidates s.parameters) hnew
    have hknown : Router.request? { r with
        requests := r.requests ++
          [Request.admitted id now s.requester s.intentId candidates s.parameters]
        counters := { r.counters with submitted := r.counters.submitted + 1 } } id = some _ :=
      hfound
    have hjoin := joinMain_eq around hknown (h.absent_of_fresh hnew)
    simp only [submit, Router.submit, hdecision, admitted, if_neg hne, hjoin, bind, Except.bind,
      pure, Except.pure]

/-! ## Calls, moves and runs -/

/-- A strict router does what the router does, where its requests are coupled with the lanes and
a new one has a new name. -/
theorem turn_eq (m : Move) (h : Coupled r.requests r.lanes)
    (fresh : ∀ q, m.admitted? r = some q → ∀ p ∈ r.requests, p.id ≠ q.id) :
    turn m r = .ok (m.turn r) := by
  obtain ⟨around, ask⟩ := m
  cases ask with
  | catalog call => rfl
  | router call =>
    simp only [turn, Move.turn]
    cases call with
    | submit id now s => rw [perform, submit_eq h around id now s fresh]; rfl
    | resolve id selected => rw [perform, resolve_eq h around id selected]; rfl
    | reject id => rw [perform, reject_eq h around id]; rfl
    | reply application id isError payload =>
      rw [perform, reply_eq h around application id isError payload]
      rfl
    | announceStart application => rw [perform, announceStart_eq h around application]; rfl
    | process => rw [perform, process_eq h around]; rfl
    | handle event =>
      cases event with
      | process => rw [perform, handle, process_eq h around]; rfl
      | timeout stage id millis => rw [perform, handle, timeOut_eq h around stage id millis]; rfl
    | _ => rfl

end Strict

namespace Run

variable {run : Run} {n : Nat}

/-- A strict router gets through every run. -/
theorem play_eq (run : Run) (n : Nat) :
    Strict.play run.start (run.moves.take n) = .ok (run.router n) := by
  induction n with
  | zero => rfl
  | succ n ih =>
    cases hm : run.moves[n]? with
    | none =>
      rw [router_succ_of_none hm, List.take_add_one, hm, Option.toList_none, List.append_nil, ih]
    | some m =>
      have hturn := Strict.turn_eq m (run.coupled n) fun q => fresh_admitted (run.traced n) hm
      have hone : Strict.play (run.router n) [m] = .ok (run.router (n + 1)) := by
        rw [Strict.play, List.foldlM_cons, hturn, router_succ hm]
        rfl
      rw [List.take_add_one, hm, Strict.play, List.foldlM_append]
      rw [Strict.play] at ih
      rw [ih]
      exact hone

/-- What a router takes for granted is so after any moves, whatever it is asked next: whoever joins
a lane stands in none; whoever is next in line or has left a lane is in flight; a request that is
admitted has candidates, one that is chosen for has no handler yet, one that is started, sent or
replied to has one, one that is settled has no outcome yet, and choosing never leaves a request as
it was. All that is asked is that a request is not admitted under the name of one in flight. So the
strict router gets through every run, and is where the router is at every moment. -/
theorem no_breach (run : Run) :
    (∀ (n : Nat) (m : Move),
        (∀ q, m.admitted? (run.router n) = some q → ∀ p ∈ (run.router n).requests, p.id ≠ q.id) →
          Strict.turn m (run.router n) = .ok (m.turn (run.router n))) ∧
      ∀ n, Strict.play run.start (run.moves.take n) = .ok (run.router n) :=
  ⟨fun n m fresh => Strict.turn_eq m (run.coupled n) fresh, run.play_eq⟩

/-- While two requests wait for their replies, a forged report that one has waited too long and a
third submission are dealt with. -/
theorem no_breach_rush :
    let forged : Move := ⟨office, .router (.handle (.timeout .reply (.ofNat 1) 0))⟩
    let third : Move :=
      ⟨office, .router (.submit (.ofNat 3) .epoch ⟨"editor", "print", none, .empty⟩)⟩
    Strict.turn forged (rush.router 6) = .ok (forged.turn (rush.router 6)) ∧
      Strict.turn third (rush.router 6) = .ok (third.turn (rush.router 6)) ∧
      Strict.play rush.start rush.moves = .ok (rush.router 6) := by
  intro forged third
  obtain ⟨hturn, hplay⟩ := no_breach rush
  refine ⟨hturn 6 forged fun q hq => ?_, hturn 6 third fun q hq p hp => ?_, hplay 6⟩
  · cases hq
  · cases hq
    have hids : (rush.router 6).requests.map Request.id = [.ofNat 1, .ofNat 2] := rfl
    have hmem := hids ▸ List.mem_map_of_mem hp
    exact fun h => absurd (h ▸ hmem) (by decide)

/-- A router in which somebody stands in the main lane who is not in flight is found out. -/
example :
    Strict.process
        { Router.fresh .standard with lanes := Lanes.empty.joined .main (.ofNat 1) } office =
      .error (.notInFlight (.ofNat 1)) := rfl

/-- So is one in which somebody waits for a reply who has no handler. -/
example :
    Strict.reply
        { Router.fresh .standard with
          requests := [printing.moveTo .awaitingReply]
          lanes := Lanes.empty.joined .sent printing.id } office "printer" printing.id false
        .empty = .error (.noHandler printing.id) := rfl

end Run

end IntentRouter
