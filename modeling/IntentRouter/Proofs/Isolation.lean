import IntentRouter.Proofs.Run

/-!
# Dispatch is isolated from the catalog

What the catalog and the capabilities of applications are like matters to a submission and to
nothing else. A router whose catalog and whose host's capabilities are replaced by others gives
the same answer to every other call, has the same effects and differs in its catalog alone
afterwards. So it makes no difference to the requests in flight what is asked of the catalog, or
granted and revoked, while they are dispatched. The other way round, what is asked of the catalog
leaves the rest of the router alone, and no call of the router changes the catalog or announces a
change of it.
-/

namespace IntentRouter

open Effect

/-- The same surroundings, but for the capabilities that applications hold. -/
def Surroundings.holding (around : Surroundings) (granted : List (String × NameSet))
    (doubtful : Bool) : Surroundings :=
  { around with host := { around.host with granted := granted, doubtful := doubtful } }

/-- The call asks for the admission of a request. -/
def RouterCall.isSubmission : RouterCall → Bool
  | .submit .. => true
  | _ => false

namespace Effect

/-- The event for the subscribers of the catalog, if the effect is one. -/
def published? : Effect → Option CatalogEvent
  | .publish event => some event
  | _ => none

/-- The events for the subscribers of the catalog, in order. -/
def published (es : List Effect) : List CatalogEvent := es.filterMap published?

@[simp]
theorem published_append (es fs : List Effect) :
    published (es ++ fs) = published es ++ published fs :=
  List.filterMap_append

/-- Reports publish nothing. -/
theorem published_map_note (entries : List Entry) : published (entries.map .note) = [] := by
  rw [published, List.filterMap_map, List.filterMap_eq_nil_iff]
  exact fun _ _ => rfl

end Effect

namespace Router

/-- The same router with another catalog. -/
def withCatalog (c : Catalog) (r : Router) : Router := { r with catalog := c }

variable {r : Router} {around : Surroundings} {c : Catalog}

/-! ## The catalog is not looked at -/

theorem joinMain_withCatalog (r : Router) (c : Catalog) (around : Surroundings) (id : RequestId) :
    (r.withCatalog c).joinMain around id =
      (r.joinMain around id).lift (withCatalog c) := by
  have hlanes : (r.withCatalog c).lanes = r.lanes := rfl
  rw [joinMain, joinMain, hlanes]
  cases r.lanes.join? .main id <;> rfl

theorem abandon_withCatalog (r : Router) (c : Catalog) (around : Surroundings) (id : RequestId)
    (message : String) :
    (r.withCatalog c).abandon around id message =
      (r.abandon around id message).lift (withCatalog c) := by
  have hfind : (r.withCatalog c).request? id = r.request? id := rfl
  rw [abandon, abandon, hfind]
  cases r.request? id with
  | none => rfl
  | some q => exact joinMain_withCatalog (r.update (q.fail message)) c around id

theorem endWait?_withCatalog (r : Router) (c : Catalog) (stage : Stage) (id : RequestId) :
    (r.withCatalog c).endWait? stage id =
      (r.endWait? stage id).map (withCatalog c) := by
  rw [endWait?, endWait?, Option.map_map]
  rfl

theorem timeOut_withCatalog (r : Router) (c : Catalog) (around : Surroundings) (stage : Stage)
    (id : RequestId) (millis : Nat) :
    (r.withCatalog c).timeOut around stage id millis =
      (r.timeOut around stage id millis).lift (withCatalog c) := by
  rw [timeOut, timeOut, endWait?_withCatalog]
  cases r.endWait? stage id with
  | none => rfl
  | some left =>
    have habandon := abandon_withCatalog left c around id (stage.timeoutMessage millis)
    exact congrArg (Turn.after [.about id (.timedOut stage millis)]) habandon

theorem resolve_withCatalog (r : Router) (c : Catalog) (around : Surroundings) (id : RequestId)
    (selected : Intent) :
    (r.withCatalog c).resolve around id selected =
      (r.resolve around id selected).lift (withCatalog c) := by
  rw [resolve, resolve, endWait?_withCatalog]
  cases r.endWait? .choice id with
  | none => rfl
  | some left =>
    have hfind : (left.withCatalog c).request? id = left.request? id := rfl
    simp only [Option.map_some, hfind]
    cases left.request? id with
    | none => rfl
    | some q =>
      have hjoin := joinMain_withCatalog
        (left.update ((q.choose selected.owner).moveTo .chosen)) c around id
      have habandon := abandon_withCatalog left c around id invalidChoiceMessage
      by_cases hany : (q.candidates.any fun i => i.same selected) = true
      · simp only [if_pos hany]
        exact congrArg (Turn.map Except.ok) hjoin
      · simp only [if_neg hany, habandon]
        rfl

theorem reject_withCatalog (r : Router) (c : Catalog) (around : Surroundings) (id : RequestId) :
    (r.withCatalog c).reject around id =
      (r.reject around id).lift (withCatalog c) := by
  rw [reject, reject, endWait?_withCatalog]
  cases r.endWait? .choice id with
  | none => rfl
  | some left =>
    have habandon := abandon_withCatalog left c around id rejectedMessage
    exact congrArg (Turn.map Except.ok) habandon

theorem reply_withCatalog (r : Router) (c : Catalog) (around : Surroundings)
    (application : String) (id : RequestId) (isError : Bool) (payload : Json.Parameters) :
    (r.withCatalog c).reply around application id isError payload =
      (r.reply around application id isError payload).lift (withCatalog c) := by
  rw [reply, reply, endWait?_withCatalog]
  cases r.endWait? .reply id with
  | none => rfl
  | some left =>
    have hfind : (left.withCatalog c).request? id = left.request? id := rfl
    simp only [Option.map_some, hfind]
    cases left.request? id with
    | none => rfl
    | some q =>
      have hjoin := joinMain_withCatalog
        (left.update (settleBy q application isError payload).1) c around id
      exact congrArg (fun t => (t.map Except.ok).after
        [.about id (settleBy q application isError payload).2]) hjoin

theorem release_withCatalog (application : String) (c : Catalog) (t : Turn Router Unit)
    (id : RequestId) :
    release application (t.lift (withCatalog c)) id =
      (release application t id).lift (withCatalog c) := by
  have hfind : (t.lift (withCatalog c)).state.request? id = t.state.request? id := rfl
  rw [release, release, hfind]
  cases t.state.request? id <;> rfl

theorem announceStart_withCatalog (r : Router) (c : Catalog) (around : Surroundings)
    (application : String) :
    (r.withCatalog c).announceStart around application =
      (r.announceStart around application).lift (withCatalog c) := by
  have hfold : ∀ (ids : List RequestId) (t : Turn Router Unit),
      ids.foldl (release application) (t.lift (withCatalog c)) =
        (ids.foldl (release application) t).lift (withCatalog c) :=
    fun ids t => List.foldl_hom (Turn.lift (withCatalog c))
      fun t id => release_withCatalog application c t id
  have hstart := hfold (r.awaiting application)
    (.quiet () { r with lanes := (r.lanes.extract .starting (r.handledBy application)).2 })
  exact congrArg (fun t : Turn Router Unit => (⟨(r.awaiting application).length, t.state,
    t.effects ++ if r.awaiting application = [] then [] else [wake around]⟩ : Turn Router Nat))
    hstart

theorem conclude_withCatalog (r : Router) (c : Catalog) (around : Surroundings) (q : Request) :
    (r.withCatalog c).conclude around q =
      (r.conclude around q).lift (withCatalog c) := by
  rw [conclude, conclude]
  cases q.state.stage? with
  | some stage => rfl
  | none =>
    by_cases hs : q.state = .settled
    · simp only [if_pos hs, deliver]
      cases around.host.connection? q.requester <;> rfl
    · simp only [if_neg hs]
      rfl

theorem process_withCatalog (r : Router) (c : Catalog) (around : Surroundings) :
    (r.withCatalog c).process around =
      (r.process around).lift (withCatalog c) := by
  have hlanes : (r.withCatalog c).lanes = r.lanes := rfl
  rw [process, process, hlanes]
  cases r.lanes.takeNext? with
  | none => rfl
  | some next =>
    obtain ⟨id, lanes⟩ := next
    have hfind : ({ r.withCatalog c with lanes := lanes } : Router).request? id =
        ({ r with lanes := lanes } : Router).request? id := rfl
    simp only [hfind]
    cases ({ r with lanes := lanes } : Router).request? id with
    | none => rfl
    | some q =>
      have hconclude := conclude_withCatalog
        { r with lanes := lanes, listener := (advance around r.settings r.listener q).listener } c
        around (advance around r.settings r.listener q).request
      exact congrArg (fun t : Turn Router Unit =>
        { t with effects := (advance around r.settings r.listener q).effects ++ t.effects ++
          [wake around] }) hconclude

/-- A call that asks for no admission does the same whatever the catalog and the capabilities
are like, and leaves the catalog as it is. -/
theorem perform_withCatalog (r : Router) (c : Catalog) (around : Surroundings)
    (granted : List (String × NameSet)) (doubtful : Bool) (call : RouterCall)
    (h : call.isSubmission = false) :
    (r.withCatalog c).perform (around.holding granted doubtful) call =
      (r.perform around call).lift (withCatalog c) := by
  have haround : (r.withCatalog c).perform (around.holding granted doubtful) call =
      (r.withCatalog c).perform around call := by
    cases call with
    | submit id now s => cases h
    | handle event => cases event <;> rfl
    | _ => rfl
  rw [haround]
  cases call with
  | submit id now s => cases h
  | resolve id selected =>
    exact congrArg (Turn.map (Answer.ofExcept fun _ => .done))
      (resolve_withCatalog r c around id selected)
  | reject id =>
    exact congrArg (Turn.map (Answer.ofExcept fun _ => .done)) (reject_withCatalog r c around id)
  | reply application id isError payload =>
    exact congrArg (Turn.map (Answer.ofExcept fun _ => .done))
      (reply_withCatalog r c around application id isError payload)
  | announceStart application =>
    exact congrArg (Turn.map Answer.count) (announceStart_withCatalog r c around application)
  | process => exact congrArg (Turn.map fun _ => Answer.nothing) (process_withCatalog r c around)
  | handle event =>
    cases event with
    | process => exact congrArg (Turn.map fun _ => Answer.nothing) (process_withCatalog r c around)
    | timeout stage id millis =>
      exact congrArg (Turn.map fun _ => Answer.nothing)
        (timeOut_withCatalog r c around stage id millis)
  | setTimeout stage duration =>
    have hset : (r.withCatalog c).setTimeout stage duration =
        (r.setTimeout stage duration).map (withCatalog c) := by
      rw [setTimeout, setTimeout]
      change (r.settings.setTimeout stage duration).map _ = _
      cases r.settings.setTimeout stage duration <;> rfl
    rw [perform, perform, hset]
    cases r.setTimeout stage duration <;> rfl
  | attach listener => rfl
  | hasListener => rfl
  | request id => rfl
  | settings => rfl
  | counters => rfl

/-- No call of a router changes its catalog. -/
theorem catalog_perform (r : Router) (around : Surroundings) (call : RouterCall) :
    (r.perform around call).state.catalog = r.catalog := by
  by_cases h : call.isSubmission = true
  · cases call with
    | submit id now s =>
      change (r.submit around id now s).state.catalog = r.catalog
      rcases r.submit_cases around id now s with ⟨_, _, -, -, hstate⟩ | ⟨_, -, hstate⟩ <;>
        rw [hstate]
    | _ => cases h
  · have hsame := perform_withCatalog r r.catalog around around.host.granted around.host.doubtful
      call (Bool.eq_false_iff.mpr h)
    exact congrArg (fun t => t.state.catalog) hsame

/-! ## Nothing is announced -/

theorem published_wake (around : Surroundings) : published [wake around] = [] := by
  unfold wake
  split <;> rfl

theorem published_issue (h : Host) (command : Command) : published [h.issue command] = [] := by
  unfold Host.issue
  split <;> rfl

theorem published_joinMain (r : Router) (around : Surroundings) (id : RequestId) :
    published (r.joinMain around id).effects = [] := by
  have hwake := published_wake around
  unfold joinMain
  cases r.request? id with
  | none => cases r.lanes.join? .main id <;> exact hwake
  | some q => cases r.lanes.join? .main id <;> exact hwake

theorem published_abandon (r : Router) (around : Surroundings) (id : RequestId)
    (message : String) : published (r.abandon around id message).effects = [] := by
  unfold abandon
  cases r.request? id with
  | none => rfl
  | some q => exact published_joinMain (r.update (q.fail message)) around id

/-- Settling on the first candidate publishes nothing. -/
theorem published_chooseFirst (q : Request) : published (chooseFirst q).2 = [] := by
  unfold chooseFirst
  cases q.candidates <;> simp only <;> split <;> rfl

theorem published_choosing (around : Surroundings) (settings : Settings) (p : Passage) :
    published (choosing around settings p).effects = published p.effects := by
  have hfirst := published_chooseFirst p.request
  have hgone : published (.about p.request.id .listenerGone :: (chooseFirst p.request).2) = [] :=
    hfirst
  unfold choosing
  by_cases hchosen : p.request.handler.isSome = true
  · simp only [if_pos hchosen, published_append, hfirst, List.append_nil]
  · simp only [if_neg hchosen]
    cases p.listener with
    | none => simp only [published_append, hfirst, List.append_nil]
    | some listener =>
      by_cases hlive : around.listens listener = true
      · simp only [if_pos hlive, published_append]
        exact List.append_nil _
      · simp only [if_neg hlive, published_append, hgone, List.append_nil]

theorem published_starting (around : Surroundings) (settings : Settings) (p : Passage) :
    published (starting around settings p).effects = published p.effects := by
  cases hh : p.request.handler with
  | none => simp only [starting, hh]
  | some handler =>
    have hissue := published_issue around.host (.start handler)
    simp only [starting, hh]
    by_cases hrun : around.host.isRunning handler = true
    · simp only [if_pos hrun, published_append]
      exact List.append_nil _
    · simp only [if_neg hrun, published_append]
      exact (congrArg (published p.effects ++ ·) hissue).trans (List.append_nil _)

theorem published_sending (around : Surroundings) (settings : Settings) (p : Passage) :
    published (sending around settings p).effects = published p.effects := by
  cases hc : around.host.connection? (p.request.handler.getD "") with
  | none =>
    simp only [sending, hc, published_append]
    exact List.append_nil _
  | some channel =>
    have hissue := published_issue around.host
      (.deliverRequest channel (p.request.moveTo .awaitingReply))
    simp only [sending, hc, published_append]
    exact (congrArg (published p.effects ++ ·) hissue).trans (List.append_nil _)

/-- No part of a step publishes anything. -/
theorem published_advance (around : Surroundings) (settings : Settings) (listener : Option Nat)
    (q : Request) : published (advance around settings listener q).effects = [] := by
  have hpart : ∀ (state : RequestState) (part : Passage → Passage) (p : Passage),
      published (part p).effects = published p.effects →
        published (whenIn state part p).effects = published p.effects := by
    intro state part p hp
    unfold whenIn
    split
    · exact hp
    · rfl
  rw [advance, hpart _ _ _ (published_sending ..), hpart _ _ _ (published_starting ..),
    hpart _ _ _ (published_choosing ..)]
  rfl

theorem published_process (r : Router) (around : Surroundings) :
    published (r.process around).effects = [] := by
  have hwake := published_wake around
  have hconclude : ∀ (s : Router) (q : Request), published (s.conclude around q).effects = [] := by
    intro s q
    unfold conclude
    cases q.state.stage? with
    | some stage => rfl
    | none =>
      by_cases hs : q.state = .settled
      · simp only [if_pos hs, deliver]
        cases around.host.connection? q.requester with
        | none => rfl
        | some channel => exact published_issue around.host (.deliverReply channel q)
      · simp only [if_neg hs]
        rfl
  unfold process
  cases r.lanes.takeNext? with
  | none => rfl
  | some next =>
    obtain ⟨id, lanes⟩ := next
    simp only
    cases ({ r with lanes := lanes } : Router).request? id with
    | none => exact hwake
    | some q =>
      simp only [published_append, published_advance, hconclude, hwake, List.append_nil]

/-- A report on a request publishes nothing. -/
theorem published_report (r : Router) (around : Surroundings) {call : RouterCall} {stage : Stage}
    {id : RequestId} (hcall : call.wait? = some (stage, id)) :
    published (r.perform around call).effects = [] := by
  cases call with
  | resolve id selected =>
    simp only [perform, resolve, Turn.map]
    cases r.endWait? .choice id with
    | none => rfl
    | some left =>
      simp only
      cases left.request? id with
      | none => rfl
      | some q =>
        by_cases hany : (q.candidates.any fun i => i.same selected) = true
        · simp only [if_pos hany]
          exact published_joinMain _ around id
        · simp only [if_neg hany]
          exact published_abandon left around id invalidChoiceMessage
  | reject id =>
    simp only [perform, reject, Turn.map]
    cases r.endWait? .choice id with
    | none => rfl
    | some left => exact published_abandon left around id rejectedMessage
  | reply application id isError payload =>
    simp only [perform, reply, Turn.map]
    cases r.endWait? .reply id with
    | none => rfl
    | some left =>
      simp only
      cases left.request? id with
      | none => rfl
      | some q => exact published_joinMain _ around id
  | handle event =>
    cases event with
    | process => cases hcall
    | timeout stage id millis =>
      simp only [perform, handle, timeOut, Turn.map]
      cases r.endWait? stage id with
      | none => rfl
      | some left => exact published_abandon left around id (stage.timeoutMessage millis)
  | _ => cases hcall

theorem published_announceStart (r : Router) (around : Surroundings) (application : String) :
    published (r.announceStart around application).effects = [] := by
  have hrelease : ∀ (t : Turn Router Unit) (id : RequestId),
      published (release application t id).effects = published t.effects := by
    intro t id
    unfold release
    cases t.state.request? id with
    | none => rfl
    | some q =>
      simp only [published_append]
      exact List.append_nil _
  have hfold : ∀ (ids : List RequestId) (t : Turn Router Unit),
      published (ids.foldl (release application) t).effects = published t.effects := by
    intro ids
    induction ids with
    | nil => exact fun _ => rfl
    | cons id rest ih => exact fun t => (ih (release application t id)).trans (hrelease t id)
  have hwake : published (if r.awaiting application = [] then [] else [wake around]) = [] := by
    split
    · rfl
    · exact published_wake around
  have hall := congrArg₂ (· ++ ·) (hfold (r.awaiting application)
    (.quiet () { r with lanes := (r.lanes.extract .starting (r.handledBy application)).2 })) hwake
  exact (published_append _ _).trans hall

theorem published_submit (r : Router) (around : Surroundings) (id : RequestId) (now : Timestamp)
    (s : Submission) : published (r.submit around id now s).effects = [] := by
  have hbefore := published_map_note
    (.incoming s.intentId s.requester (s.target.getD "") :: (r.assess around.host s).2)
  rw [List.map_cons] at hbefore
  cases hdecision : (r.assess around.host s).1 with
  | error reason =>
    simp only [submit, hdecision, published_append, hbefore]
    rfl
  | ok candidates =>
    simp only [submit, hdecision, Turn.after, Turn.map, published_append, hbefore]
    exact published_joinMain _ around id

/-- No call of a router announces a change of its catalog. -/
theorem published_perform (r : Router) (around : Surroundings) (call : RouterCall) :
    published (r.perform around call).effects = [] := by
  cases call with
  | submit id now s => exact published_submit r around id now s
  | resolve id selected => exact published_report r around rfl
  | reject id => exact published_report r around rfl
  | reply application id isError payload => exact published_report r around rfl
  | announceStart application => exact published_announceStart r around application
  | process => exact published_process r around
  | handle event =>
    cases event with
    | process => exact published_process r around
    | timeout stage id millis => exact published_report r around rfl
  | setTimeout stage duration =>
    rw [perform]
    cases r.setTimeout stage duration <;> rfl
  | attach listener => rfl
  | hasListener => rfl
  | request id => rfl
  | settings => rfl
  | counters => rfl

/-! ## Two courses of the same dispatch -/

/-- The answers to what is asked of the router itself in some moves, with their effects. -/
def course : Router → List Move → List (Answer × List Effect)
  | _, [] => []
  | r, m :: rest =>
    let t := m.turn r
    match m.ask with
    | .router _ => (t.value, t.effects) :: course t.state rest
    | .catalog _ => course t.state rest

end Router

/-- Two lists of moves by which a router is asked the same, with no admission among it. What is
asked of the catalog in between, and the capabilities held meanwhile, may differ. -/
inductive Move.Parallel : List Move → List Move → Prop where
  /-- There is nothing more to do. -/
  | nil : Parallel [] []
  /-- The catalog is asked something the first time. -/
  | first {ms ms' : List Move} (around : Surroundings) (call : CatalogCall)
    (later : Parallel ms ms') : Parallel (⟨around, .catalog call⟩ :: ms) ms'
  /-- The catalog is asked something the second time. -/
  | second {ms ms' : List Move} (around : Surroundings) (call : CatalogCall)
    (later : Parallel ms ms') : Parallel ms (⟨around, .catalog call⟩ :: ms')
  /-- The router is asked the same both times. -/
  | both {ms ms' : List Move} (around : Surroundings) (granted : List (String × NameSet))
    (doubtful : Bool) (call : RouterCall) (dispatches : call.isSubmission = false)
    (later : Parallel ms ms') :
    Parallel (⟨around, .router call⟩ :: ms) (⟨around.holding granted doubtful, .router call⟩ :: ms')

namespace Router

/-- The router is led through the same course by parallel moves, whatever its catalog is like
in the beginning, and differs in its catalog alone in the end. -/
theorem course_parallel {ms ms' : List Move} (h : Move.Parallel ms ms') :
    ∀ (r : Router) (c : Catalog), (r.withCatalog c).course ms' = r.course ms ∧
      ∃ d, (r.withCatalog c).play ms' = (r.play ms).withCatalog d := by
  induction h with
  | nil => exact fun r c => ⟨rfl, c, rfl⟩
  | first around call _ ih => exact fun r c => ih (r.withCatalog (r.catalog.perform call).state) c
  | second around call _ ih => exact fun r c => ih r (c.perform call).state
  | both around granted doubtful call dispatches _ ih =>
    intro r c
    have hsame := perform_withCatalog r c around granted doubtful call dispatches
    obtain ⟨hcourse, d, hplay⟩ := ih (r.perform around call).state c
    refine ⟨?_, d, ?_⟩
    · simp only [course, Move.turn, hsame, Turn.lift, hcourse]
    · simp only [play, List.foldl_cons, Move.turn, hsame, Turn.lift] at hplay ⊢
      exact hplay

/-- Whatever is asked of a router but an admission is answered in the same way, has the same
effects and leads to the same state, whatever its catalog and the capabilities of applications
are like; so it is over any number of moves, whatever is asked of the catalog in between. What
is asked of the catalog changes nothing else in the router and only announces itself. No call of
the router, admissions included, changes the catalog or announces a change of it. -/
theorem dispatch_isolated :
    (∀ (r : Router) (c : Catalog) (around : Surroundings) (granted : List (String × NameSet))
        (doubtful : Bool) (call : RouterCall), call.isSubmission = false →
          (r.withCatalog c).perform (around.holding granted doubtful) call =
            (r.perform around call).lift (withCatalog c)) ∧
      (∀ (r : Router) (c : Catalog) (ms ms' : List Move), Move.Parallel ms ms' →
        (r.withCatalog c).course ms' = r.course ms ∧
          ∃ d, (r.withCatalog c).play ms' = (r.play ms).withCatalog d) ∧
      (∀ (r : Router) (around : Surroundings) (call : CatalogCall),
        (Move.turn ⟨around, .catalog call⟩ r).state =
            r.withCatalog (r.catalog.perform call).state ∧
          Silent (Move.turn ⟨around, .catalog call⟩ r).effects) ∧
      ∀ (r : Router) (around : Surroundings) (call : RouterCall),
        (r.perform around call).state.catalog = r.catalog ∧
          published (r.perform around call).effects = [] := by
  refine ⟨perform_withCatalog, ?_, ?_, ?_⟩
  · exact fun r c ms ms' h => course_parallel h r c
  · exact fun r around call => ⟨rfl, r.catalog.perform_silent call⟩
  · exact fun r around call => ⟨catalog_perform r around call, published_perform r around call⟩

/-- The printer's intent is removed while the editor's request is dispatched, and all capabilities
are taken away. The request takes the same course. -/
theorem dispatch_isolated_errand :
    let withdrawn : Move := ⟨Run.office, .catalog (.remove (.plain "print" "printer"))⟩
    let there := Run.errandMoves.drop 3
    let elsewhere := withdrawn :: there.map fun m => { m with around := m.around.holding [] true }
    Move.Parallel there elsewhere ∧
      ((Run.errand.router 3).withCatalog .empty).course elsewhere =
        (Run.errand.router 3).course there := by
  have hparallel : Move.Parallel (Run.errandMoves.drop 3)
      (⟨Run.office, .catalog (.remove (.plain "print" "printer"))⟩ ::
        (Run.errandMoves.drop 3).map fun m => { m with around := m.around.holding [] true }) :=
    .second _ _ (.both _ _ _ _ rfl (.both _ _ _ _ rfl (.both _ _ _ _ rfl .nil)))
  exact ⟨hparallel, (dispatch_isolated.2.1 (Run.errand.router 3) .empty _ _ hparallel).1⟩

end Router

end IntentRouter
