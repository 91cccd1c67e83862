import IntentRouter.Proofs.Subscription
import IntentRouter.Session.World

/-!
# Faults of the host

A grant of capabilities may break off in the middle, and the host may have nobody left to carry out
commands. Neither has an influence on anything but what is reported: from the first on every look
at the capabilities is, and from the second on a command is reported instead of carried out. So an
operation at a host with faults is the same operation at the host without them, with other reports.
-/

namespace IntentRouter

open Effect

/-! ## Reports of faults -/

namespace Effect

/-- Whether the effect reports that the capabilities are looked at after a grant that broke off. -/
def isAlarm : Effect → Bool
  | .note .capabilitiesRecovered => true
  | _ => false

/-- The effects without these reports. -/
def calm (es : List Effect) : List Effect := es.filter fun e => ! e.isAlarm

theorem calm_append (es fs : List Effect) : calm (es ++ fs) = calm es ++ calm fs := by
  simp only [calm, List.filter_append]

end Effect

namespace Host

/-- The same host without its faults: no grant has broken off, and commands are carried out. -/
def faultless (h : Host) : Host := { h with doubtful := false, attended := true }

/-- What becomes of an effect at a host: a command is handed over. -/
def carry (h : Host) : Effect → Effect
  | .command c => h.issue c
  | e => e

/-- Where commands are carried out, all effects come to pass. -/
theorem map_carry_of_attended {h : Host} (hatt : h.attended = true) (es : List Effect) :
    es.map h.carry = es := by
  refine List.map_id'' (fun e => ?_) es
  cases e with
  | command c => exact if_pos hatt
  | _ => rfl

/-- Looks at the capabilities cause nothing but alarm. -/
theorem calm_lookReport (h : Host) : calm (h.lookReport.map .note) = [] := by
  unfold lookReport
  split <;> rfl

end Host

/-- The same surroundings with a host without faults. -/
def Surroundings.faultless (around : Surroundings) : Surroundings :=
  { around with host := around.host.faultless }

/-- Whatever becomes of commands is no alarm. -/
theorem Host.calm_map_carry (h : Host) (es : List Effect) :
    calm (es.map h.carry) = (calm es).map h.carry := by
  have hcarry : ∀ e, (h.carry e).isAlarm = e.isAlarm := by
    intro e
    cases e with
    | command c => simp only [carry, issue]; split <;> rfl
    | _ => rfl
  unfold calm
  rw [List.filter_map]
  refine congrArg _ (List.filter_congr fun e _ => ?_)
  rw [Function.comp_apply, hcarry]

/-- Reports come to pass at any host. -/
theorem Host.map_carry_note (h : Host) (entries : List Entry) :
    (entries.map Effect.note).map h.carry = entries.map Effect.note := by
  rw [List.map_map]
  rfl

namespace Turn

variable {σ τ α β : Type} {h : Host} {t u : Turn σ α}

/-- The same turn with effects as they come to pass at a host. -/
def carried (h : Host) (t : Turn σ α) : Turn σ α := { t with effects := t.effects.map h.carry }

/-- But for alarm the first turn is the second one, with effects as they come to pass at a host. -/
structure Mirrors (h : Host) (t u : Turn σ α) : Prop where
  /-- The answers are the same. -/
  value : t.value = u.value
  /-- The states are the same. -/
  state : t.state = u.state
  /-- The effects come to pass, with more alarm. -/
  effects : calm t.effects = (calm u.effects).map h.carry

theorem Mirrors.of_carried (hcarried : t = u.carried h) : t.Mirrors h u := by
  rw [hcarried]
  exact ⟨rfl, rfl, h.calm_map_carry u.effects⟩

theorem Mirrors.map (hmirrors : t.Mirrors h u) (f : α → β) : (t.map f).Mirrors h (u.map f) :=
  ⟨congrArg f hmirrors.value, hmirrors.state, hmirrors.effects⟩

theorem Mirrors.after {es fs : List Effect} (hmirrors : t.Mirrors h u)
    (hbefore : calm es = (calm fs).map h.carry) : (t.after es).Mirrors h (u.after fs) := by
  refine ⟨hmirrors.value, hmirrors.state, ?_⟩
  simp only [Turn.after, calm_append, List.map_append, hbefore, hmirrors.effects]

end Turn

/-! ## Routers -/

namespace Router

variable {r : Router} {around : Surroundings}

/-- The same passage with effects as they come to pass at a host. -/
def Passage.carried (h : Host) (p : Passage) : Passage :=
  { p with effects := p.effects.map h.carry }

theorem wake_faultless (around : Surroundings) :
    wake around = around.host.carry (wake around.faultless) := by
  obtain ⟨host, inboxOpen, listens⟩ := around
  cases inboxOpen <;> rfl

theorem joinMain_faultless (r : Router) (around : Surroundings) (id : RequestId) :
    r.joinMain around id = (r.joinMain around.faultless id).carried around.host := by
  unfold joinMain
  rw [wake_faultless]
  cases r.request? id <;> cases r.lanes.join? .main id <;> rfl

theorem abandon_faultless (r : Router) (around : Surroundings) (id : RequestId)
    (message : String) :
    r.abandon around id message = (r.abandon around.faultless id message).carried around.host := by
  unfold abandon
  cases r.request? id with
  | none => rfl
  | some q => exact joinMain_faultless (r.update (q.fail message)) around id

theorem timeOut_faultless (r : Router) (around : Surroundings) (stage : Stage) (id : RequestId)
    (millis : Nat) :
    r.timeOut around stage id millis =
      (r.timeOut around.faultless stage id millis).carried around.host := by
  unfold timeOut
  cases r.endWait? stage id with
  | none => rfl
  | some left =>
    exact congrArg (Turn.after [.about id (.timedOut stage millis)])
      (abandon_faultless left around id (stage.timeoutMessage millis))

theorem resolve_faultless (r : Router) (around : Surroundings) (id : RequestId)
    (selected : Intent) :
    r.resolve around id selected =
      (r.resolve around.faultless id selected).carried around.host := by
  unfold resolve
  cases r.endWait? .choice id with
  | none => rfl
  | some left =>
    dsimp only
    cases left.request? id with
    | none => rfl
    | some q =>
      have hjoin := joinMain_faultless
        (left.update ((q.choose selected.owner).moveTo .chosen)) around id
      have habandon := abandon_faultless left around id invalidChoiceMessage
      by_cases hany : (q.candidates.any fun i => i.same selected) = true
      · simp only [if_pos hany]
        exact congrArg (Turn.map Except.ok) hjoin
      · simp only [if_neg hany]
        exact congrArg (fun t => (t.map Except.ok).after [.about id (.notCandidate selected.name)])
          habandon

theorem reject_faultless (r : Router) (around : Surroundings) (id : RequestId) :
    r.reject around id = (r.reject around.faultless id).carried around.host := by
  unfold reject
  cases r.endWait? .choice id with
  | none => rfl
  | some left =>
    exact congrArg (Turn.map Except.ok) (abandon_faultless left around id rejectedMessage)

theorem reply_faultless (r : Router) (around : Surroundings) (application : String)
    (id : RequestId) (isError : Bool) (payload : Json.Parameters) :
    r.reply around application id isError payload =
      (r.reply around.faultless application id isError payload).carried around.host := by
  unfold reply
  cases r.endWait? .reply id with
  | none =>
    dsimp only
    by_cases hlate : r.history.contains id = true
    · simp only [if_pos hlate]
      rfl
    · simp only [if_neg hlate]
      rfl
  | some left =>
    dsimp only
    cases left.request? id with
    | none => rfl
    | some q =>
      have hjoin := joinMain_faultless
        (left.update (settleBy q application isError payload).1) around id
      exact congrArg (fun t => (t.map Except.ok).after
        [.about id (settleBy q application isError payload).2]) hjoin

/-- The release of requests hands nothing over. -/
theorem release_carried (h : Host) (application : String) (t : Turn Router Unit)
    (id : RequestId) :
    release application (t.carried h) id = (release application t id).carried h := by
  have hstate : (t.carried h).state = t.state := rfl
  unfold release
  rw [hstate]
  cases t.state.request? id with
  | none => rfl
  | some q => simp only [Turn.carried, List.map_append]; rfl

theorem announceStart_faultless (r : Router) (around : Surroundings) (application : String) :
    r.announceStart around application =
      (r.announceStart around.faultless application).carried around.host := by
  have hfold : ∀ (ids : List RequestId) (t : Turn Router Unit), t.carried around.host = t →
      (ids.foldl (release application) t).carried around.host =
        ids.foldl (release application) t := by
    intro ids t ht
    rw [← List.foldl_hom (Turn.carried around.host)
      fun t id => release_carried around.host application t id, ht]
  have heffects := congrArg Turn.effects (hfold
    (r.lanes.extract .starting (r.handledBy application)).1
    (.quiet () { r with lanes := (r.lanes.extract .starting (r.handledBy application)).2 }) rfl)
  simp only [Turn.carried] at heffects
  unfold announceStart
  dsimp only
  rw [wake_faultless]
  simp only [Turn.carried, List.map_append, heffects]
  split <;> rfl

/-! ### Steps -/

/-- Settling on the first candidate hands nothing over. -/
theorem map_carry_chooseFirst (h : Host) (q : Request) :
    (chooseFirst q).2.map h.carry = (chooseFirst q).2 := by
  unfold chooseFirst
  cases q.candidates <;> dsimp only <;> split <;> rfl

theorem choosing_faultless (around : Surroundings) (settings : Settings) (p : Passage) :
    choosing around settings (p.carried around.host) =
      (choosing around.faultless settings p).carried around.host := by
  have hfirst := map_carry_chooseFirst around.host p.request
  have hrequest : (p.carried around.host).request = p.request := rfl
  have hlistener : (p.carried around.host).listener = p.listener := rfl
  have hlistens : around.faultless.listens = around.listens := rfl
  unfold choosing
  rw [hrequest, hlistener, hlistens]
  by_cases hchosen : p.request.handler.isSome = true
  · simp only [if_pos hchosen, Passage.carried, List.map_append, hfirst]
  · simp only [if_neg hchosen]
    cases hnone : p.listener with
    | none => simp only [Passage.carried, List.map_append, hfirst, hnone]
    | some listener =>
      by_cases hlive : around.listens listener = true
      · simp only [if_pos hlive, Passage.carried, List.map_append, hnone]
        rfl
      · simp only [if_neg hlive, Passage.carried, List.map_append, List.map_cons, hfirst]
        rfl

theorem starting_faultless (around : Surroundings) (settings : Settings) (p : Passage) :
    starting around settings (p.carried around.host) =
      (starting around.faultless settings p).carried around.host := by
  have hrunning : around.faultless.host.isRunning = around.host.isRunning := rfl
  unfold starting
  rw [hrunning]
  simp only [Passage.carried]
  cases p.request.handler with
  | none => rfl
  | some handler =>
    by_cases hrun : around.host.isRunning handler = true
    · simp only [if_pos hrun, List.map_append]
      rfl
    · simp only [if_neg hrun, List.map_append]
      rfl

theorem sending_faultless (around : Surroundings) (settings : Settings) (p : Passage) :
    sending around settings (p.carried around.host) =
      (sending around.faultless settings p).carried around.host := by
  have hchannel : around.faultless.host.connection? = around.host.connection? := rfl
  unfold sending
  rw [hchannel]
  simp only [Passage.carried]
  cases around.host.connection? (p.request.handler.getD "") with
  | none => simp only [List.map_append]; rfl
  | some channel => simp only [List.map_append]; rfl

theorem whenIn_carried {h : Host} {part part' : Passage → Passage} (state : RequestState)
    (hpart : ∀ p : Passage, part (p.carried h) = (part' p).carried h) (p : Passage) :
    whenIn state part (p.carried h) = (whenIn state part' p).carried h := by
  have hstate : (p.carried h).request.state = p.request.state := rfl
  unfold whenIn
  rw [hstate]
  by_cases hin : p.request.state = state
  · rw [if_pos hin, if_pos hin, hpart p]
  · rw [if_neg hin, if_neg hin]

theorem advance_faultless (around : Surroundings) (settings : Settings) (listener : Option Nat)
    (q : Request) :
    advance around settings listener q =
      (advance around.faultless settings listener q).carried around.host := by
  have hchosen := whenIn_carried .received (choosing_faultless around settings)
    ⟨q, listener, [.about q.id (.processing q.state)]⟩
  have hstarted := whenIn_carried .chosen (starting_faultless around settings)
    (whenIn .received (choosing around.faultless settings)
      ⟨q, listener, [.about q.id (.processing q.state)]⟩)
  have hsent := whenIn_carried .started (sending_faultless around settings)
    (whenIn .chosen (starting around.faultless settings)
      (whenIn .received (choosing around.faultless settings)
        ⟨q, listener, [.about q.id (.processing q.state)]⟩))
  rw [← hstarted, ← hchosen] at hsent
  exact hsent

/-- The end of a step is the same, and its effects come to pass. -/
theorem conclude_faultless (r : Router) (around : Surroundings) (q : Request) :
    r.conclude around q = (r.conclude around.faultless q).carried around.host := by
  have hchannel : around.faultless.host.connection? = around.host.connection? := rfl
  unfold conclude deliver
  rw [hchannel]
  cases q.state.stage? with
  | some stage => rfl
  | none =>
    by_cases hs : q.state = .settled
    · simp only [if_pos hs]
      cases around.host.connection? q.requester <;> rfl
    · simp only [if_neg hs]
      rfl

theorem process_faultless (r : Router) (around : Surroundings) :
    r.process around = (r.process around.faultless).carried around.host := by
  unfold process
  rw [wake_faultless]
  cases r.lanes.takeNext? with
  | none => rfl
  | some next =>
    obtain ⟨id, lanes⟩ := next
    dsimp only
    cases ({ r with lanes := lanes } : Router).request? id with
    | none => rfl
    | some q =>
      dsimp only
      rw [advance_faultless around, conclude_faultless _ around]
      simp only [Turn.carried, Passage.carried, List.map_append]
      rfl

/-! ### Submissions -/

/-- A screening looks at the same capabilities, with alarm or without. -/
theorem run_faultless (h : Host) (requester : String) (intents : List Intent)
    (held : Option NameSet) :
    (Screening.run h requester held intents).visible =
        (Screening.run h.faultless requester held intents).visible ∧
      calm ((Screening.run h requester held intents).report.map .note) =
        calm ((Screening.run h.faultless requester held intents).report.map .note) := by
  have hreport := h.calm_lookReport
  have hcalm : h.faultless.lookReport = [] := rfl
  have hheld : h.faultless.capabilities requester = h.capabilities requester := rfl
  induction intents generalizing held with
  | nil => exact ⟨rfl, rfl⟩
  | cons i rest ih =>
    unfold Screening.run
    by_cases howner : i.owner = requester
    · simp only [if_pos howner, Screening.keep]
      exact ⟨congrArg _ (ih held).1, (ih held).2⟩
    by_cases hhidden : i.visibility = .owner
    · simp only [if_neg howner, if_pos hhidden, Screening.reporting, List.map_append, calm_append]
      exact ⟨(ih held).1, congrArg _ (ih held).2⟩
    by_cases hopen : i.requiredCapabilities.isEmpty = true
    · simp only [if_neg howner, if_neg hhidden, if_pos hopen, Screening.keep]
      exact ⟨congrArg _ (ih held).1, (ih held).2⟩
    simp only [if_neg howner, if_neg hhidden, if_neg hopen, hheld, hcalm]
    -- What is looked up is the same, and only the look at a host in doubt is reported.
    cases held with
    | some granted =>
      have hrest := ih (some granted)
      by_cases hcan : i.satisfiedBy granted = true
      · simp only [if_pos hcan, Screening.keep, Screening.reporting, List.map_append, calm_append]
        exact ⟨congrArg _ hrest.1, congrArg _ hrest.2⟩
      · simp only [if_neg hcan, Screening.reporting, List.map_append, calm_append]
        exact ⟨hrest.1, congrArg _ hrest.2⟩
    | none =>
      have hrest := ih (some (h.capabilities requester))
      by_cases hcan : i.satisfiedBy (h.capabilities requester) = true
      · simp only [if_pos hcan, Screening.keep, Screening.reporting, List.map_append, calm_append,
          hreport]
        exact ⟨congrArg _ hrest.1, congrArg _ hrest.2⟩
      · simp only [if_neg hcan, Screening.reporting, List.map_append, calm_append, hreport]
        exact ⟨hrest.1, congrArg _ hrest.2⟩

/-- A submission is decided in the same way. -/
theorem assess_faultless (r : Router) (host : Host) (s : Submission) :
    (r.assess host s).1 = (r.assess host.faultless s).1 ∧
      calm ((r.assess host s).2.map .note) = calm ((r.assess host.faultless s).2.map .note) := by
  have hrunning : host.faultless.isRunning s.requester = host.isRunning s.requester := rfl
  unfold assess Host.screen
  rw [hrunning]
  by_cases hrun : ¬ host.isRunning s.requester = true
  · simp only [if_pos hrun, and_self]
  · simp only [if_neg hrun]
    cases answering r.catalog s with
    | nil => exact ⟨rfl, rfl⟩
    | cons first rest =>
      obtain ⟨hvisible, hreport⟩ := run_faultless host s.requester (first :: rest) none
      simp only [hvisible]
      cases (Screening.run host.faultless s.requester none (first :: rest)).visible with
      | nil => exact ⟨rfl, hreport⟩
      | cons candidate others => exact ⟨rfl, hreport⟩

theorem submit_mirrors (r : Router) (around : Surroundings) (id : RequestId) (now : Timestamp)
    (s : Submission) :
    (r.submit around id now s).Mirrors around.host (r.submit around.faultless id now s) := by
  obtain ⟨hdecision, hreport⟩ := assess_faultless r around.host s
  have hincoming : ∀ entries : List Entry, calm (.note (.incoming s.intentId s.requester
      (s.target.getD "")) :: entries.map .note) =
        .note (.incoming s.intentId s.requester (s.target.getD "")) :: calm (entries.map .note) :=
    fun _ => rfl
  have hbefore : calm (.note (.incoming s.intentId s.requester (s.target.getD "")) ::
      (r.assess around.host s).2.map .note) =
        (calm (.note (.incoming s.intentId s.requester (s.target.getD "")) ::
          (r.assess around.host.faultless s).2.map .note)).map around.host.carry := by
    rw [hincoming, hincoming, List.map_cons, ← Host.calm_map_carry, Host.map_carry_note, hreport]
    rfl
  have hhost : around.faultless.host = around.host.faultless := rfl
  unfold submit
  rw [hhost]
  dsimp only
  rw [hdecision]
  cases (r.assess around.host.faultless s).1 with
  | error reason =>
    refine ⟨rfl, rfl, ?_⟩
    simp only [calm_append, List.map_append, hbefore]
    rfl
  | ok candidates =>
    exact ((Turn.Mirrors.of_carried (joinMain_faultless _ around id)).map _).after hbefore

/-- Whatever is asked of a router, it does the same at a host with faults as at the host without,
but for reports of them. -/
theorem perform_mirrors (r : Router) (around : Surroundings) (call : RouterCall) :
    (r.perform around call).Mirrors around.host (r.perform around.faultless call) := by
  cases call with
  | submit id now s => exact (submit_mirrors r around id now s).map _
  | resolve id selected =>
    exact (Turn.Mirrors.of_carried (resolve_faultless r around id selected)).map _
  | reject id => exact (Turn.Mirrors.of_carried (reject_faultless r around id)).map _
  | reply application id isError payload =>
    exact (Turn.Mirrors.of_carried (reply_faultless r around application id isError payload)).map _
  | announceStart application =>
    exact (Turn.Mirrors.of_carried (announceStart_faultless r around application)).map _
  | process =>
    exact (Turn.Mirrors.of_carried (process_faultless r around)).map fun _ => Answer.nothing
  | handle event =>
    have hhandle :
        (r.handle around event).Mirrors around.host (r.handle around.faultless event) := by
      cases event with
      | process => exact .of_carried (process_faultless r around)
      | timeout stage id millis => exact .of_carried (timeOut_faultless r around stage id millis)
    exact hhandle.map fun _ => Answer.nothing
  | setTimeout stage duration =>
    rw [perform, perform]
    cases r.setTimeout stage duration <;> exact ⟨rfl, rfl, rfl⟩
  | attach listener => exact ⟨rfl, rfl, rfl⟩
  | hasListener => exact ⟨rfl, rfl, rfl⟩
  | request id => exact ⟨rfl, rfl, rfl⟩
  | settings => exact ⟨rfl, rfl, rfl⟩
  | counters => exact ⟨rfl, rfl, rfl⟩

end Router

/-! ## Worlds -/

/-- The operation is neither a fault of the host nor something that a subscriber does. -/
def Op.isOrdinary : Op → Bool
  | .subscribe | .receive .. | .host (.grantBroken ..) | .host .leave => false
  | _ => true

namespace World

/-- The same world without faults of the host, and with subscribers at the given places. -/
def faultless (places : List Nat) (w : World) : World :=
  { w with host := w.host.faultless, subscribers := places }

/-- Alarm does not act on the world. -/
theorem absorb_calm (es : List Effect) (w : World) :
    (calm es).foldl absorb w = es.foldl absorb w := by
  induction es generalizing w with
  | nil => rfl
  | cons effect es ih =>
    cases effect with
    | note entry => cases entry <;> exact ih w
    | _ => exact ih _

/-- Commands do not act on the world either, whether they are carried out or not. -/
theorem absorb_carry (h : Host) (es : List Effect) (w : World) :
    (es.map h.carry).foldl absorb w = es.foldl absorb w := by
  rw [List.foldl_map]
  congr
  funext w e
  cases e with
  | command c => simp only [Host.carry, Host.issue]; split <;> rfl
  | _ => rfl

theorem absorb_faultless (places : List Nat) (es : List Effect) (w : World) :
    (es.foldl absorb w).faultless places = es.foldl absorb (w.faultless places) := by
  refine (List.foldl_hom (faultless places) fun w e => ?_).symm
  cases e <;> rfl

/-- Effects do not act on the host. -/
theorem host_absorb (es : List Effect) (w : World) : (es.foldl absorb w).host = w.host := by
  induction es generalizing w with
  | nil => rfl
  | cons effect es ih =>
    rw [List.foldl_cons, ih]
    cases effect <;> rfl

/-- A turn of a part of the world does the same to the rest of it. -/
theorem take_mirrors {places : List Nat} {σ τ α : Type} {h : Host} {t : Turn σ α} {u : Turn τ α}
    {put : σ → World} {put' : τ → World} {f : σ → τ} (hmirrors : (t.lift f).Mirrors h u)
    (hput : ∀ s, (put s).faultless places = put' (f s)) :
    ((take put t).lift (faultless places)).Mirrors h (take put' u) := by
  refine ⟨hmirrors.value, ?_, hmirrors.effects⟩
  have hstate : f t.state = u.state := hmirrors.state
  have heffects : calm t.effects = (calm u.effects).map h.carry := hmirrors.effects
  change (t.effects.foldl absorb (put t.state)).faultless places =
    u.effects.foldl absorb (put' u.state)
  rw [absorb_faultless, ← absorb_calm t.effects, heffects, absorb_carry, absorb_calm, hput, hstate]

theorem callRouter_mirrors (w : World) (places : List Nat) (call : RouterCall) :
    ((w.callRouter call).lift (faultless places)).Mirrors w.host
      ((w.faultless places).callRouter call) :=
  take_mirrors (f := id) (w.router.perform_mirrors w.around call) fun _ => rfl

theorem callCatalog_mirrors (w : World) (places : List Nat) (call : CatalogCall) :
    ((w.callCatalog call).lift (faultless places)).Mirrors w.host
      ((w.faultless places).callCatalog call) := by
  refine take_mirrors (f := id) (.of_carried ?_) fun _ => rfl
  change w.router.catalog.perform call = (w.router.catalog.perform call).carried w.host
  cases call with
  | add intent =>
    simp only [Catalog.perform, Catalog.add]
    cases w.router.catalog.fault? intent <;> rfl
  | remove intent =>
    simp only [Catalog.perform, Catalog.remove]
    cases w.router.catalog.intents.find? fun j => j.hasKey intent.intentId intent.owner <;> rfl
  | _ => rfl

/-- A call of the host that is no fault is answered without a look at its faults. -/
theorem callHost_mirrors (w : World) (places : List Nat) {call : HostCall}
    (h : (Op.host call).isOrdinary = true) :
    ((w.callHost call).lift (faultless places)).Mirrors w.host
      ((w.faultless places).callHost call) := by
  refine take_mirrors (f := Host.faultless) (u := w.host.faultless.perform call) ?_ fun _ => rfl
  have hlook : ∀ host : Host, calm (host.lookReport.map .note) = [] := Host.calm_lookReport
  cases call with
  | grant application names =>
    refine ⟨rfl, rfl, ?_⟩
    simp only [Turn.lift, Host.perform, Turn.after, Host.look, calm_append, hlook]
    rfl
  | revoke application =>
    refine ⟨rfl, rfl, ?_⟩
    simp only [Turn.lift, Host.perform, Turn.after, Host.look, calm_append, hlook]
    rfl
  | capabilities application =>
    refine ⟨rfl, rfl, ?_⟩
    simp only [Turn.lift, Host.perform, Host.look, hlook]
    rfl
  | start application => exact .of_carried rfl
  | grantBroken application names => cases h
  | leave => cases h
  | _ => exact ⟨rfl, rfl, rfl⟩

/-- A grant that breaks off has the effect of a grant of what was granted till then. -/
theorem grantBroken_mirrors (w : World) (places : List Nat) (application : String)
    (names : List String) :
    ((perform (.host (.grantBroken application names)) w).lift (faultless places)).Mirrors w.host
      (perform (.host (.grant application names)) (w.faultless places)) := by
  rw [perform, perform]
  refine take_mirrors (f := Host.faultless)
    (u := w.host.faultless.perform (.grant application names)) ?_ fun _ => rfl
  refine ⟨rfl, rfl, ?_⟩
  simp only [Turn.lift, Host.perform, Turn.after, Host.look, calm_append, Host.calm_lookReport]
  rfl

/-- The host is the same after a call of the router. -/
theorem host_callRouter (w : World) (call : RouterCall) : (w.callRouter call).state.host = w.host :=
  host_absorb _ _

theorem host_step (w : World) : w.step.state.host = w.host := by
  unfold step
  split
  · exact host_callRouter _ _
  · rfl

theorem step_mirrors (w : World) (places : List Nat) :
    (w.step.lift (faultless places)).Mirrors w.host (w.faultless places).step := by
  have hinbox : (w.faultless places).inbox = w.inbox := rfl
  unfold step
  rw [hinbox]
  split
  · next event rest _ =>
    have hcall := { w with inbox := some rest }.callRouter_mirrors places (.handle event)
    exact hcall.map fun _ => some event
  · exact ⟨rfl, rfl, rfl⟩

theorem pumpAtMost_mirrors (n : Nat) (w : World) (places : List Nat) :
    ((pumpAtMost n w).lift (faultless places)).Mirrors w.host
      (pumpAtMost n (w.faultless places)) := by
  induction n generalizing w with
  | zero => exact ⟨rfl, rfl, rfl⟩
  | succ n ih =>
    have hstep := w.step_mirrors places
    have hstate : w.step.state.faultless places = (w.faultless places).step.state := hstep.state
    have hvalue : w.step.value = (w.faultless places).step.value := hstep.value
    have hrest := ih w.step.state
    rw [host_step, hstate] at hrest
    rw [pumpAtMost, pumpAtMost, hvalue]
    cases (w.faultless places).step.value with
    | none => exact ⟨rfl, rfl, rfl⟩
    | some event => exact (hrest.map (event :: ·)).after hstep.effects

theorem submit_mirrors (w : World) (places : List Nat) (s : Router.Submission) :
    ((w.submit s).lift (faultless places)).Mirrors w.host ((w.faultless places).submit s) := by
  have hcall := w.callRouter_mirrors places (.submit (.ofNat w.admitted) .epoch s)
  have hadmitted : (w.faultless places).admitted = w.admitted := rfl
  have hvalue : (w.callRouter (.submit (.ofNat w.admitted) .epoch s)).value =
      ((w.faultless places).callRouter (.submit (.ofNat w.admitted) .epoch s)).value := hcall.value
  have hstate : (w.callRouter (.submit (.ofNat w.admitted) .epoch s)).state.faultless places =
      ((w.faultless places).callRouter (.submit (.ofNat w.admitted) .epoch s)).state := hcall.state
  unfold submit
  rw [hadmitted]
  dsimp only
  rw [hvalue]
  split
  · refine ⟨rfl, ?_, hcall.effects⟩
    simp only [Turn.lift, ← hstate]
    rfl
  · exact hcall

/-- An operation that is neither a fault nor something that a subscriber does is the same with
faults as without, but for reports of them. -/
theorem single_mirrors {op : Op} (hsingle : op.isSingle = true) (h : op.isOrdinary = true)
    (w : World) (places : List Nat) :
    ((perform op w).lift (faultless places)).Mirrors w.host
      (perform op (w.faultless places)) := by
  cases op with
  | host call => exact w.callHost_mirrors places h
  | catalog call => exact w.callCatalog_mirrors places call
  | usableBy intents requester =>
    obtain ⟨hvisible, hreport⟩ := Router.run_faultless w.host requester (w.given intents) none
    refine ⟨congrArg namesOf hvisible, rfl, ?_⟩
    simp only [Turn.lift, perform]
    rw [← Host.calm_map_carry, Host.map_carry_note]
    exact hreport
  | submit s => exact w.submit_mirrors places s
  | attach =>
    exact { w with listeners := w.listeners ++ [true] }.callRouter_mirrors places
      (.attach w.listeners.length)
  | step => exact (w.step_mirrors places).map _
  | pump => exact (pumpAtMost_mirrors w.workload w places).map _
  | hasListener => exact w.callRouter_mirrors places .hasListener
  | resolve ref selected => exact w.callRouter_mirrors places (.resolve (w.idOf ref) selected)
  | reject ref => exact w.callRouter_mirrors places (.reject (w.idOf ref))
  | reply application ref isError payload =>
    exact w.callRouter_mirrors places (.reply application (w.idOf ref) isError payload)
  | setTimeout stage duration => exact w.callRouter_mirrors places (.setTimeout stage duration)
  | announceStart application => exact w.callRouter_mirrors places (.announceStart application)
  | settings => exact w.callRouter_mirrors places .settings
  | counters => exact w.callRouter_mirrors places .counters
  | request ref => exact w.callRouter_mirrors places (.request (w.idOf ref))
  | timeOut stage ref millis =>
    exact w.callRouter_mirrors places (.handle (.timeout stage (w.idOf ref) millis))
  | process => exact w.callRouter_mirrors places .process
  | subscribe => cases h
  | receive subscriber limit => cases h
  | again times ops => cases hsingle
  | _ => exact ⟨rfl, rfl, rfl⟩

/-- So it is with one operation after another. -/
theorem performAll_faultless {ops : List Op}
    (h : ∀ op ∈ ops, op.isSingle = true ∧ op.isOrdinary = true) (w : World) (places : List Nat) :
    (performAll ops w).faultless places = performAll ops (w.faultless places) := by
  induction ops generalizing w with
  | nil => rw [performAll, performAll]
  | cons op ops ih =>
    obtain ⟨⟨hsingle, hop⟩, hops⟩ := List.forall_mem_cons.mp h
    have hstate : (perform op w).state.faultless places = (perform op (w.faultless places)).state :=
      (single_mirrors hsingle hop w places).state
    rw [performAll, performAll, ih hops, hstate]

theorem unrolled_of_isSingle {op : Op} (h : op.isSingle = true) : op.unrolled = [op] := by
  cases op with
  | again times ops => cases h
  | _ => simp only [Op.unrolled]

/-- So it is with any operation of which no part is a fault or something that a subscriber does. -/
theorem perform_mirrors {op : Op} (h : ∀ part ∈ op.unrolled, part.isOrdinary = true) (w : World)
    (places : List Nat) :
    ((perform op w).lift (faultless places)).Mirrors w.host
      (perform op (w.faultless places)) := by
  have hunrolls := unrolls.1 op
  have hstate : (perform op w).state.faultless places =
      (perform op (w.faultless places)).state := by
    rw [← hunrolls.same, ← hunrolls.same, state_performEach, state_performEach]
    exact performAll_faultless (fun part hpart => ⟨hunrolls.single part hpart, h part hpart⟩) w
      places
  by_cases hsingle : op.isSingle = true
  · have hself : op ∈ op.unrolled := unrolled_of_isSingle hsingle ▸ List.mem_singleton_self op
    exact single_mirrors hsingle (h op hself) w places
  · cases op with
    | again times ops => rw [perform, perform] at hstate ⊢; exact ⟨rfl, hstate, rfl⟩
    | _ => exact absurd rfl hsingle

/-! ### What stays as it is -/

/-- The subscribers are at the same places, and commands are carried out if they were before. -/
structure Steady (w w' : World) : Prop where
  /-- Nobody subscribes, and nobody receives anything. -/
  subscribers : w'.subscribers = w.subscribers
  /-- Whoever carries out commands stays. -/
  attended : w'.host.attended = w.host.attended

theorem Steady.refl (w : World) : w.Steady w := ⟨rfl, rfl⟩

theorem Steady.trans {w w' w'' : World} (h : w.Steady w') (h' : w'.Steady w'') : w.Steady w'' :=
  ⟨h'.subscribers.trans h.subscribers, h'.attended.trans h.attended⟩

theorem steady_callRouter (w : World) (call : RouterCall) : w.Steady (w.callRouter call).state :=
  ⟨subscribers_absorb _ _, congrArg Host.attended (host_absorb _ _)⟩

theorem steady_callCatalog (w : World) (call : CatalogCall) : w.Steady (w.callCatalog call).state :=
  ⟨subscribers_absorb _ _, congrArg Host.attended (host_absorb _ _)⟩

theorem steady_callHost (w : World) (call : HostCall) (h : call ≠ .leave) :
    w.Steady (w.callHost call).state := by
  refine ⟨subscribers_absorb _ _, (congrArg Host.attended (host_absorb _ _)).trans ?_⟩
  cases call with
  | leave => exact absurd rfl h
  | _ => rfl

theorem steady_step (w : World) : w.Steady w.step.state := by
  unfold step
  split
  · exact ⟨subscribers_absorb _ _, congrArg Host.attended (host_absorb _ _)⟩
  · exact .refl w

theorem steady_pumpAtMost (n : Nat) (w : World) : w.Steady (pumpAtMost n w).state := by
  induction n generalizing w with
  | zero => exact .refl w
  | succ n ih =>
    rw [pumpAtMost]
    cases w.step.value with
    | none => exact .refl w
    | some event => exact w.steady_step.trans (ih w.step.state)

theorem steady_submit (w : World) (s : Router.Submission) : w.Steady (w.submit s).state := by
  have hcall := w.steady_callRouter (.submit (.ofNat w.admitted) .epoch s)
  unfold submit
  dsimp only
  split <;> exact ⟨hcall.subscribers, hcall.attended⟩

theorem steady_single {op : Op} (hsingle : op.isSingle = true) (h : op.isOrdinary = true)
    (w : World) : w.Steady (perform op w).state := by
  cases op with
  | host call => exact w.steady_callHost call fun he => by subst he; cases h
  | catalog call => exact w.steady_callCatalog call
  | submit s => exact w.steady_submit s
  | attach => exact ⟨subscribers_absorb _ _, congrArg Host.attended (host_absorb _ _)⟩
  | step => exact w.steady_step
  | pump => exact steady_pumpAtMost w.workload w
  | hasListener => exact w.steady_callRouter .hasListener
  | resolve ref selected => exact w.steady_callRouter (.resolve (w.idOf ref) selected)
  | reject ref => exact w.steady_callRouter (.reject (w.idOf ref))
  | reply application ref isError payload =>
    exact w.steady_callRouter (.reply application (w.idOf ref) isError payload)
  | setTimeout stage duration => exact w.steady_callRouter (.setTimeout stage duration)
  | announceStart application => exact w.steady_callRouter (.announceStart application)
  | settings => exact w.steady_callRouter .settings
  | counters => exact w.steady_callRouter .counters
  | request ref => exact w.steady_callRouter (.request (w.idOf ref))
  | timeOut stage ref millis =>
    exact w.steady_callRouter (.handle (.timeout stage (w.idOf ref) millis))
  | process => exact w.steady_callRouter .process
  | subscribe => cases h
  | receive subscriber limit => cases h
  | again times ops => cases hsingle
  | _ => exact ⟨rfl, rfl⟩

theorem steady_performAll {ops : List Op}
    (h : ∀ op ∈ ops, op.isSingle = true ∧ op.isOrdinary = true) (w : World) :
    w.Steady (performAll ops w) := by
  induction ops generalizing w with
  | nil =>
    rw [performAll]
    exact .refl w
  | cons op ops ih =>
    obtain ⟨⟨hsingle, hop⟩, hrest⟩ := List.forall_mem_cons.mp h
    rw [performAll]
    exact (steady_single hsingle hop w).trans (ih hrest (perform op w).state)

/-- Nothing that is neither a fault nor done by a subscriber moves subscribers or makes whoever
carries out commands leave. -/
theorem steady_perform {op : Op} (h : ∀ part ∈ op.unrolled, part.isOrdinary = true) (w : World) :
    w.Steady (perform op w).state := by
  have hunrolls := unrolls.1 op
  rw [← hunrolls.same, state_performEach]
  exact steady_performAll (fun part hpart => ⟨hunrolls.single part hpart, h part hpart⟩) w

end World

end IntentRouter
