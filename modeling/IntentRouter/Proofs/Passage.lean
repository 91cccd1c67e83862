import IntentRouter.Proofs.Output

/-!
# How far a step takes a request

A step has three parts, each of which applies to one state. On its way through
them a sound request stays sound and follows the graph of its life, at most one
output goes out, and it is the one that belongs to the state reached. In the end
the request waits or is settled.
-/

namespace IntentRouter.Router

open Effect

/-- What holds of a passage of the request `q` after any of its parts. -/
structure Passage.OnWay (around : Surroundings) (settings : Settings) (q : Request)
    (p : Passage) : Prop where
  /-- The record has followed the graph. -/
  becomes : q.Becomes p.request
  /-- The record is sound. -/
  sound : p.request.Sound
  /-- There is at most one output. -/
  single : (outputs p.effects).length ≤ 1
  /-- An output is the one of the state that has been reached. -/
  marks : ∀ o ∈ outputs p.effects, o.Marks around p.request
  /-- Nothing goes out unless a wait has begun. -/
  quiet : p.request.state.stage? = none → outputs p.effects = []
  /-- A timer is armed exactly when a wait has begun. -/
  armed : armed p.effects =
    p.request.state.stage?.toList.map fun stage => .timeout stage q.id (settings.timeout stage)
  /-- No event is posted. -/
  posted : posted p.effects = []
  /-- No request is taken back. -/
  ended : ended p.effects = []

variable {around : Surroundings} {settings : Settings} {q : Request} {p : Passage}

namespace Passage.OnWay

/-- A passage on its way has the name it started with. -/
theorem id_eq (h : p.OnWay around settings q) : p.request.id = q.id := h.becomes.alike.id

/-- Without a wait nothing has happened but reports. -/
theorem silent (h : p.OnWay around settings q) (hs : p.request.state.stage? = none) :
    Silent p.effects := by
  refine ⟨h.quiet hs, ?_, h.posted, h.ended⟩
  rw [h.armed, hs]
  rfl

/-- A passage goes on to a state in which the request does not wait either. -/
theorem onward (h : p.OnWay around settings q) (hs : p.request.state.stage? = none) {r : Request}
    {listener : Option Nat} {es : List Effect} (becomes : p.request.Becomes r) (sound : r.Sound)
    (stage : r.state.stage? = none) (shows : Silent es) :
    Passage.OnWay around settings q ⟨r, listener, p.effects ++ es⟩ := by
  have hshows : Silent (p.effects ++ es) := shows.after_silent (h.silent hs)
  refine ⟨h.becomes.trans becomes, sound, ?_, ?_, fun _ => hshows.outputs, ?_, hshows.posted,
    hshows.ended⟩
  · rw [hshows.outputs]
    exact Nat.zero_le 1
  · rw [hshows.outputs]
    intro o ho
    cases ho
  · rw [hshows.armed, stage]
    rfl

/-- A passage comes to a wait. -/
theorem wait (h : p.OnWay around settings q) (hs : p.request.state.stage? = none) {r : Request}
    {listener : Option Nat} {es : List Effect} {outs : List Output} {stage : Stage}
    (becomes : p.request.Becomes r) (sound : r.Sound) (waits : r.state.stage? = some stage)
    (single : outs.length ≤ 1) (marks : ∀ o ∈ outs, o.Marks around r)
    (shows : Shows es outs [.timeout stage p.request.id (settings.timeout stage)] [] []) :
    Passage.OnWay around settings q ⟨r, listener, p.effects ++ es⟩ := by
  have hshows := shows.after_silent (h.silent hs)
  refine ⟨h.becomes.trans becomes, sound, ?_, ?_, ?_, ?_, hshows.posted, hshows.ended⟩
  · rwa [hshows.outputs]
  · rwa [hshows.outputs]
  · intro hnone
    rw [waits] at hnone
    cases hnone
  · rw [hshows.armed, waits, h.id_eq]
    rfl

end Passage.OnWay

/-- The first candidate's owner becomes the handler of a request that has none. -/
theorem chooseFirst_eq (h : q.handler = none) (first : Intent) (rest : List Intent)
    (hc : q.candidates = first :: rest) :
    chooseFirst q = ((q.choose first.owner).moveTo .chosen, [.about q.id .choiceMade]) := by
  simp [chooseFirst, hc, Request.choose, Request.moveTo, h]

/-- Choosing leaves no request without a handler unless the listener has been asked. -/
theorem onWay_choosing (h : p.OnWay around settings q) (hs : p.request.state = .received) :
    (choosing around settings p).OnWay around settings q ∧
      ((choosing around settings p).request.state = .awaitingChoice ∨
        (choosing around settings p).request.state = .chosen) := by
  have hnone : p.request.handler = none := h.sound.unhandled (by rw [hs]; rfl)
  obtain ⟨first, rest, hc⟩ := List.exists_cons_of_ne_nil h.sound.candidates
  have hfirst := chooseFirst_eq hnone first rest hc
  have hmem : first ∈ p.request.candidates := by rw [hc]; exact List.mem_cons_self
  have hstage : p.request.state.stage? = none := by rw [hs]; rfl
  have hchoose := Request.becomes_choose first.owner (by rw [hs]; exact .pick)
  have hsound := h.sound.choose hmem hnone (by rw [hs]; decide)
  simp only [choosing, hnone, Option.isSome_none, Bool.false_eq_true, if_false]
  cases hl : p.listener with
  | none =>
    simp only [hfirst]
    exact ⟨h.onward hstage hchoose hsound rfl ⟨rfl, rfl, rfl, rfl⟩, .inr rfl⟩
  | some listener =>
    by_cases hlive : around.listens listener = true
    · have hask := Request.becomes_moveTo (q := p.request) (s := .awaitingChoice)
        (by rw [hs]; exact .ask)
      have hoffer : Shows [.offer listener (.ofRequest p.request),
          .about p.request.id (.awaitingChoice p.request.intentId),
          timer settings .choice p.request.id] [.asked listener (.ofRequest p.request)]
          [.timeout .choice p.request.id (settings.timeout .choice)] [] [] := ⟨rfl, rfl, rfl, rfl⟩
      simp only [if_pos hlive]
      refine ⟨h.wait hstage hask (h.sound.ask hs) rfl ?_ ?_ hoffer, .inl rfl⟩
      · exact Nat.le_refl 1
      · intro o ho
        rw [List.mem_singleton.mp ho]
        exact ⟨rfl, hlive, rfl⟩
    · simp only [if_neg hlive, hfirst]
      exact ⟨h.onward hstage hchoose hsound rfl ⟨rfl, rfl, rfl, rfl⟩, .inr rfl⟩

/-- A chosen handler runs already, or it is started. -/
theorem onWay_starting (h : p.OnWay around settings q) (hs : p.request.state = .chosen) :
    (starting around settings p).OnWay around settings q ∧
      ((starting around settings p).request.state = .awaitingStart ∨
        (starting around settings p).request.state = .started) := by
  have hhandled : p.request.state.handled = true := by rw [hs]; rfl
  have hstage : p.request.state.stage? = none := by rw [hs]; rfl
  obtain ⟨handler, hh⟩ := Option.isSome_iff_exists.mp (h.sound.handled hhandled)
  simp only [starting, hh]
  by_cases hrun : around.host.isRunning handler = true
  · have hfind := Request.becomes_moveTo (q := p.request) (s := .started) (by rw [hs]; exact .find)
    simp only [if_pos hrun]
    exact ⟨h.onward hstage hfind (h.sound.moveTo hhandled rfl) rfl ⟨rfl, rfl, rfl, rfl⟩, .inr rfl⟩
  · have hlaunch := Request.becomes_moveTo (q := p.request) (s := .awaitingStart)
      (by rw [hs]; exact .launch)
    obtain ⟨outs, hsingle, hout, hissue⟩ := around.host.issue_shows (.start handler)
    have harm : Shows [.about p.request.id (.handlerNotRunning handler),
        timer settings .start p.request.id] []
        [.timeout .start p.request.id (settings.timeout .start)] [] [] := ⟨rfl, rfl, rfl, rfl⟩
    simp only [if_neg hrun]
    refine ⟨h.wait hstage hlaunch (h.sound.moveTo hhandled rfl) rfl hsingle ?_
      (harm.append hissue), .inl rfl⟩
    intro o ho
    cases hout o ho
    exact ⟨rfl, hh, Bool.eq_false_iff.mpr hrun⟩

/-- A request with a running handler is sent to it, or fails for want of a channel. -/
theorem onWay_sending (h : p.OnWay around settings q) (hs : p.request.state = .started) :
    (sending around settings p).OnWay around settings q ∧
      ((sending around settings p).request.state = .awaitingReply ∨
        (sending around settings p).request.state = .settled) := by
  have hhandled : p.request.state.handled = true := by rw [hs]; rfl
  have hstage : p.request.state.stage? = none := by rw [hs]; rfl
  obtain ⟨handler, hh⟩ := Option.isSome_iff_exists.mp (h.sound.handled hhandled)
  simp only [sending, hh, Option.getD_some]
  cases hc : around.host.connection? handler with
  | none =>
    have hlose := Request.becomes_settle (q := p.request) (.failed noChannelMessage)
      (by rw [hs]; exact .lose)
    exact ⟨h.onward hstage hlose (h.sound.settle _) rfl ⟨rfl, rfl, rfl, rfl⟩, .inr rfl⟩
  | some channel =>
    have hsend := Request.becomes_moveTo (q := p.request) (s := .awaitingReply)
      (by rw [hs]; exact .send)
    obtain ⟨outs, hsingle, hout, hissue⟩ := around.host.issue_shows
      (.deliverRequest channel (p.request.moveTo .awaitingReply))
    have harm : Shows [.about p.request.id (.sending handler),
        timer settings .reply p.request.id] []
        [.timeout .reply p.request.id (settings.timeout .reply)] [] [] := ⟨rfl, rfl, rfl, rfl⟩
    refine ⟨h.wait hstage hsend (h.sound.moveTo hhandled rfl) rfl hsingle ?_
      (harm.append hissue), .inl rfl⟩
    intro o ho
    cases hout o ho
    exact ⟨rfl, rfl, handler, hh, hc⟩

/-- A part of the step takes a request out of its own state, and leaves requests in other
states as they are. -/
theorem onWay_whenIn (state : RequestState) (part : Passage → Passage)
    {left : List RequestState} (h : p.OnWay around settings q) (hleft : p.request.state ∉ left)
    (hpart : p.request.state = state →
      (part p).OnWay around settings q ∧ (part p).request.state ∉ state :: left) :
    (whenIn state part p).OnWay around settings q ∧
      (whenIn state part p).request.state ∉ state :: left := by
  unfold whenIn
  by_cases hs : p.request.state = state
  · rw [if_pos hs]
    exact hpart hs
  · rw [if_neg hs]
    refine ⟨h, fun hmem => ?_⟩
    rcases List.mem_cons.mp hmem with he | hmem
    · exact hs he
    · exact hleft hmem

/-- How far a request gets in a step before it may be sent to its handler. -/
def approach (around : Surroundings) (settings : Settings) (listener : Option Nat) (q : Request) :
    Passage :=
  whenIn .chosen (starting around settings)
    (whenIn .received (choosing around settings)
      ⟨q, listener, [.about q.id (.processing q.state)]⟩)

/-- A step sends the request, if it gets that far. -/
theorem advance_eq (around : Surroundings) (settings : Settings) (listener : Option Nat)
    (q : Request) :
    advance around settings listener q =
      whenIn .started (sending around settings) (approach around settings listener q) := rfl

/-- A sound request that does not wait is on its way when a step begins. -/
theorem onWay_start (around : Surroundings) (settings : Settings) (listener : Option Nat)
    (hq : q.Sound) (hstage : q.state.stage? = none) :
    Passage.OnWay around settings q ⟨q, listener, [.about q.id (.processing q.state)]⟩ := by
  refine ⟨.refl q, hq, Nat.zero_le 1, ?_, fun _ => rfl, ?_, rfl, rfl⟩
  · intro o ho
    cases ho
  · rw [hstage]
    rfl

/-- Before a sound request may be sent it waits, or its handler runs. It gets into no state that
comes later, unless it was there from the start. -/
theorem onWay_approach (around : Surroundings) (settings : Settings) (listener : Option Nat)
    (hq : q.Sound) (hlane : q.state.lane = .main) {left : List RequestState}
    (hleft : q.state ∉ left)
    (hlate : ∀ s ∈ left, s ∉ [.awaitingChoice, .chosen, .awaitingStart, .started]) :
    (approach around settings listener q).OnWay around settings q ∧
      (approach around settings listener q).request.state ∉ .chosen :: .received :: left := by
  have hstart := onWay_start around settings listener hq (RequestState.lane_eq_main.mp hlane)
  -- Each part leaves its own state for good.
  have hchosen := onWay_whenIn .received (choosing around settings) hstart hleft fun hs => by
    obtain ⟨hway, hin⟩ := onWay_choosing hstart hs
    refine ⟨hway, ?_⟩
    rcases hin with hin | hin <;> rw [hin, List.mem_cons, not_or] <;>
      exact ⟨by decide, fun hmem => hlate _ hmem (by decide)⟩
  refine onWay_whenIn .chosen (starting around settings) hchosen.1 hchosen.2 fun hs => ?_
  obtain ⟨hway, hin⟩ := onWay_starting hchosen.1 hs
  refine ⟨hway, ?_⟩
  rcases hin with hin | hin <;> rw [hin, List.mem_cons, List.mem_cons, not_or, not_or] <;>
    exact ⟨by decide, by decide, fun hmem => hlate _ hmem (by decide)⟩

/-- A step takes a sound request from the main lane to a wait or to its outcome. -/
theorem onWay_advance (around : Surroundings) (settings : Settings) (listener : Option Nat)
    (hq : q.Sound) (hlane : q.state.lane = .main) :
    (advance around settings listener q).OnWay around settings q ∧
      ((advance around settings listener q).request.state.stage?.isSome = true ∨
        (advance around settings listener q).request.state = .settled) := by
  have hnear := onWay_approach around settings listener hq hlane List.not_mem_nil
    (List.forall_mem_nil _)
  have hsent := onWay_whenIn .started (sending around settings) hnear.1 hnear.2 fun hs => by
    obtain ⟨hway, hin⟩ := onWay_sending hnear.1 hs
    refine ⟨hway, ?_⟩
    rcases hin with hin | hin <;> rw [hin] <;> decide
  rw [advance_eq]
  refine ⟨hsent.1, ?_⟩
  have hfinal : ∀ s : RequestState, s ∉ [RequestState.started, .chosen, .received] →
      s.stage?.isSome = true ∨ s = .settled := by
    intro s
    cases s <;> decide
  exact hfinal _ hsent.2

/-- A settled request stays as it is in a step. -/
theorem advance_of_settled (around : Surroundings) (settings : Settings) (listener : Option Nat)
    (hs : q.state = .settled) : (advance around settings listener q).request = q := by
  simp only [advance, whenIn, hs, reduceCtorEq, if_false]

/-- A step that sends a request, or settles it, has found its handler running. -/
theorem exists_sending (hq : q.Sound) (hlane : q.state.lane = .main)
    (hs : q.state ≠ .settled) {listener : Option Nat}
    (hend : (advance around settings listener q).request.state ∈
      [RequestState.awaitingReply, .settled]) :
    ∃ near : Passage, near.OnWay around settings q ∧ near.request.state = .started ∧
      advance around settings listener q = sending around settings near := by
  have hleft : q.state ∉ [RequestState.awaitingReply, .settled] := by
    revert hlane hs
    cases q.state <;> decide
  have hnear := onWay_approach around settings listener hq hlane hleft (by decide)
  refine ⟨_, hnear.1, ?_⟩
  rw [advance_eq, whenIn] at hend ⊢
  by_cases hrun : (approach around settings listener q).request.state = .started
  · exact ⟨hrun, if_pos hrun⟩
  · rw [if_neg hrun] at hend
    exact absurd (List.mem_cons_of_mem _ (List.mem_cons_of_mem _ hend)) hnear.2

/-- A step after which a request waits for a reply has handed it over to its handler. -/
theorem advance_awaitingReply (hq : q.Sound) (hlane : q.state.lane = .main)
    {listener : Option Nat} (hpass : advance around settings listener q = p)
    (hend : p.request.state = .awaitingReply) :
    ∃ handler channel, p.request.handler = some handler ∧
      around.host.connection? handler = some channel ∧
        around.host.issue (.deliverRequest channel p.request) ∈ p.effects := by
  have hs : q.state ≠ .settled := by
    intro hs
    rw [← hpass, advance_of_settled around settings listener hs, hs] at hend
    cases hend
  obtain ⟨near, hway, hrun, heq⟩ := exists_sending hq hlane hs (by rw [hpass, hend]; decide)
  obtain ⟨handler, hh⟩ := Option.isSome_iff_exists.mp (hway.sound.handled (by rw [hrun]; rfl))
  rw [← hpass, heq] at hend ⊢
  simp only [sending, hh, Option.getD_some] at hend ⊢
  cases hc : around.host.connection? handler with
  | none =>
    rw [hc] at hend
    cases hend
  | some channel =>
    refine ⟨handler, channel, hh, hc, ?_⟩
    simp

/-- A step settles a request only for want of a channel to its handler. -/
theorem advance_settled (hq : q.Sound) (hlane : q.state.lane = .main) (hs : q.state ≠ .settled)
    {listener : Option Nat} (hpass : advance around settings listener q = p)
    (hend : p.request.state = .settled) :
    ∃ handler, p.request.handler = some handler ∧ around.host.connection? handler = none ∧
      p.request.outcome = some (.failed noChannelMessage) := by
  obtain ⟨near, hway, hrun, heq⟩ := exists_sending hq hlane hs (by rw [hpass, hend]; decide)
  obtain ⟨handler, hh⟩ := Option.isSome_iff_exists.mp (hway.sound.handled (by rw [hrun]; rfl))
  have hnone := hway.sound.outcome_none (by rw [hrun]; decide)
  rw [← hpass, heq] at hend ⊢
  simp only [sending, hh, Option.getD_some] at hend ⊢
  cases hc : around.host.connection? handler with
  | none =>
    exact ⟨handler, hh, hc, Request.outcome_settle hnone _⟩
  | some channel =>
    rw [hc] at hend
    cases hend

end IntentRouter.Router
