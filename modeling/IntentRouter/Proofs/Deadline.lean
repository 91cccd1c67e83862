import IntentRouter.Proofs.Alarm
import IntentRouter.Proofs.Origin
import IntentRouter.Proofs.Return
import IntentRouter.Proofs.Rivals
import IntentRouter.Proofs.Timeouts

/-!
# A wait ends in time

A request that begins to wait has a timer for this wait, which runs as long as the setting of its
stage says at that moment. Among all timers and posted events there is exactly one about this wait,
which waits for its time and then to be handled. So unless something else ends the wait first, this
event does, in its time and with the message that tells how long it has taken. What becomes of the
setting later does not matter, and neither do other timers, which are not about this wait.
-/

namespace IntentRouter

open Effect

/-! ## What the message tells -/

/-- The letter with which the message of a stage begins. -/
def Stage.initial : Stage → Char
  | .choice => 'D'
  | .start => 'S'
  | .reply => 'W'

theorem Stage.head?_timeoutMessage (s : Stage) (millis : Nat) :
    (s.timeoutMessage millis).toList.head? = some s.initial := by
  unfold timeoutMessage
  rw [String.toList_append, String.toList_append, String.toList_append]
  cases s with
  | choice => rfl
  | start => rfl
  | reply => rfl

/-- The message that the time of a wait is over tells the stage and how long it was. -/
theorem Stage.timeoutMessage_inj {s s' : Stage} {m n : Nat}
    (h : s.timeoutMessage m = s'.timeoutMessage n) : s = s' ∧ m = n := by
  have hinitial : s.initial = s'.initial := by
    refine Option.some.inj ?_
    rw [← s.head?_timeoutMessage m, h, s'.head?_timeoutMessage n]
  have hstage : s = s' := by
    cases s <;> cases s' <;> first | rfl | exact absurd hinitial (by decide)
  subst hstage
  unfold timeoutMessage at h
  have hnumber : toString m = toString n :=
    (String.append_right_inj _).mp ((String.append_left_inj _).mp h)
  have hdigits : Nat.toDigits 10 m = Nat.toDigits 10 n := String.ofList_injective hnumber
  have hvalues := congrArg (fun ds => Nat.ofDigitChars 10 ds 0) hdigits
  rw [Nat.ofDigitChars_ten_toDigits, Nat.ofDigitChars_ten_toDigits] at hvalues
  exact ⟨rfl, hvalues⟩

/-! ## What ends a wait -/

namespace Change

variable {around : Surroundings} {before after : List Request} {effects : List Effect}
  {taken : Option RequestId} {admitted : Option Request} {e : ScheduledEvent}

/-- A timer is armed for a request that did not wait and does so now. -/
theorem armed_cases (h : Change around before after effects taken admitted)
    (he : e ∈ armed effects) :
    ∃ p ∈ before, p.state.lane = .main ∧ ∃ stage millis, e = .timeout stage p.id millis ∧
      ∃ q ∈ after, q.id = p.id ∧ q.state.stage? = some stage := by
  cases h with
  | parked p q stage millis outs known ready becomes sound waits single marks shows =>
    rw [shows.armed, List.mem_singleton] at he
    have hid := becomes.alike.id
    exact ⟨p, known, ready, stage, millis, he, q, Request.mem_replaceIn_self known hid, hid, waits⟩
  | still shows => rw [shows.armed] at he; cases he
  | admitted _ _ _ shows => rw [shows.armed] at he; cases he
  | resumed _ _ _ _ _ _ _ shows => rw [shows.armed] at he; cases he
  | released _ _ shows => rw [shows.armed] at he; cases he
  | delivered _ _ _ _ _ _ _ _ _ _ shows => rw [shows.armed] at he; cases he

/-- Nothing but steps is posted. -/
theorem posted_cases (h : Change around before after effects taken admitted)
    (he : e ∈ posted effects) : e = .process := by
  have hwakes : posted effects = around.wakes ∨ posted effects = [] := by
    cases h with
    | still shows => exact .inr shows.posted
    | admitted _ _ _ shows => exact .inl shows.posted
    | resumed _ _ _ _ _ _ _ shows => exact .inl shows.posted
    | released _ _ shows => exact .inl shows.posted
    | parked _ _ _ _ _ _ _ _ _ _ _ _ shows => exact .inl shows.posted
    | delivered _ _ _ _ _ _ _ _ _ _ shows => exact .inl shows.posted
  rcases hwakes with hsome | hnone
  · rw [hsome, Surroundings.wakes] at he
    split at he
    · exact List.mem_singleton.mp he
    · cases he
  · rw [hnone] at he
    cases he

end Change

/-- A step that takes a request to a wait arms its timer with the setting of the stage. -/
theorem Router.Steps.armed {r : Router} {around : Surroundings} {p : Request}
    {pass : Router.Passage} {stage : Stage} (hs : r.Steps around p pass)
    (h : Coupled r.requests r.lanes) (hw : pass.request.state.stage? = some stage) :
    Effect.armed (r.process around).effects =
      [.timeout stage pass.request.id (r.settings.timeout stage)] := by
  have hway := hs.onWay h
  rw [Router.process_of_waits hs h hw, armed_append, (Router.wake_shows around).armed,
    List.append_nil, hway.armed, hw, hway.id_eq]
  rfl

namespace Router

variable {r : Router} {around : Surroundings} {q : Request} {stage : Stage}

/-- A report on a wait leaves a request that waits as it is, unless it is on its own wait. -/
theorem mem_report_or_endsWait {call : RouterCall} {reported : Stage} {id : RequestId}
    (h : Coupled r.requests r.lanes) (hq : q ∈ r.requests) (hw : q.state.stage? = some stage)
    (hcall : call.wait? = some (reported, id)) :
    q ∈ (r.perform around call).state.requests ∨ r.EndsWait stage q.id call := by
  by_cases hid : q.id = id
  · subst hid
    by_cases hstage : reported = stage
    · subst hstage
      exact .inr ⟨q, hq, rfl, RequestState.stage?_eq_some.mp hw, .inl hcall⟩
    · have hother : ¬ r.Waits reported q.id := by
        rintro ⟨p, hp, hpid, hpw⟩
        rw [h.eq_of_id hp hq hpid, hw] at hpw
        exact hstage (Option.some.inj hpw).symm
      obtain ⟨note, -, hperform⟩ := perform_of_not_waits around h hother hcall
      rw [hperform]
      exact .inl hq
  · exact .inl (((spares_report around h hcall).mem_iff hid).mpr hq)

/-- The start of an application leaves a request that waits as it is, unless it waits for this. -/
theorem mem_announceStart_or_endsWait (around : Surroundings) (application : String)
    (h : Coupled r.requests r.lanes) (hq : q ∈ r.requests) (hw : q.state.stage? = some stage) :
    q ∈ (r.announceStart around application).state.requests ∨
      r.EndsWait stage q.id (.announceStart application) := by
  by_cases hstart : q.state = .awaitingStart ∧ q.handler = some application
  · have hstage : stage = .start := by
      rw [hstart.1] at hw
      exact (Option.some.inj hw).symm
    exact .inr ⟨q, hq, rfl, RequestState.stage?_eq_some.mp hw,
      .inr ⟨hstage, application, rfl, hstart.2⟩⟩
  · have hmem := List.mem_map_of_mem (f := Request.releasedBy application) hq
    rw [Request.releasedBy, if_neg hstart] at hmem
    rw [announceStart_eq h]
    exact .inl hmem

/-- A step leaves a request that waits as it is. -/
theorem mem_process_of_waits (h : Coupled r.requests r.lanes) (hq : q ∈ r.requests)
    (hw : q.state.stage? = some stage) : q ∈ (r.process around).state.requests := by
  rcases idle_or_steps h around with hmain | ⟨p, pass, hs⟩
  · rw [process_of_idle hmain]
    exact hq
  · have hne : q.id ≠ p.id := by
      intro hid
      have hready := hs.ready
      rw [← h.eq_of_id hq hs.known hid, RequestState.lane_eq_main, hw] at hready
      cases hready
    exact ((hs.spares h).mem_iff hne).mpr hq

end Router

/-- A request that waits stays as it is in a move, unless the move ends its wait. -/
theorem Move.mem_or_endsWait (m : Move) {r : Router} {q : Request} {stage : Stage}
    (h : Coupled r.requests r.lanes) (hq : q ∈ r.requests) (hw : q.state.stage? = some stage) :
    q ∈ (m.turn r).state.requests ∨
      ∃ call, m.ask = .router call ∧ r.EndsWait stage q.id call := by
  obtain ⟨around, ask⟩ := m
  have hreport : ∀ (call : RouterCall) (reported : Stage) (id : RequestId),
      call.wait? = some (reported, id) → q ∈ (r.perform around call).state.requests ∨
        ∃ call', Ask.router call = .router call' ∧ r.EndsWait stage q.id call' :=
    fun call _ _ hcall =>
      (Router.mem_report_or_endsWait h hq hw hcall).imp_right fun hends => ⟨call, rfl, hends⟩
  cases ask with
  | catalog call => exact .inl hq
  | router call =>
    cases call with
    | submit id now s =>
      refine .inl ?_
      change q ∈ (r.submit around id now s).state.requests
      rw [Router.requests_submit]
      exact List.mem_append_left _ hq
    | resolve id selected => exact hreport (.resolve id selected) .choice id rfl
    | reject id => exact hreport (.reject id) .choice id rfl
    | reply application id isError payload =>
      exact hreport (.reply application id isError payload) .reply id rfl
    | announceStart application =>
      exact (Router.mem_announceStart_or_endsWait around application h hq hw).imp_right
        fun hends => ⟨_, rfl, hends⟩
    | process => exact .inl (Router.mem_process_of_waits h hq hw)
    | handle event =>
      cases event with
      | process => exact .inl (Router.mem_process_of_waits h hq hw)
      | timeout reported id millis =>
        exact hreport (.handle (.timeout reported id millis)) reported id rfl
    | setTimeout reported duration =>
      refine .inl ?_
      simp only [turn, Router.perform, Router.setTimeout]
      cases r.settings.setTimeout reported duration with
      | error reason => exact hq
      | ok settings => exact hq
    | _ => exact .inl hq

/-- A request for which the end of its wait is reported has failed with the message of the stage. -/
theorem Router.mem_failed {r : Router} (around : Surroundings) {q : Request} {stage : Stage}
    (h : Coupled r.requests r.lanes) (hq : q ∈ r.requests) (hw : q.state.stage? = some stage)
    (millis : Nat) :
    { q with state := .settled, outcome := some (.failed (stage.timeoutMessage millis)) } ∈
      (r.perform around (.handle (.timeout stage q.id millis))).state.requests := by
  have hnone := (h.sound q hq).outcome_none (RequestState.ne_settled_of_stage hw)
  have hfailed : q.resumedBy (.handle (.timeout stage q.id millis)) = { q with
      state := .settled
      outcome := some (.failed (stage.timeoutMessage millis)) } := by
    rw [Request.resumedBy, Request.fail, Request.settle, hnone, Option.none_or]
  have hcall : (RouterCall.handle (.timeout stage q.id millis)).wait? = some (stage, q.id) := rfl
  obtain ⟨es, -, hperform⟩ := Router.perform_of_waits around h hq hw hcall
  rw [hperform, Router.resume, hfailed]
  exact Request.mem_replaceIn_self hq rfl

namespace Run

variable {run : Run} {i j k n : Nat} {m : Move} {q : Request} {stage : Stage} {id : RequestId}

/-- A request that is in a state at two times is in it all the time in between. -/
theorem inState_between {s : RequestState} (hi : (run.router i).InState id s)
    (hk : (run.router k).InState id s) (hij : i ≤ j) (hjk : j ≤ k) :
    (run.router j).InState id s := by
  obtain ⟨p, hp, rfl, hstate⟩ := hi
  obtain ⟨l, hl, q₀, hadmitted, hbecomes⟩ := run.traced i p hp
  have hfirst := (phase_eq_inFlight_iff run p.id i s).mpr ⟨p, hp, rfl, hstate⟩
  have hlast := (phase_eq_inFlight_iff run p.id k s).mpr hk
  have hout := path_of_le hadmitted hl hij
  have hback := path_of_le hadmitted (Nat.lt_of_lt_of_le hl hij) hjk
  rw [← hbecomes.alike.id] at hout hback
  rw [hlast, ← hfirst] at hback
  have hsame := Phase.Path.antisymm hout hback
  exact (phase_eq_inFlight_iff run p.id j s).mp (hsame.symm.trans hfirst)

/-- A request that begins to wait does so in a step, which arms its timer with the setting of the
stage. -/
theorem armed_of_enters (hm : run.moves[n]? = some m)
    (hbefore : ¬ (run.router n).Waits stage q.id) (hq : q ∈ (run.router (n + 1)).requests)
    (hw : q.state.stage? = some stage) :
    armed (run.effects n) = [.timeout stage q.id ((run.router n).settings.timeout stage)] := by
  have hmem := hq
  rw [router_succ hm] at hmem
  cases m.makes_of_mem (run.coupled n) hmem with
  | kept known => exact absurd ⟨q, known, rfl, hw⟩ hbefore
  | admitted admits =>
    have hchange := run.change hm
    rw [admitted?_eq hm, admits] at hchange
    rw [hchange.of_admitted.2] at hw
    cases hw
  | resumed p stage' call asks reports known waits result =>
    have hready := (Request.resumedBy_spec ((run.coupled n).sound p known) waits reports).2.2
    rw [← result, RequestState.lane_eq_main, hw] at hready
    cases hready
  | released p application asks known waits handled result =>
    rw [result] at hw
    cases hw
  | advanced p pass stage' steps takes causes waits result =>
    rw [effects_eq hm]
    rcases m.step_or_not (run.router n) with ⟨-, heffects, -⟩ | ⟨hnone, -⟩
    · rw [result] at hw ⊢
      rw [heffects]
      exact steps.armed (run.coupled n) hw
    · rw [hnone] at takes
      cases takes

end Run

/-! ## What interferes with a wait -/

/-- What may end the wait of a request in a stage besides a timer: a choice or a rejection, the
start of its handler, a reply, or a report that the wait has ended which no timer has made. -/
inductive Op.Interferes (w : World) (stage : Stage) (q : Request) : Op → Prop where
  /-- The listener chooses for the request. -/
  | resolve (ref : RequestRef) (selected : Intent) (choice : stage = .choice)
    (named : w.idOf ref = q.id) : Interferes w stage q (.resolve ref selected)
  /-- The listener rejects the request. -/
  | reject (ref : RequestRef) (choice : stage = .choice) (named : w.idOf ref = q.id) :
    Interferes w stage q (.reject ref)
  /-- The handler of the request has started. -/
  | announceStart (application : String) (start : stage = .start)
    (handled : q.handler = some application) : Interferes w stage q (.announceStart application)
  /-- An application replies to the request. -/
  | reply (application : String) (ref : RequestRef) (isError : Bool) (payload : Json.Parameters)
    (reply : stage = .reply) (named : w.idOf ref = q.id) :
    Interferes w stage q (.reply application ref isError payload)
  /-- The end of the wait is reported without a timer. -/
  | timeOut (ref : RequestRef) (millis : Nat) (named : w.idOf ref = q.id) :
    Interferes w stage q (.timeOut stage ref millis)

/-- An operation in which the end of a wait is reported interferes, or it handles a posted event
about the wait. -/
theorem Op.interferes_or_step {w : World} {stage : Stage} {q : Request} {op : Op}
    {call : RouterCall} (hask : (op.move w).ask = .router call)
    (hcall : call.wait? = some (stage, q.id)) :
    op.Interferes w stage q ∨
      op = .step ∧ ∃ passed rest, w.inbox = some (.timeout stage q.id passed :: rest) := by
  cases op with
  | resolve ref selected =>
    obtain rfl := Ask.router.inj hask
    obtain ⟨hchoice, hnamed⟩ := Prod.mk.inj (Option.some.inj hcall)
    exact .inl (.resolve ref selected hchoice.symm hnamed)
  | reject ref =>
    obtain rfl := Ask.router.inj hask
    obtain ⟨hchoice, hnamed⟩ := Prod.mk.inj (Option.some.inj hcall)
    exact .inl (.reject ref hchoice.symm hnamed)
  | reply application ref isError payload =>
    obtain rfl := Ask.router.inj hask
    obtain ⟨hreply, hnamed⟩ := Prod.mk.inj (Option.some.inj hcall)
    exact .inl (.reply application ref isError payload hreply.symm hnamed)
  | timeOut reported ref millis =>
    obtain rfl := Ask.router.inj hask
    obtain ⟨rfl, hnamed⟩ := Prod.mk.inj (Option.some.inj hcall)
    exact .inl (.timeOut ref millis hnamed)
  | step =>
    rw [Op.move] at hask
    split at hask
    · rename_i event rest hinbox
      obtain rfl := Ask.router.inj hask
      cases event with
      | process => cases hcall
      | timeout reported id passed =>
        obtain ⟨rfl, rfl⟩ := Prod.mk.inj (Option.some.inj hcall)
        exact .inr ⟨rfl, passed, rest, hinbox⟩
    · obtain rfl := Ask.router.inj hask
      cases hcall
  | catalog call => cases hask
  | _ =>
    obtain rfl := Ask.router.inj hask
    cases hcall

/-- The start of an application is announced in one way. -/
theorem Op.eq_announceStart {w : World} {op : Op} {application : String}
    (hask : (op.move w).ask = .router (.announceStart application)) :
    op = .announceStart application := by
  cases op with
  | announceStart other =>
    obtain rfl := RouterCall.announceStart.inj (Ask.router.inj hask)
    rfl
  | step =>
    rw [Op.move] at hask
    split at hask <;> cases hask
  | _ => cases hask

namespace Session

variable {s : Session} {i j k n : Nat} {op : Op} {stage : Stage} {q : Request} {id : RequestId}
  {due millis : Nat}

/-- The event about the wait of a request is handled, not before it is due, and the request has
failed with the message of the stage. -/
structure Expires (s : Session) (n : Nat) (stage : Stage) (q : Request) (due millis : Nat) :
    Prop where
  /-- A posted event is handled. -/
  step : s.ops[n]? = some .step
  /-- It is the event about the wait. -/
  event : ∃ rest, (s.world n).inbox = some (.timeout stage q.id millis :: rest)
  /-- It is due. -/
  late : due ≤ (s.world n).now
  /-- The request has failed. -/
  failed : { q with state := .settled, outcome := some (.failed (stage.timeoutMessage millis)) } ∈
    (s.world (n + 1)).router.requests

theorem coupled (s : Session) (n : Nat) :
    Coupled (s.world n).router.requests (s.world n).router.lanes := by
  rw [← router_run]
  exact s.run.coupled n

theorem router_succ (h : s.ops[n]? = some op) :
    (s.world (n + 1)).router = ((op.move (s.world n)).turn (s.world n).router).state := by
  rw [world_succ h]
  exact World.router_perform (elementary_of h) _

/-- What a turn of the router does to its requests in flight. -/
theorem change (h : s.ops[n]? = some op) :
    Change (op.move (s.world n)).around (s.world n).router.requests
      (s.world (n + 1)).router.requests
      ((op.move (s.world n)).turn (s.world n).router).effects (s.run.taken? n)
      (s.run.admitted? n) := by
  have hchange := s.run.change (move_run h)
  rwa [Run.effects_eq (move_run h), router_run, router_run] at hchange

/-- A request that waits in a stage at two times waits there all the time in between. -/
theorem waits_between (hi : (s.world i).router.Waits stage id)
    (hk : (s.world k).router.Waits stage id) (hij : i ≤ j) (hjk : j ≤ k) :
    (s.world j).router.Waits stage id := by
  rw [← router_run, Router.waits_iff_inState] at hi hk ⊢
  exact Run.inState_between hi hk hij hjk

/-- What becomes of the world in an elementary operation. -/
theorem world_cases (h : s.ops[n]? = some op) :
    (s.world n).Turned op.left ((op.move (s.world n)).turn (s.world n).router) (s.world (n + 1)) ∨
      (∃ millis, op = .advance millis ∧ s.world (n + 1) = (s.world n).advance millis) ∨
        op = .closeInbox ∧ s.world (n + 1) = { s.world n with inbox := none } := by
  rw [world_succ h]
  rcases World.perform_elementary (elementary_of h) (s.world n) with hturned | ⟨millis, rfl⟩ | rfl
  · exact .inl hturned
  · exact .inr (.inl ⟨millis, rfl, rfl⟩)
  · exact .inr (.inr ⟨rfl, rfl⟩)

/-- No event is posted about a wait. -/
theorem posted_not_about (h : s.ops[n]? = some op) (stage : Stage) (id : RequestId) :
    ∀ e ∈ posted ((op.move (s.world n)).turn (s.world n).router).effects,
      e.isAbout stage id = false := by
  intro e he
  rw [(change h).posted_cases he]
  rfl

/-- No timer is armed for a wait unless it goes on after the operation. -/
theorem unarmed (h : s.ops[n]? = some op) (hw : ¬ (s.world (n + 1)).router.Waits stage id) :
    ∀ e ∈ armed ((op.move (s.world n)).turn (s.world n).router).effects,
      e.isAbout stage id = false := by
  intro e he
  obtain ⟨p, -, -, stage', millis, rfl, q, hq, hid, hwaits⟩ := (change h).armed_cases he
  rw [Bool.eq_false_iff]
  intro habout
  obtain ⟨_, hevent⟩ := ScheduledEvent.isAbout_iff.mp habout
  obtain ⟨rfl, rfl, -⟩ := ScheduledEvent.timeout.inj hevent
  exact hw ⟨q, hq, hid, hwaits⟩

/-- Where no event is about a wait there is none after an operation, unless the wait goes on
then. -/
theorem unreported_succ (h : s.ops[n]? = some op)
    (hw : ¬ (s.world (n + 1)).router.Waits stage id)
    (hsleeping : (s.world n).sleeping stage id = [])
    (hreported : (s.world n).reported stage id = []) :
    (s.world (n + 1)).sleeping stage id = [] ∧ (s.world (n + 1)).reported stage id = [] := by
  rcases world_cases h with hturned | ⟨millis, -, hworld⟩ | ⟨-, hworld⟩
  · have harmed := List.filter_eq_nil_iff.mpr fun e he => Bool.eq_false_iff.mp (unarmed h hw e he)
    have hleft := (s.world n).filter_left_sublist op stage id
    rw [hreported] at hleft
    rw [hturned.sleeping, hsleeping, harmed, hturned.reported (posted_not_about h stage id)]
    exact ⟨rfl, List.sublist_nil.mp hleft⟩
  · rw [hworld, World.sleeping_advance, hsleeping]
    refine ⟨rfl, ?_⟩
    cases hinbox : (s.world n).inbox with
    | none => exact World.reported_advance_of_closed hinbox millis stage id
    | some events =>
      have hperm := World.reported_advance hinbox millis stage id
      rw [hreported, hsleeping] at hperm
      exact hperm.eq_nil
  · rw [hworld]
    exact ⟨hsleeping, rfl⟩

/-- No event is about a wait that has not begun. -/
theorem unreported (s : Session) (n : Nat)
    (h : ∀ k ≤ n, ¬ (s.world k).router.Waits stage id) :
    (s.world n).sleeping stage id = [] ∧ (s.world n).reported stage id = [] := by
  induction n with
  | zero =>
    have hstart : s.world 0 = World.fresh s.start.router := by
      rw [world, List.take_zero, World.performAll_nil]
      exact s.start_spec.2
    rw [hstart]
    exact ⟨rfl, rfl⟩
  | succ n ih =>
    have hbefore := ih fun k hk => h k (Nat.le_succ_of_le hk)
    cases hop : s.ops[n]? with
    | none => rwa [world_succ_of_none hop]
    | some op => exact unreported_succ hop (h (n + 1) (Nat.le_refl _)) hbefore.1 hbefore.2

/-- A request that waits stays as it is in an operation, unless something interferes or a posted
event about its wait is handled. -/
theorem mem_or_ends (h : s.ops[n]? = some op) (hq : q ∈ (s.world n).router.requests)
    (hw : q.state.stage? = some stage) :
    q ∈ (s.world (n + 1)).router.requests ∨ op.Interferes (s.world n) stage q ∨
      op = .step ∧ ∃ passed rest,
        (s.world n).inbox = some (.timeout stage q.id passed :: rest) := by
  rw [router_succ h]
  rcases (op.move (s.world n)).mem_or_endsWait (s.coupled n) hq hw with
    hmem | ⟨call, hask, p, hp, hid, -, hcall | ⟨hstart, application, rfl, hhandled⟩⟩
  · exact .inl hmem
  · exact .inr (Op.interferes_or_step hask hcall)
  · obtain rfl := (s.coupled n).eq_of_id hp hq hid
    obtain rfl := Op.eq_announceStart hask
    exact .inr (.inl (.announceStart application hstart hhandled))

/-- What interferes with the wait of a request ends it. -/
theorem not_waits_of_interferes (h : s.ops[n]? = some op)
    (hq : q ∈ (s.world n).router.requests) (hw : q.state.stage? = some stage)
    (hop : op.Interferes (s.world n) stage q) : ¬ (s.world (n + 1)).router.Waits stage q.id := by
  have hends : ∀ (around : Surroundings) (call : RouterCall),
      (s.world n).router.EndsWait stage q.id call →
        ¬ ((s.world n).router.perform around call).state.Waits stage q.id :=
    fun around _ => Router.not_waits_of_endsWait (s.coupled n) around
  have hstate := RequestState.stage?_eq_some.mp hw
  rw [router_succ h]
  cases hop with
  | resolve ref selected choice named =>
    exact hends _ _ ⟨q, hq, rfl, hstate, .inl (by rw [choice, ← named]; rfl)⟩
  | reject ref choice named =>
    exact hends _ _ ⟨q, hq, rfl, hstate, .inl (by rw [choice, ← named]; rfl)⟩
  | announceStart application start handled =>
    exact hends _ _ ⟨q, hq, rfl, hstate, .inr ⟨start, application, rfl, handled⟩⟩
  | reply application ref isError payload reply named =>
    exact hends _ _ ⟨q, hq, rfl, hstate, .inl (by rw [reply, ← named]; rfl)⟩
  | timeOut ref millis named =>
    exact hends _ _ ⟨q, hq, rfl, hstate, .inl (by rw [← named]; rfl)⟩

/-- A request that waits is not ready, so its timer is not armed again. -/
theorem armed_not_about (h : s.ops[n]? = some op) (hq : q ∈ (s.world n).router.requests)
    (hw : q.state.stage? = some stage) :
    ∀ e ∈ armed ((op.move (s.world n)).turn (s.world n).router).effects,
      e.isAbout stage q.id = false := by
  intro e he
  obtain ⟨p, hp, hready, stage', millis, rfl, -⟩ := (change h).armed_cases he
  rw [Bool.eq_false_iff]
  intro habout
  obtain ⟨_, hevent⟩ := ScheduledEvent.isAbout_iff.mp habout
  obtain ⟨-, hid, -⟩ := ScheduledEvent.timeout.inj hevent
  rw [(s.coupled n).eq_of_id hp hq hid, RequestState.lane_eq_main, hw] at hready
  cases hready

/-- Once the event about a wait is handled the request does not wait any more. -/
theorem not_waits_of_step {passed : Nat} {rest : List ScheduledEvent} (h : s.ops[n]? = some .step)
    (hinbox : (s.world n).inbox = some (.timeout stage id passed :: rest)) :
    ¬ (s.world (n + 1)).router.Waits stage id := by
  rw [router_succ h, Op.move, hinbox]
  exact Router.not_waits_perform _ (s.coupled n) rfl

/-- As long as a request waits, the event about its wait is not handled. -/
theorem filter_left_eq (h : s.ops[n]? = some op)
    (hw : (s.world (n + 1)).router.Waits stage id) :
    (((s.world n).inbox.map op.left).getD []).filter (fun e => e.isAbout stage id) =
      (s.world n).reported stage id := by
  rw [World.reported]
  cases hinbox : (s.world n).inbox with
  | none => rfl
  | some events =>
    cases op with
    | step =>
      cases events with
      | nil => rfl
      | cons event rest =>
        have hnot : event.isAbout stage id = false := by
          rw [Bool.eq_false_iff]
          intro habout
          obtain ⟨passed, rfl⟩ := ScheduledEvent.isAbout_iff.mp habout
          exact not_waits_of_step h hinbox hw
        exact (List.filter_cons_of_neg (Bool.eq_false_iff.mp hnot)).symm
    | _ => rfl

/-- While a request waits, the event about its wait stays what it is. -/
theorem awaits_succ (h : (s.world n).Awaits stage q due millis)
    (hw : q.state.stage? = some stage) (hwaits : (s.world (n + 1)).router.Waits stage q.id) :
    (s.world (n + 1)).Awaits stage q due millis := by
  cases hop : s.ops[n]? with
  | none => rwa [world_succ_of_none hop]
  | some op =>
    have hq : q ∈ (s.world (n + 1)).router.requests := by
      rw [router_succ hop] at hwaits ⊢
      rcases (op.move (s.world n)).mem_or_endsWait (s.coupled n) h.known hw with
        hmem | ⟨call, hask, hends⟩
      · exact hmem
      · rw [Move.turn, hask] at hwaits
        exact absurd hwaits (Router.not_waits_of_endsWait (s.coupled n) _ hends)
    rcases world_cases hop with hturned | ⟨passed, -, hworld⟩ | ⟨-, hworld⟩
    · exact h.turned hturned hq (armed_not_about hop h.known hw)
        (posted_not_about hop stage q.id) (filter_left_eq hop hwaits)
    · rw [hworld]
      exact h.advance passed
    · rw [hworld]
      exact h.close

/-- How long a request may wait in a stage that begins to do so in the next operation. -/
def allowed (s : Session) (j : Nat) (stage : Stage) : Nat :=
  (s.world j).router.settings.timeout stage

/-- When the time of such a request is over. -/
def deadline (s : Session) (j : Nat) (stage : Stage) : Nat := (s.world j).now + s.allowed j stage

/-- Every wait may go on for a while. -/
theorem one_le_allowed (s : Session) (j : Nat) (stage : Stage) : 1 ≤ s.allowed j stage := by
  rw [allowed, ← router_run]
  exact (s.run.valid_timeouts s.fits j stage).1

/-- A request begins to wait in a stage. -/
structure Enters (s : Session) (j : Nat) (stage : Stage) (q : Request) : Prop where
  /-- It has not waited there. -/
  before : ¬ (s.world j).router.Waits stage q.id
  /-- It is in flight after the operation. -/
  known : q ∈ (s.world (j + 1)).router.requests
  /-- It waits. -/
  waits : q.state.stage? = some stage

/-- The timer of a request that begins to wait is armed with the setting of the stage. -/
theorem Enters.armed (h : s.Enters j stage q) (hop : s.ops[j]? = some op) :
    Effect.armed ((op.move (s.world j)).turn (s.world j).router).effects =
      [.timeout stage q.id (s.allowed j stage)] := by
  have hbefore : ¬ (s.run.router j).Waits stage q.id := by
    rw [router_run]
    exact h.before
  have hknown : q ∈ (s.run.router (j + 1)).requests := by
    rw [router_run]
    exact h.known
  have harmed := Run.armed_of_enters (move_run hop) hbefore hknown h.waits
  rwa [Run.effects_eq (move_run hop), router_run] at harmed

/-- A request that begins to wait has a timer that runs as long as the setting of the stage says. -/
theorem Enters.awaits (h : s.Enters j stage q) :
    (s.world (j + 1)).Awaits stage q (s.deadline j stage) (s.allowed j stage) := by
  have hlater : (s.world (j + 1)).router.Waits stage q.id := ⟨q, h.known, rfl, h.waits⟩
  cases hop : s.ops[j]? with
  | none =>
    rw [world_succ_of_none hop] at hlater
    exact absurd hlater h.before
  | some op =>
    rcases world_cases hop with hturned | ⟨passed, -, hworld⟩ | ⟨-, hworld⟩
    · obtain ⟨hsleeping, hreported⟩ := s.unreported j fun k hk hwaits =>
        h.before (waits_between hwaits hlater hk (Nat.le_succ j))
      have hleft := (s.world j).filter_left_sublist op stage q.id
      rw [hreported] at hleft
      have habout : (ScheduledEvent.timeout stage q.id (s.allowed j stage)).isAbout stage q.id =
          true :=
        ScheduledEvent.isAbout_iff.mpr ⟨_, rfl⟩
      refine ⟨h.known, fun _ => ⟨?_, ?_⟩, fun hdue => ?_⟩
      · rw [hturned.sleeping, hsleeping, h.armed hop, List.filter_cons_of_pos habout]
        rfl
      · rw [hturned.reported (posted_not_about hop stage q.id)]
        exact List.sublist_nil.mp hleft
      · -- A timer that has just been armed is not due.
        have hpositive := s.one_le_allowed j stage
        rw [hturned.now, deadline] at hdue
        omega
    · rw [hworld] at hlater
      exact absurd hlater h.before
    · rw [hworld] at hlater
      exact absurd hlater h.before

/-- While a request waits, there is the event about its wait, whatever else happens. -/
theorem Enters.awaits_of_waits (h : s.Enters j stage q) (hi : j < i)
    (hw : (s.world i).router.Waits stage q.id) :
    (s.world i).Awaits stage q (s.deadline j stage) (s.allowed j stage) := by
  induction i, hi using Nat.le_induction with
  | base => exact h.awaits
  | succ i hi ih =>
    have hlast := waits_between ⟨q, h.known, rfl, h.waits⟩ hw hi (Nat.le_succ i)
    exact awaits_succ (ih hlast) h.waits hw

/-- Once the event about a wait is handled the request has failed, and it is time. -/
theorem expires_of_step (h : (s.world n).Awaits stage q due millis)
    (hw : q.state.stage? = some stage) (hop : s.ops[n]? = some .step) {passed : Nat}
    {rest : List ScheduledEvent}
    (hinbox : (s.world n).inbox = some (.timeout stage q.id passed :: rest)) :
    s.Expires n stage q due millis := by
  obtain ⟨hlate, rfl⟩ := h.of_head hinbox
  refine ⟨hop, ⟨rest, hinbox⟩, hlate, ?_⟩
  rw [router_succ hop, Op.move, hinbox]
  exact Router.mem_failed (s.world n).around (s.coupled n) h.known hw passed

/-! ## The end of a wait -/

/-- Time does not go back. -/
theorem now_le (s : Session) (h : i ≤ j) : (s.world i).now ≤ (s.world j).now := by
  induction j, h using Nat.le_induction with
  | base => exact Nat.le_refl _
  | succ j _ ih =>
    cases hop : s.ops[j]? with
    | none => rwa [world_succ_of_none hop]
    | some op =>
      rcases world_cases hop with hturned | ⟨passed, -, hworld⟩ | ⟨-, hworld⟩
      · rwa [hturned.now]
      · rw [hworld]
        exact Nat.le_trans ih (Nat.le_add_right _ passed)
      · rwa [hworld]

/-- Nothing interferes with the wait of a request between two times. -/
def Undisturbed (s : Session) (j k : Nat) (stage : Stage) (q : Request) : Prop :=
  ∀ l op, j < l → l < k → s.ops[l]? = some op → ¬ op.Interferes (s.world l) stage q

/-- A wait with which nothing interferes goes on or ends because its time is over. -/
theorem Enters.mem_or_expires (h : s.Enters j stage q) (hjk : j < k)
    (alone : s.Undisturbed j k stage q) :
    q ∈ (s.world k).router.requests ∨
      ∃ l, j < l ∧ l < k ∧ s.Expires l stage q (s.deadline j stage) (s.allowed j stage) := by
  induction k, hjk using Nat.le_induction with
  | base => exact .inl h.known
  | succ k hjk ih =>
    rcases ih fun l op hjl hlk => alone l op hjl (Nat.lt_succ_of_lt hlk) with
      hq | ⟨l, hjl, hlk, hexpires⟩
    · cases hop : s.ops[k]? with
      | none =>
        rw [world_succ_of_none hop]
        exact .inl hq
      | some op =>
        rcases mem_or_ends hop hq h.waits with hmem | hdisturbed | ⟨rfl, passed, rest, hinbox⟩
        · exact .inl hmem
        · exact absurd hdisturbed (alone k op hjk (Nat.lt_succ_self k) hop)
        · have hawaits := h.awaits_of_waits hjk ⟨q, hq, rfl, h.waits⟩
          exact .inr ⟨k, hjk, Nat.lt_succ_self k, expires_of_step hawaits h.waits hop hinbox⟩
    · exact .inr ⟨l, hjl, Nat.lt_succ_of_lt hlk, hexpires⟩

/-- How many posted events have been handled between two times, as far as there were any. -/
def steps (s : Session) (i k : Nat) : Nat := ((s.ops.take k).drop i).countP Op.handles

/-- One more operation is one step more, if it is a step. -/
theorem steps_succ (h : s.ops[k]? = some op) (hik : i ≤ k) :
    s.steps i (k + 1) = s.steps i k + if op.handles then 1 else 0 := by
  have hlt : k < s.ops.length := (List.getElem?_eq_some_iff.mp h).1
  have hlong : i ≤ (s.ops.take k).length := by
    rw [List.length_take]
    omega
  rw [steps, steps, List.take_add_one, h, Option.toList_some, List.drop_append_of_le_length hlong,
    List.countP_append, List.countP_singleton]

/-- While events are taken the event about a wait moves up by one place in each step, as long as the
request waits. -/
theorem queued_succ (h : s.ops[k]? = some op)
    (hqueued : (s.world k).Queued (.timeout stage id millis) n)
    (hopen : (s.world (k + 1)).inbox.isSome = true)
    (hw : (s.world (k + 1)).router.Waits stage id) :
    ∃ m, (s.world (k + 1)).Queued (.timeout stage id millis) m ∧
      m + (if op.handles then 1 else 0) = n := by
  rcases world_cases h with hturned | ⟨passed, rfl, hworld⟩ | ⟨-, hworld⟩
  · cases hhandles : op.handles with
    | false =>
      exact ⟨n, hqueued.turned hturned fun events => by
        rw [op.left_eq, hhandles, if_neg Bool.false_ne_true], rfl⟩
    | true =>
      cases n with
      | zero =>
        obtain ⟨front, back, hinbox, hlength⟩ := hqueued
        rw [List.length_eq_zero_iff.mp hlength] at hinbox
        obtain rfl := Op.eq_step hhandles
        exact absurd hw (not_waits_of_step h hinbox)
      | succ n =>
        exact ⟨n, hqueued.turned_tail hturned fun events => by
          rw [op.left_eq, hhandles, if_pos rfl], rfl⟩
  · rw [hworld]
    exact ⟨n, hqueued.advance passed, rfl⟩
  · rw [hworld] at hopen
    cases hopen

/-- Where events are taken they have always been taken. -/
theorem open_of_open_succ (h : s.ops[k]? = some op)
    (hopen : (s.world (k + 1)).inbox.isSome = true) : (s.world k).inbox.isSome = true := by
  rcases world_cases h with hturned | ⟨passed, -, hworld⟩ | ⟨-, hworld⟩
  · rwa [hturned.inbox, Option.isSome_map] at hopen
  · rw [hworld] at hopen
    exact (Option.isSome_map ..).symm.trans hopen
  · rw [hworld] at hopen
    cases hopen

/-- As many steps as have been made since then, as many places the event about a wait has moved up,
as long as the request waits and events are taken. -/
theorem queued_of_waits (hik : i ≤ k) (hqueued : (s.world i).Queued (.timeout stage id millis) n)
    (hi : (s.world i).router.Waits stage id) (hk : (s.world k).router.Waits stage id)
    (hopen : (s.world k).inbox.isSome = true) :
    ∃ m, (s.world k).Queued (.timeout stage id millis) m ∧ m + s.steps i k = n := by
  induction k, hik using Nat.le_induction with
  | base =>
    refine ⟨n, hqueued, ?_⟩
    rw [steps, List.drop_take, Nat.sub_self, List.take_zero, List.countP_nil, Nat.add_zero]
  | succ k hik ih =>
    cases hop : s.ops[k]? with
    | none =>
      have hsteps : s.steps i (k + 1) = s.steps i k := by
        rw [steps, steps, List.take_add_one, hop, Option.toList_none, List.append_nil]
      rw [world_succ_of_none hop] at hk hopen ⊢
      rw [hsteps]
      exact ih hk hopen
    | some op =>
      have hbefore := waits_between hi hk hik (Nat.le_succ k)
      obtain ⟨m, hm, hmoved⟩ := ih hbefore (open_of_open_succ hop hopen)
      obtain ⟨m', hm', hnext⟩ := queued_succ hop hm hopen hk
      refine ⟨m', hm', ?_⟩
      rw [steps_succ hop hik]
      omega

/-- Once the timer of a wait has run out as many steps as there are posted events are enough to end
the wait, if events are still taken. -/
theorem Enters.not_waits_of_steps (h : s.Enters j stage q) {events : List ScheduledEvent}
    (hji : j < i) (hik : i ≤ k)
    (hdue : s.deadline j stage ≤ (s.world i).now)
    (hinbox : (s.world i).inbox = some events) (hsteps : events.length ≤ s.steps i k)
    (hopen : (s.world k).inbox.isSome = true) : ¬ (s.world k).router.Waits stage q.id := by
  intro hk
  have hi := waits_between ⟨q, h.known, rfl, h.waits⟩ hk hji hik
  have hreported := ((h.awaits_of_waits hji hi).after hdue).2 (by rw [hinbox]; rfl)
  have hmem := List.mem_of_mem_filter (hreported ▸ List.mem_singleton_self _)
  rw [hinbox, Option.getD_some] at hmem
  obtain ⟨n, hlt, hqueued⟩ := World.exists_queued hinbox hmem
  obtain ⟨m, -, hmoved⟩ := queued_of_waits hik hqueued hi hk hopen
  omega

/-- Whatever is asked of a world comes down to elementary operations. If in the course of elementary
operations a request begins to wait in a stage, it has a timer that runs as long as the setting of
the stage says at that moment, and that is at least a millisecond. Whatever has happened since then,
also to that setting and to other timers, there is exactly one timer or posted event about the wait
as long as it goes on: a timer until its time is over and from then on a posted event, if events are
taken. The next operation leaves the request as it is, unless it interferes, which always ends the
wait: a choice, a rejection, the start of the handler, a reply, or a report of the end of the wait
that no timer has made; or unless the event about the wait is handled. This does not happen before
its time, and the request then fails with the message of the stage for the time that the setting
said at the beginning; no other stage and no other time has this message. So if nothing interferes
the request waits until the time is over; and as soon as all events are handled that are posted at
any moment after that, this very failure has come about. -/
theorem wait_bounded :
    (∀ (op : Op) (w : World), ∃ parts : List Op, (∀ part ∈ parts, part.isElementary = true) ∧
        World.performAll parts w = (World.perform op w).state) ∧
      (∀ (stage stage' : Stage) (m n : Nat),
        stage.timeoutMessage m = stage'.timeoutMessage n → stage = stage' ∧ m = n) ∧
      ∀ (s : Session) (j : Nat) (stage : Stage) (q : Request), s.Enters j stage q →
        1 ≤ s.allowed j stage ∧
          (∀ i, j < i → (s.world i).router.Waits stage q.id →
            (s.world i).Awaits stage q (s.deadline j stage) (s.allowed j stage) ∧
              ∀ op, s.ops[i]? = some op →
                (q ∈ (s.world (i + 1)).router.requests ∨ op.Interferes (s.world i) stage q ∨
                  s.Expires i stage q (s.deadline j stage) (s.allowed j stage)) ∧
                (op.Interferes (s.world i) stage q →
                  ¬ (s.world (i + 1)).router.Waits stage q.id)) ∧
          ∀ k, j < k → s.Undisturbed j k stage q →
            ((s.world k).now < s.deadline j stage → q ∈ (s.world k).router.requests) ∧
              ∀ i events, j < i → i ≤ k → s.deadline j stage ≤ (s.world i).now →
                (s.world i).inbox = some events → events.length ≤ s.steps i k →
                  (s.world k).inbox.isSome = true →
                    ∃ l, j < l ∧ l < k ∧
                      s.Expires l stage q (s.deadline j stage) (s.allowed j stage) := by
  refine ⟨World.exists_elementary, fun _ _ _ _ => Stage.timeoutMessage_inj,
    fun s j stage q henters => ⟨s.one_le_allowed j stage,
    fun i hji hw => ?_, fun k hjk alone => ?_⟩⟩
  · have hawaits := henters.awaits_of_waits hji hw
    refine ⟨hawaits, fun op hop =>
      ⟨?_, not_waits_of_interferes hop hawaits.known henters.waits⟩⟩
    rcases mem_or_ends hop hawaits.known henters.waits with
      hmem | hdisturbed | ⟨rfl, passed, rest, hinbox⟩
    · exact .inl hmem
    · exact .inr (.inl hdisturbed)
    · exact .inr (.inr (expires_of_step hawaits henters.waits hop hinbox))
  · have hends := henters.mem_or_expires hjk alone
    refine ⟨fun hearly => ?_, fun i events hji hik hdue hinbox hsteps hopen => ?_⟩
    · rcases hends with hq | ⟨l, -, hlk, hexpires⟩
      · exact hq
      · have hlate := hexpires.late
        have hle := s.now_le (Nat.le_of_lt hlk)
        omega
    · refine hends.resolve_left fun hq => ?_
      exact henters.not_waits_of_steps hji hik hdue hinbox hsteps hopen
        ⟨q, hq, rfl, henters.waits⟩

/-- A printer that does not run is started for a request, which it then gets after a second. After
this the timeout of replies is set to a millisecond, and the timer of the start runs out before the
one of the reply. -/
def printoutOps : List Op :=
  [.host (.run "editor" (some ⟨"editor", "e"⟩)), .catalog (.addApplication "printer"),
    .catalog (.add (.plain "print" "printer")), .submit ⟨"editor", "print", none, .empty⟩, .step,
    .host (.run "printer" (some ⟨"printer", "p"⟩)), .announceStart "printer", .advance 1000, .step,
    .setTimeout .reply (.ofMillis 1), .advance 4999, .step, .step, .step, .advance 1, .step]

/-- A session in which a request waits for a reply until its time is over. -/
def printout : Session where
  settings := .standard
  start := .fresh (.fresh .standard)
  created := rfl
  fits := fun stage => by cases stage <;> decide
  ops := printoutOps
  elementary := by decide
  names := fun m n hm hn _ => by
    have hone : (World.performAll printoutOps (.fresh (.fresh .standard))).admitted = 1 := by
      decide +kernel
    rw [hone] at hm hn
    omega

/-- The request of the printout, once the printer has it. -/
def sent : Request :=
  ((Request.admitted (.ofNat 0) .epoch "editor" "print" [.plain "print" "printer"] .empty).choose
    "printer").moveTo .awaitingReply

/-- The request waits for five seconds, as it was set when it was sent, and then it fails. -/
theorem wait_bounded_printout :
    printout.Enters 8 .reply sent ∧ printout.Undisturbed 8 16 .reply sent ∧
      sent ∈ (printout.world 14).router.requests ∧
        ∃ l, 8 < l ∧ l < 16 ∧ printout.Expires l .reply sent 6000 5000 := by
  have henters : printout.Enters 8 .reply sent := by
    have hnone : ∀ p ∈ (printout.world 8).router.requests, p.state.stage? ≠ some .reply := by
      decide +kernel
    refine ⟨?_, List.mem_cons_self, rfl⟩
    rintro ⟨p, hp, -, hw⟩
    exact hnone p hp hw
  have alone : printout.Undisturbed 8 16 .reply sent := by
    intro l op hl hl' hop hdisturbs
    obtain ⟨m, rfl⟩ := Nat.exists_eq_add_of_lt hl
    have hlater : (printoutOps.drop 9)[m]? = some op := by
      rw [List.getElem?_drop, ← hop, Nat.add_right_comm]
      rfl
    have hmem := List.mem_of_getElem? hlater
    cases hdisturbs <;>
      simp only [printoutOps, List.drop_succ_cons, List.drop_zero, List.mem_cons, reduceCtorEq,
        List.not_mem_nil, or_self] at hmem
  obtain ⟨-, -, hbounded⟩ := wait_bounded.2.2 printout 8 .reply sent henters
  have hearly := (hbounded 14 (by decide) fun l op hl hl' => alone l op hl (by omega)).1
    (by decide +kernel)
  have hinbox : (printout.world 15).inbox = some [.timeout .reply (.ofNat 0) 5000] := by
    decide +kernel
  have hlate := (hbounded 16 (by decide) alone).2 15 _ (by decide) (by decide) (by decide +kernel)
    hinbox (by decide) (by decide +kernel)
  exact ⟨henters, alone, hearly, hlate⟩

end Session

end IntentRouter
