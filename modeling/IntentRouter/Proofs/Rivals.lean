import IntentRouter.Proofs.History

/-!
# The first event wins

Several events compete for the end of a request's wait: in each stage a timer, and
besides it a choice or a rejection, the start of the handler, or a reply. A request is in
the state of a stage once in its life, and what ends the wait takes it out of that state.
So only the first of the competing events takes effect. Whatever is reported later finds
no request that waits for it, is refused and changes nothing.
-/

namespace IntentRouter

namespace Router

variable {r : Router} {around : Surroundings} {id : RequestId} {stage : Stage} {call : RouterCall}

/-- The request with the given name is in flight in the given state. -/
def InState (r : Router) (id : RequestId) (s : RequestState) : Prop :=
  ∃ q ∈ r.requests, q.id = id ∧ q.state = s

/-- A report that is refused: the router stays as it is, and there is no effect but a log entry. -/
def Declines (r : Router) (around : Surroundings) (id : RequestId) (call : RouterCall) : Prop :=
  (r.perform around call).state = r ∧ (r.perform around call).value = call.declined id ∧
    ∃ note, (r.perform around call).effects = [.about id note]

/-- How a router meets reports on a request, whatever the surroundings. -/
structure Arbitrates (r : Router) (id : RequestId) : Prop where
  /-- A choice is accepted while the request waits for it, and only then. -/
  resolve : ∀ around selected,
    (r.perform around (.resolve id selected)).value = .done ↔ r.InState id .awaitingChoice
  /-- So is a rejection. -/
  reject : ∀ around,
    (r.perform around (.reject id)).value = .done ↔ r.InState id .awaitingChoice
  /-- A reply is accepted while the request waits for it, and only then. -/
  reply : ∀ around application isError payload,
    (r.perform around (.reply application id isError payload)).value = .done ↔
      r.InState id .awaitingReply
  /-- A timer has an effect while the request waits in its stage, and only then. -/
  timeOut : ∀ around stage millis,
    (r.perform around (.handle (.timeout stage id millis))).state ≠ r ↔
      r.InState id (.ofStage stage)
  /-- Any other report on the request is refused. -/
  declines : ∀ around call stage, call.wait? = some (stage, id) →
    ¬ r.InState id (.ofStage stage) → r.Declines around id call

/-- A request waits in a stage while it is in the state of the stage. -/
theorem waits_iff_inState : r.Waits stage id ↔ r.InState id (.ofStage stage) := by
  simp only [Waits, InState, RequestState.stage?_eq_some]

/-- A report on a request that does not wait for it is refused. -/
theorem declines_of_not_waits (h : Coupled r.requests r.lanes) (around : Surroundings)
    (hcall : call.wait? = some (stage, id)) (hw : ¬ r.Waits stage id) :
    r.Declines around id call := by
  obtain ⟨note, -, hperform⟩ := perform_of_not_waits around h hw hcall
  rw [Declines, hperform]
  exact ⟨rfl, rfl, note, rfl⟩

/-- A report that gets an answer is accepted exactly when its request waits for it. -/
theorem value_eq_accepted_iff (h : Coupled r.requests r.lanes) (around : Surroundings)
    (call : RouterCall) (hcall : call.wait? = some (stage, id))
    (hanswer : call.declined id ≠ call.accepted) :
    (r.perform around call).value = call.accepted ↔ r.InState id (.ofStage stage) := by
  rw [← waits_iff_inState]
  constructor
  · intro hvalue
    by_contra hw
    obtain ⟨-, hdeclined, -⟩ := declines_of_not_waits h around hcall hw
    exact hanswer (hdeclined.symm.trans hvalue)
  · rintro ⟨p, hp, rfl, hstage⟩
    obtain ⟨es, -, hperform⟩ := perform_of_waits around h hp hstage hcall
    rw [hperform]

/-- A report changes the router exactly when its request waits for it. -/
theorem state_ne_iff (h : Coupled r.requests r.lanes) (around : Surroundings)
    (hcall : call.wait? = some (stage, id)) :
    (r.perform around call).state ≠ r ↔ r.InState id (.ofStage stage) := by
  rw [← waits_iff_inState]
  constructor
  · intro hchanged
    by_contra hw
    exact hchanged (declines_of_not_waits h around hcall hw).1
  · intro hw hsame
    have hafter := not_waits_perform around h hcall
    rw [hsame] at hafter
    exact hafter hw

/-- A router whose requests are coupled with the lanes accepts exactly what is waited for. -/
theorem arbitrates (h : Coupled r.requests r.lanes) (id : RequestId) : r.Arbitrates id where
  resolve around selected :=
    value_eq_accepted_iff h around (.resolve id selected) rfl fun he => by cases he
  reject around := value_eq_accepted_iff h around (.reject id) rfl fun he => by cases he
  reply around application isError payload :=
    value_eq_accepted_iff h around (.reply application id isError payload) rfl
      fun he => by cases he
  timeOut around stage millis := state_ne_iff h around rfl
  declines around call stage hcall hw :=
    declines_of_not_waits h around hcall (mt waits_iff_inState.mp hw)

/-- A call ends the wait of a request in a stage: it is a report on that wait, or the start of
the handler. -/
def EndsWait (r : Router) (stage : Stage) (id : RequestId) (call : RouterCall) : Prop :=
  ∃ q ∈ r.requests, q.id = id ∧ q.state = .ofStage stage ∧
    (call.wait? = some (stage, id) ∨
      stage = .start ∧ ∃ application,
        call = .announceStart application ∧ q.handler = some application)

/-- What ends the wait of a request leaves it in another state. -/
theorem not_waits_of_endsWait (h : Coupled r.requests r.lanes) (around : Surroundings)
    (he : r.EndsWait stage id call) : ¬ (r.perform around call).state.Waits stage id := by
  obtain ⟨p, hp, rfl, hstate, hcall | ⟨rfl, application, rfl, hhandler⟩⟩ := he
  · exact not_waits_perform around h hcall
  · rintro ⟨q, hq, hid, hwait⟩
    have hrequests : q ∈ r.requests.map (Request.releasedBy application) := by
      have hmem : q ∈ (r.announceStart around application).state.requests := hq
      rwa [announceStart_eq h] at hmem
    obtain ⟨p', hp', rfl⟩ := List.mem_map.mp hrequests
    have hsame := h.eq_of_id hp' hp ((p'.becomes_releasedBy application).alike.id.symm.trans hid)
    rw [hsame, Request.releasedBy, if_pos ⟨hstate, hhandler⟩] at hwait
    cases hwait

/-- The start of an application leaves a request alone that does not wait for a start. -/
theorem mem_announceStart (h : Coupled r.requests r.lanes) (around : Surroundings)
    (application : String) {q : Request} (hq : q ∈ r.requests) (hs : q.state ≠ .awaitingStart) :
    q ∈ (r.perform around (.announceStart application)).state.requests := by
  have hmem := List.mem_map_of_mem (f := Request.releasedBy application) hq
  rw [Request.releasedBy, if_neg fun hboth => hs hboth.1] at hmem
  change q ∈ (r.announceStart around application).state.requests
  rwa [announceStart_eq h]

end Router

namespace Run

variable {run : Run} {stage : Stage} {id : RequestId} {i j n : Nat}

/-- A request is in the phase of a state exactly when it is in flight in that state. -/
theorem phase_eq_inFlight_iff (run : Run) (id : RequestId) (n : Nat) (s : RequestState) :
    run.phase id n = .inFlight s ↔ (run.router n).InState id s := by
  constructor
  · intro hphase
    by_contra hnone
    have hend : run.phase id n ≠ .ended := by
      rw [hphase]
      exact fun he => by cases he
    refine hend (phase_eq_ended fun q hq hid => hnone ⟨q, hq, hid, ?_⟩)
    rw [← hid, phase_eq_inFlight hq] at hphase
    exact Phase.inFlight.inj hphase
  · rintro ⟨q, hq, rfl, rfl⟩
    exact phase_eq_inFlight hq

/-- A state that a request has left is not entered again. -/
theorem not_inState_of_lt {s : RequestState} (hbefore : (run.router i).InState id s)
    (hafter : ¬ (run.router (i + 1)).InState id s) (hij : i < j) :
    ¬ (run.router j).InState id s := by
  intro hagain
  obtain ⟨p, hp, rfl, hstate⟩ := hbefore
  obtain ⟨k, hk, q₀, hadmitted, hbecomes⟩ := run.traced i p hp
  have hfirst := (phase_eq_inFlight_iff run p.id i s).mpr ⟨p, hp, rfl, hstate⟩
  have hlast := (phase_eq_inFlight_iff run p.id j s).mpr hagain
  have hleave := path_of_le hadmitted hk (Nat.le_succ i)
  have hreturn := path_of_le hadmitted (Nat.lt_succ_of_lt hk) hij
  rw [← hbecomes.alike.id] at hleave hreturn
  rw [hlast, ← hfirst] at hreturn
  have hsame := Phase.Path.antisymm hreturn hleave
  rw [hfirst] at hsame
  exact hafter ((phase_eq_inFlight_iff run p.id (i + 1) s).mp hsame)

/-- A move ends the wait of a request in a stage. -/
def EndsWait (run : Run) (stage : Stage) (id : RequestId) (i : Nat) : Prop :=
  ∃ m call, run.moves[i]? = some m ∧ m.ask = .router call ∧
    (run.router i).EndsWait stage id call

/-- Once the wait of a request in a stage has ended, the request does not wait there again. -/
theorem not_waits_of_endsWait_lt (h : run.EndsWait stage id i) (hij : i < j) :
    ¬ (run.router j).Waits stage id := by
  obtain ⟨m, call, hm, hask, hends⟩ := h
  have hleft := Router.not_waits_of_endsWait (run.coupled i) m.around hends
  obtain ⟨q, hq, hid, hstate, -⟩ := hends
  have hnext : run.router (i + 1) = ((run.router i).perform m.around call).state := by
    rw [router_succ hm, Move.turn, hask]
  rw [← hnext, Router.waits_iff_inState] at hleft
  rw [Router.waits_iff_inState]
  exact not_inState_of_lt ⟨q, hq, hid, hstate⟩ hleft hij

/-- The wait of a request in a stage ends once. -/
theorem endsWait_unique (hi : run.EndsWait stage id i) (hj : run.EndsWait stage id j) : i = j := by
  have hnot : ∀ {i j : Nat}, run.EndsWait stage id i → run.EndsWait stage id j → ¬ i < j := by
    intro i j hi hj hij
    obtain ⟨-, -, -, -, q, hq, hid, hstate, -⟩ := hj
    exact not_waits_of_endsWait_lt hi hij (Router.waits_iff_inState.mpr ⟨q, hq, hid, hstate⟩)
  have hle := hnot hi hj
  have hge := hnot hj hi
  omega

/-- After any moves a report on a request takes effect exactly while the request waits for it:
a choice, a rejection and a reply are accepted then, and a timer changes the router. Any other
report is refused, leaves the whole router as it is and has no effect but a log entry; nothing at
all comes of the start of an application for which nobody waits. So of the events that compete
for the end of a wait one at most takes effect in a run: once it has, every report on the same
wait is refused, and the start of an application leaves the request alone. -/
theorem first_event_wins (run : Run) (id : RequestId) :
    (∀ n, (run.router n).Arbitrates id) ∧
      (∀ n around application,
        (∀ q ∈ (run.router n).requests,
          ¬ (q.state = .awaitingStart ∧ q.handler = some application)) →
        (run.router n).perform around (.announceStart application) =
          ⟨.count 0, run.router n, []⟩) ∧
      ∀ stage i, run.EndsWait stage id i →
        (∀ j, run.EndsWait stage id j → j = i) ∧
        ∀ j, i < j →
          (∀ around call, call.wait? = some (stage, id) →
            (run.router j).Declines around id call) ∧
          (stage = .start → ∀ around application, ∀ q ∈ (run.router j).requests, q.id = id →
            q ∈ ((run.router j).perform around (.announceStart application)).state.requests) := by
  refine ⟨fun n => Router.arbitrates (run.coupled n) id, ?_, ?_⟩
  · intro n around application hnobody
    have hempty : (run.router n).awaiting application = [] := by
      rw [List.eq_nil_iff_forall_not_mem]
      intro id hid
      obtain ⟨q, hq, rfl⟩ := Router.exists_of_mem_awaiting (run.coupled n) hid
      exact hnobody q hq ((Router.mem_awaiting (run.coupled n) hq application).mp hid)
    simp only [Router.perform, Router.announceStart_eq_self (run.coupled n) hempty]
    rfl
  · intro stage i hends
    refine ⟨fun j hj => endsWait_unique hj hends, fun j hij => ⟨?_, ?_⟩⟩
    · intro around call hcall
      have hw := not_waits_of_endsWait_lt hends hij
      exact Router.declines_of_not_waits (run.coupled j) around hcall hw
    · rintro rfl around application q hq hid
      refine Router.mem_announceStart (run.coupled j) around application hq fun hs => ?_
      exact not_waits_of_endsWait_lt hends hij ⟨q, hq, hid, by rw [hs]; rfl⟩

/-- The reply of the printer ends the wait of an errand's request, and a second one is refused. -/
theorem first_event_wins_errand :
    errand.EndsWait .reply printing.id 4 ∧
      ∀ around payload, (errand.router 5).Declines around printing.id
        (.reply "printer" printing.id false payload) := by
  have hends : errand.EndsWait .reply printing.id 4 :=
    ⟨_, _, rfl, rfl, (printing.choose "printer").moveTo .awaitingReply, List.mem_cons_self, rfl,
      rfl, .inl rfl⟩
  refine ⟨hends, fun around payload => ?_⟩
  have hlater := ((errand.first_event_wins printing.id).2.2 .reply 4 hends).2 5 (by omega)
  exact hlater.1 around (.reply "printer" printing.id false payload) rfl

end Run

end IntentRouter
