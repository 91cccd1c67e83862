import IntentRouter.Proofs.Move

/-!
# Where a record comes from

A record in flight after a move was in flight before, or the move has made it. A move makes
a record in four ways: by an admission, by a report on a request that waits for it, by the start
of its handler, and by a step that takes it to a wait.
-/

namespace IntentRouter

namespace Router

/-- A submission leaves the requests in flight as they are, but for the one it admits. -/
theorem requests_submit (r : Router) (around : Surroundings) (id : RequestId) (now : Timestamp)
    (s : Submission) :
    (r.submit around id now s).state.requests =
      r.requests ++ (r.submit around id now s).value.toOption.toList := by
  rcases r.submit_cases around id now s with
    ⟨candidates, lanes, -, hvalue, hstate⟩ | ⟨reason, hvalue, hstate⟩
  · rw [hvalue, hstate]
    rfl
  · rw [hvalue, hstate]
    exact (List.append_nil _).symm

end Router

namespace Move

/-- How a record in flight after a move has come about. -/
inductive Makes (m : Move) (r : Router) (q : Request) : Prop where
  /-- It was in flight before. -/
  | kept (known : q ∈ r.requests)
  /-- It has been admitted. -/
  | admitted (admits : m.admitted? r = some q)
  /-- It has been made by a report on a request that waited for it. -/
  | resumed (p : Request) (stage : Stage) (call : RouterCall) (asks : m.ask = .router call)
    (reports : call.wait? = some (stage, p.id)) (known : p ∈ r.requests)
    (waits : p.state.stage? = some stage) (result : q = p.resumedBy call)
  /-- The handler for which it waited has started. -/
  | released (p : Request) (application : String)
    (asks : m.ask = .router (.announceStart application)) (known : p ∈ r.requests)
    (waits : p.state = .awaitingStart) (handled : p.handler = some application)
    (result : q = p.moveTo .started)
  /-- A step has taken it to a wait. -/
  | advanced (p : Request) (pass : Router.Passage) (stage : Stage)
    (steps : r.Steps m.around p pass) (takes : m.taken? r = some p.id)
    (causes : pass.effects ⊆ (m.turn r).effects) (waits : pass.request.state.stage? = some stage)
    (result : q = pass.request)

variable {r : Router} {q : Request}

/-- A report keeps a record or makes it. -/
theorem makes_report {around : Surroundings} {stage : Stage} {id : RequestId}
    (h : Coupled r.requests r.lanes) (call : RouterCall) (hcall : call.wait? = some (stage, id))
    (hq : q ∈ (r.perform around call).state.requests) : Makes ⟨around, .router call⟩ r q := by
  by_cases hw : r.Waits stage id
  · obtain ⟨p, hp, rfl, hstage⟩ := hw
    obtain ⟨es, -, hperform⟩ := Router.perform_of_waits around h hp hstage hcall
    rw [hperform] at hq
    rcases Request.mem_replaceIn hq with he | ⟨hold, -⟩
    · exact .resumed p stage call rfl hcall hp hstage he
    · exact .kept hold
  · obtain ⟨note, -, hperform⟩ := Router.perform_of_not_waits around h hw hcall
    rw [hperform] at hq
    exact .kept hq

/-- A step keeps a record or takes it to a wait. -/
theorem makes_process {m : Move} (h : Coupled r.requests r.lanes)
    (htaken : m.taken? r = r.lanes.main.head?)
    (heffects : (m.turn r).effects = (r.process m.around).effects)
    (hq : q ∈ (r.process m.around).state.requests) : m.Makes r q := by
  rcases Router.idle_or_steps h m.around with hmain | ⟨p, pass, hs⟩
  · rw [Router.process_of_idle hmain] at hq
    exact .kept hq
  · rcases hs.waits_or_settled h with ⟨stage, hw⟩ | hsettled
    · have heq := Router.process_of_waits hs h hw
      rw [heq] at hq
      rcases Request.mem_replaceIn hq with he | ⟨hold, -⟩
      · refine .advanced p pass stage hs (htaken.trans hs.next) ?_ hw he
        rw [heffects, heq]
        exact List.subset_append_left _ _
      · exact .kept hold
    · rw [Router.process_of_settled hs h hsettled] at hq
      exact .kept (List.mem_filter.mp hq).1

/-- A record in flight after a move was there before, or has been made in one of the four ways. -/
theorem makes_of_mem (m : Move) (h : Coupled r.requests r.lanes)
    (hq : q ∈ (m.turn r).state.requests) : m.Makes r q := by
  obtain ⟨around, ask⟩ := m
  cases ask with
  | catalog call => exact .kept hq
  | router call =>
    cases call with
    | submit id now s =>
      have hmem : q ∈ (r.submit around id now s).state.requests := hq
      rw [Router.requests_submit] at hmem
      rcases List.mem_append.mp hmem with hold | hnew
      · exact .kept hold
      · exact .admitted (Option.mem_toList.mp hnew)
    | resolve id selected => exact makes_report h (.resolve id selected) rfl hq
    | reject id => exact makes_report h (.reject id) rfl hq
    | reply application id isError payload =>
      exact makes_report h (.reply application id isError payload) rfl hq
    | announceStart application =>
      have hmem : q ∈ (r.announceStart around application).state.requests := hq
      rw [Router.announceStart_eq h] at hmem
      obtain ⟨p, hp, rfl⟩ := List.mem_map.mp hmem
      unfold Request.releasedBy
      by_cases hwaits : p.state = .awaitingStart ∧ p.handler = some application
      · rw [if_pos hwaits]
        exact .released p application rfl hp hwaits.1 hwaits.2 rfl
      · rw [if_neg hwaits]
        exact .kept hp
    | process => exact makes_process h rfl rfl hq
    | handle event =>
      cases event with
      | process => exact makes_process h rfl rfl hq
      | timeout stage id millis =>
        exact makes_report h (.handle (.timeout stage id millis)) rfl hq
    | setTimeout stage duration =>
      simp only [turn, Router.perform, Router.setTimeout] at hq
      cases hset : r.settings.setTimeout stage duration with
      | error reason =>
        rw [hset] at hq
        exact .kept hq
      | ok settings =>
        rw [hset] at hq
        exact .kept hq
    | _ => exact .kept hq

end Move

end IntentRouter
