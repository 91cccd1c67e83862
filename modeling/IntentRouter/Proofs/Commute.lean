import IntentRouter.Proofs.Pump
import IntentRouter.Proofs.Spared

/-!
# Reports on different requests commute

Two reports on different requests may be made in either order. Each takes its own request back to
the main lane, or none, so that the main lane may end in the two names in one order or in the
other. When everyone in it is then taken through a step, each request gets as far as it does in the
other order. What is left to differ is the order in which requests stand in their lanes, in which
they are remembered and in which outputs go out and timers are armed.
-/

namespace IntentRouter

open Effect

/-- Requests stand in the same lanes whenever they are coupled with lanes. -/
theorem Coupled.perm {requests : List Request} {lanes lanes' : Lanes RequestId}
    (h : Coupled requests lanes) (h' : Coupled requests lanes') (lane : Lane) :
    (lanes.get lane).Perm (lanes'.get lane) := by
  rw [List.perm_ext_iff_of_nodup (h.once lane) (h'.once lane)]
  exact fun id => (h.stands lane id).trans (h'.stands lane id).symm

/-- Two records under different names may be put in place in either order. -/
theorem Request.replaceIn_comm {p q : Request} (hne : p.id ≠ q.id) (requests : List Request) :
    p.replaceIn (q.replaceIn requests) = q.replaceIn (p.replaceIn requests) := by
  rw [replaceIn, replaceIn, replaceIn, replaceIn, List.map_map, List.map_map]
  refine List.map_congr_left fun x _ => ?_
  rw [Function.comp_apply, Function.comp_apply]
  by_cases hp : x.id = p.id
  · have hq : x.id ≠ q.id := fun he => hne (hp.symm.trans he)
    rw [if_neg hq, if_pos hp, if_neg hne]
  · by_cases hq : x.id = q.id
    · rw [if_pos hq, if_neg hp, if_pos hq, if_neg hne.symm]
    · rw [if_neg hq, if_neg hp, if_neg hq]

namespace Router

variable {r s : Router} {around : Surroundings} {p q p' : Request} {call call' : RouterCall}
  {stage stage' : Stage} {id id' : RequestId}

/-- Two calls one after the other, with both answers. -/
def performBoth (r : Router) (around : Surroundings) (call call' : RouterCall) :
    Turn Router (Answer × Answer) :=
  let t := r.perform around call
  let t' := t.state.perform around call'
  ⟨(t.value, t'.value), t'.state, t.effects ++ t'.effects⟩

/-- Two routers that differ in their lanes at most, the main lanes in the order of the last two. -/
structure Swapped (r s : Router) : Prop where
  /-- The requests of the first are coupled with the lanes. -/
  coupled : Coupled r.requests r.lanes
  /-- So are those of the second. -/
  coupled' : Coupled s.requests s.lanes
  /-- Only the lanes differ. -/
  same : s = { r with lanes := s.lanes }
  /-- The main lanes differ in the order of the last two. -/
  main : r.lanes.main = s.lanes.main ∨
    ∃ front x y, r.lanes.main = front ++ [x, y] ∧ s.lanes.main = front ++ [y, x]

theorem Swapped.symm (h : r.Swapped s) : s.Swapped r := by
  refine ⟨h.coupled', h.coupled, ?_, ?_⟩
  · rw [h.same]
  · rcases h.main with hsame | ⟨front, x, y, hr, hs⟩
    · exact .inl hsame.symm
    · exact .inr ⟨front, y, x, hs, hr⟩

theorem Swapped.refl (h : Coupled r.requests r.lanes) : r.Swapped r := ⟨h, h, rfl, .inl rfl⟩

/-- Two calls that may be made in either order. -/
structure Interchange (r : Router) (around : Surroundings) (call call' : RouterCall) : Prop where
  /-- Each gets the same answer. -/
  value : (r.performBoth around call' call).value = (r.performBoth around call call').value.swap
  /-- They leave routers that differ in the order of two requests at most. -/
  state : (r.performBoth around call call').state.Swapped (r.performBoth around call' call).state
  /-- They post the same events. -/
  posted : posted (r.performBoth around call' call).effects =
    posted (r.performBoth around call call').effects

theorem Interchange.symm (h : r.Interchange around call call') :
    r.Interchange around call' call := by
  refine ⟨?_, h.state.symm, h.posted.symm⟩
  rw [h.value, Prod.swap_swap]

/-- A report leaves the requests coupled with the lanes. -/
theorem coupled_report (around : Surroundings) (h : Coupled r.requests r.lanes)
    (hcall : call.wait? = some (stage, id)) :
    Coupled (r.perform around call).state.requests (r.perform around call).state.lanes :=
  (changes_report h hcall).1

/-- A report on a request does not make it one that has ended. -/
theorem Remembers.report (around : Surroundings) (remembers : r.Remembers)
    (h : Coupled r.requests r.lanes) (hcall : call.wait? = some (stage, id)) :
    (r.perform around call).state.Remembers := by
  have hsame := history_report h around call hcall
  refine ⟨hsame ▸ remembers.sound, fun q hq => ?_⟩
  rw [hsame]
  rcases (changes_report h hcall).2.origin hq with ⟨p, hp, hbecomes⟩ | hnone
  · rw [hbecomes.alike.id]
    exact remembers.apart p hp
  · cases hnone

/-- A report does not change what another request waits for. -/
theorem waits_perform_iff (around : Surroundings) (h : Coupled r.requests r.lanes)
    (hcall : call.wait? = some (stage, id)) (hne : id' ≠ id) :
    (r.perform around call).state.Waits stage' id' ↔ r.Waits stage' id' := by
  have hspares := spares_report around h hcall
  refine exists_congr fun x => ?_
  constructor
  · rintro ⟨hx, rfl, hwait⟩
    exact ⟨(hspares.mem_iff hne).mp hx, rfl, hwait⟩
  · rintro ⟨hx, rfl, hwait⟩
    exact ⟨(hspares.mem_iff hne).mpr hx, rfl, hwait⟩

/-- A report that comes too late may as well come before another one. -/
theorem interchange_of_not_waits (around : Surroundings) (h : Coupled r.requests r.lanes)
    (hcall : call.wait? = some (stage, id)) (hcall' : call'.wait? = some (stage', id'))
    (hne : id ≠ id') (hw : ¬ r.Waits stage id) : r.Interchange around call call' := by
  have hafter := coupled_report around h hcall'
  have hw' : ¬ (r.perform around call').state.Waits stage id :=
    mt (waits_perform_iff around h hcall' hne).mp hw
  obtain ⟨note, hsilent, hfirst⟩ := perform_of_not_waits around h hw hcall
  obtain ⟨note', hsilent', hsecond⟩ := perform_of_not_waits around hafter hw' hcall
  constructor
  · simp only [performBoth, hfirst, hsecond, Prod.swap_prod_mk]
  · simp only [performBoth, hfirst, hsecond]
    exact .refl hafter
  · simp only [performBoth, hfirst, hsecond, posted_append, hsilent.posted, hsilent'.posted,
      List.append_nil, List.nil_append]

/-- Two reports that both take effect may take effect in either order. -/
theorem interchange_of_waits (around : Surroundings) (h : Coupled r.requests r.lanes)
    (hp : p ∈ r.requests) (hp' : p' ∈ r.requests) (hstage : p.state.stage? = some stage)
    (hstage' : p'.state.stage? = some stage') (hcall : call.wait? = some (stage, p.id))
    (hcall' : call'.wait? = some (stage', p'.id)) (hne : p.id ≠ p'.id) :
    r.Interchange around call call' := by
  obtain ⟨es, hshows, hperform⟩ := perform_of_waits around h hp hstage hcall
  obtain ⟨es', hshows', hperform'⟩ := perform_of_waits around h hp' hstage' hcall'
  have hid := (Request.resumedBy_spec (h.sound p hp) hstage hcall).1.alike.id
  have hid' := (Request.resumedBy_spec (h.sound p' hp') hstage' hcall').1.alike.id
  have hafter := coupled_report around h hcall
  have hafter' := coupled_report around h hcall'
  rw [hperform] at hafter
  rw [hperform'] at hafter'
  -- The other request is where it was, with the record that it had.
  obtain ⟨fs', hshows₂', hsecond'⟩ := perform_of_waits around hafter
    (((spares_resume h hid).mem_iff hne.symm).mpr hp') hstage' hcall'
  obtain ⟨fs, hshows₂, hsecond⟩ := perform_of_waits around hafter'
    (((spares_resume h hid').mem_iff hne).mpr hp) hstage hcall
  have hboth := coupled_report around hafter hcall'
  have hboth' := coupled_report around hafter' hcall
  rw [hsecond'] at hboth
  rw [hsecond] at hboth'
  constructor
  · simp only [performBoth, hperform, hperform', hsecond, hsecond', Prod.swap_prod_mk]
  · simp only [performBoth, hperform, hperform', hsecond, hsecond']
    refine ⟨hboth, hboth', ?_, .inr ⟨r.lanes.main, p.id, p'.id, ?_, ?_⟩⟩
    · have hapart : (p'.resumedBy call').id ≠ (p.resumedBy call).id := by
        rw [hid, hid']
        exact hne.symm
      have hrequests := Request.replaceIn_comm hapart.symm r.requests
      exact congrArg (fun requests => ({ r with
        requests := requests
        lanes := ((r.resume p' (p'.resumedBy call')).resume p (p.resumedBy call)).lanes } : Router))
        hrequests
    · rw [main_resume hstage', main_resume hstage, List.append_assoc]
      rfl
    · rw [main_resume hstage, main_resume hstage', List.append_assoc]
      rfl
  · simp only [performBoth, hperform, hperform', hsecond, hsecond', posted_append, hshows.posted,
      hshows'.posted, hshows₂.posted, hshows₂'.posted]

/-- Reports on different requests may be made in either order. -/
theorem interchange_reports (around : Surroundings) (h : Coupled r.requests r.lanes)
    (hcall : call.wait? = some (stage, id)) (hcall' : call'.wait? = some (stage', id'))
    (hne : id ≠ id') : r.Interchange around call call' := by
  by_cases hw : r.Waits stage id
  · by_cases hw' : r.Waits stage' id'
    · obtain ⟨p, hp, rfl, hstage⟩ := hw
      obtain ⟨p', hp', rfl, hstage'⟩ := hw'
      exact interchange_of_waits around h hp hp' hstage hstage' hcall hcall' hne
    · exact (interchange_of_not_waits around h hcall' hcall hne.symm hw').symm
  · exact interchange_of_not_waits around h hcall hcall' hne hw

/-! ## Taking everyone through a step -/

/-- Two routers that differ at most in the order in which requests stand in the lanes and are
remembered, and in a listener that is gone. -/
structure Similar (r s : Router) (around : Surroundings) : Prop where
  /-- The catalog is the same. -/
  catalog : s.catalog = r.catalog
  /-- The settings are the same. -/
  settings : s.settings = r.settings
  /-- The same requests are in flight, with the same records. -/
  requests : s.requests = r.requests
  /-- The same names stand in each lane. -/
  lanes : ∀ lane, (r.lanes.get lane).Perm (s.lanes.get lane)
  /-- The same listener listens. -/
  listener : s.liveListener? around = r.liveListener? around
  /-- The same names are remembered. -/
  history : r.history.ended.Perm s.history.ended
  /-- The same names are found. -/
  found : ∀ id, s.history.contains id = r.history.contains id
  /-- The same has been counted. -/
  counters : s.counters = r.counters

namespace Swapped

theorem passage_eq (h : r.Swapped s) : s.passage around = r.passage around := by
  rw [h.same]
  rfl

theorem main_perm (h : r.Swapped s) : r.lanes.main.Perm s.lanes.main := by
  rcases h.main with hsame | ⟨front, x, y, hr, hs⟩
  · rw [hsame]
  · rw [hr, hs]
    exact (List.Perm.swap y x []).append_left front

theorem queue_perm (h : r.Swapped s) : r.queue.Perm s.queue := by
  have hrequest : s.request? = r.request? := by
    rw [h.same]
    rfl
  rw [queue, queue, hrequest]
  exact h.main_perm.filterMap _

theorem upcoming_perm (h : r.Swapped s) : (r.upcoming around).Perm (s.upcoming around) := by
  rw [upcoming, upcoming, h.passage_eq]
  exact h.queue_perm.filterMap _

end Swapped

/-- The request is settled by the end of its next step. -/
def settles (r : Router) (around : Surroundings) (id : RequestId) : Bool :=
  (r.request? id).any fun q => (r.passage around q).request.state = .settled

/-- The names that are returned are those in the main lane that are settled in their step. -/
theorem map_id_upcoming (around : Surroundings) (h : Coupled r.requests r.lanes) :
    (r.upcoming around).map (fun x => x.request.id) =
      r.lanes.main.filter (r.settles around) := by
  rw [upcoming, queue, List.map_filterMap, List.filterMap_filterMap, ← List.filterMap_eq_filter]
  refine List.filterMap_congr fun id hid => ?_
  obtain ⟨q, hq, rfl, -⟩ := (h.stands .main id).mp hid
  have hfind := request?_eq_some h.names hq
  have hname := passage_id around h hq hid
  rw [hfind, Option.bind_some, Passage.return?, Option.guard, settles, hfind, Option.any_some]
  by_cases hsettled : (r.passage around q).request.state = .settled
  · rw [if_pos hsettled, if_pos (decide_eq_true hsettled), Option.map_some]
    exact congrArg some hname
  · rw [if_neg hsettled, if_neg (by simpa using hsettled), Option.map_none]

/-- It does not matter to what is remembered in which order the last two are returned. -/
theorem Swapped.history_perm (h : r.Swapped s) (remembers : r.Remembers) :
    (r.history.recordAll ((r.upcoming around).map fun x => x.request.id)).ended.Perm
      (s.history.recordAll ((s.upcoming around).map fun x => x.request.id)).ended := by
  have hsettles : s.settles around = r.settles around := by
    rw [h.same]
    rfl
  have hhistory : s.history = r.history := by rw [h.same]
  rw [map_id_upcoming around h.coupled, map_id_upcoming around h.coupled', hsettles, hhistory]
  rcases h.main with hsame | ⟨front, x, y, hr, hs⟩
  · rw [hsame]
  · have honce : (front ++ [x, y]).Nodup := hr ▸ h.coupled.once .main
    obtain ⟨-, hlast, happart⟩ := List.nodup_append.mp honce
    have hnew : ∀ id ∈ [x, y],
        id ∉ (r.history.recordAll (front.filter (r.settles around))).known := by
      intro id hid hmem
      rcases History.mem_recordAll hmem with hold | hfront
      · have hstands : id ∈ r.lanes.get .main := by
          change id ∈ r.lanes.main
          rw [hr]
          exact List.mem_append_right _ hid
        obtain ⟨q, hq, rfl, -⟩ := (h.coupled.stands .main id).mp hstands
        exact remembers.apart q hq hold
      · exact happart id (List.mem_filter.mp hfront).1 id hid rfl
    have hne : y ≠ x := by
      have hnotmem := (List.nodup_cons.mp hlast).1
      exact fun he => hnotmem (he ▸ List.mem_cons_self)
    rw [hr, hs, List.filter_append, List.filter_append, History.recordAll_append,
      History.recordAll_append]
    -- Unless both are returned there is no order in which they are.
    cases hx : r.settles around x <;> cases hy : r.settles around y <;>
      simp only [List.filter_cons, List.filter_nil, hx, hy, if_true, Bool.false_eq_true, if_false,
        List.Perm.refl]
    exact History.record_comm_perm (hnew x (by simp)) (hnew y (by simp)) hne

namespace Swapped

variable {r' s' : Router} {es es' : List Effect} {a b b' : Agenda}

/-- Once everyone has been taken through a step, nothing but orders is left to differ. -/
theorem similar_of_emptied (h : r.Swapped s) (remembers : r.Remembers)
    (e : r.Emptied around r' es) (e' : s.Emptied around s' es') :
    r'.Similar s' around ∧ (outputs es).Perm (outputs es') ∧ (armed es).Perm (armed es') := by
  have hrequests : s'.requests = r'.requests := by
    have hsame : s.requests = r.requests := by rw [h.same]
    rw [e.requests, e'.requests, h.passage_eq, hsame]
    refine List.filterMap_congr fun q _ => ?_
    simp only [h.main_perm.mem_iff]
  have hhistory : r'.history.ended.Perm s'.history.ended := by
    rw [e.history, e'.history]
    exact h.history_perm remembers
  have hfound : ∀ id, s'.history.contains id = r'.history.contains id := by
    have hsame : s.history = r.history := by rw [h.same]
    refine History.Sound.contains_eq ?_ ?_ hhistory
    · rw [e.history]
      exact remembers.sound.recordAll _
    · rw [e'.history, hsame]
      exact remembers.sound.recordAll _
  refine ⟨⟨?_, ?_, hrequests, ?_, ?_, hhistory, hfound, ?_⟩, ?_, ?_⟩
  · rw [e.catalog, e'.catalog, h.same]
  · rw [e.settings, e'.settings, h.same]
  · exact e.coupled.perm (hrequests ▸ e'.coupled)
  · rw [e.listener, e'.listener, h.same]
    rfl
  · have hcounters : s.counters = r.counters := by rw [h.same]
    have htally : Counters.tally [] (s.upcoming around) = .tally [] (r.upcoming around) := by
      have hperm : (r.upcoming around).Perm (s.upcoming around) := h.upcoming_perm
      simp only [Counters.tally, hperm.countP_eq]
    rw [e.counters, e'.counters, hcounters, htally]
  · rw [e.outputs, e'.outputs, h.passage_eq]
    exact h.queue_perm.flatMap_right _
  · rw [e.armed, e'.armed, h.passage_eq]
    exact h.queue_perm.flatMap_right _

/-- Nothing but orders differs to begin with. -/
theorem similar (h : r.Swapped s) : r.Similar s around := by
  have hrequests : s.requests = r.requests := by rw [h.same]
  refine ⟨?_, ?_, hrequests, h.coupled.perm (hrequests ▸ h.coupled'), ?_, ?_, fun id => ?_, ?_⟩ <;>
    rw [h.same]
  rfl

/-- Making the posted steps leaves nothing but orders to differ. -/
theorem similar_of_pumps (h : r.Swapped s) (remembers : r.Remembers)
    (k : Pumps around r a r' b es) (k' : Pumps around s a s' b' es') :
    r'.Similar s' around ∧ b'.posted = b.posted ∧ b.sleeping.Perm b'.sleeping ∧
      (outputs es).Perm (outputs es') := by
  by_cases hidle : around.inboxOpen = true → .process ∉ a.posted
  · -- No step is made in either order.
    obtain ⟨rfl, rfl, rfl⟩ := k.of_idle hidle
    obtain ⟨rfl, rfl, rfl⟩ := k'.of_idle hidle
    exact ⟨h.similar, rfl, .refl _, .refl _⟩
  · obtain ⟨isOpen, hposted⟩ := Classical.not_imp.mp hidle
    have isPosted := not_not.mp hposted
    obtain ⟨e, hsleeping, hothers⟩ := k.emptied isOpen h.coupled (.inr isPosted)
    obtain ⟨e', hsleeping', hothers'⟩ := k'.emptied isOpen h.coupled' (.inr isPosted)
    obtain ⟨hsimilar, houtputs, harmed⟩ := h.similar_of_emptied remembers e e'
    refine ⟨hsimilar, hothers'.trans hothers.symm, ?_, houtputs⟩
    rw [hsleeping, hsleeping']
    exact harmed.append_left _

end Swapped

/-- By two reports nothing goes out, and no timer is armed. -/
theorem performBoth_reports (around : Surroundings) (h : Coupled r.requests r.lanes)
    (hcall : call.wait? = some (stage, id)) (hcall' : call'.wait? = some (stage', id')) :
    outputs (r.performBoth around call call').effects = [] ∧
      armed (r.performBoth around call call').effects = [] := by
  obtain ⟨-, -, posts, -, hshows⟩ := report_frame around h hcall
  obtain ⟨-, -, posts', -, hshows'⟩ := report_frame around (coupled_report around h hcall) hcall'
  have hall := hshows.append hshows'
  exact ⟨hall.outputs, hall.armed⟩

end Router

namespace Run

open Router

/-- Two reports on different requests commute. Make them in either order after any moves, and then
the steps that are posted, by the reports, before them or on the way, until none is left. Each
report gets the same answer in both orders; making the steps comes to an end; and whatever comes of
it, the two routers differ at most in the order in which requests stand in a lane and in which they
are remembered, the same timers are armed, the same other events are posted, and the same commands
and whatever else goes out, up to their order. -/
theorem reports_commute (run : Run) (n : Nat) (around : Surroundings) (a : Agenda)
    {call call' : RouterCall} {stage stage' : Stage} {id id' : RequestId}
    (hcall : call.wait? = some (stage, id)) (hcall' : call'.wait? = some (stage', id'))
    (hne : id ≠ id') :
    let t := (run.router n).performBoth around call call'
    let t' := (run.router n).performBoth around call' call
    t'.value = t.value.swap ∧
      (∃ s b es, Pumps around t.state (a.extend t.effects) s b es) ∧
      (∃ s' b' es', Pumps around t'.state (a.extend t'.effects) s' b' es') ∧
      ∀ s b es s' b' es', Pumps around t.state (a.extend t.effects) s b es →
        Pumps around t'.state (a.extend t'.effects) s' b' es' →
          s.Similar s' around ∧ b'.posted = b.posted ∧ b.sleeping.Perm b'.sleeping ∧
            (Effect.commands (t.effects ++ es)).Perm (Effect.commands (t'.effects ++ es')) ∧
            (Effect.outputs (t.effects ++ es)).Perm (Effect.outputs (t'.effects ++ es')) := by
  intro t t'
  have hcoupled := run.coupled n
  have hinter := interchange_reports around hcoupled hcall hcall' hne
  have hremembers : t.state.Remembers :=
    ((run.remembers n).report around hcoupled hcall).report around
      (coupled_report around hcoupled hcall) hcall'
  obtain ⟨houtputs, harmed⟩ := performBoth_reports around hcoupled hcall hcall'
  obtain ⟨houtputs', harmed'⟩ := performBoth_reports around hcoupled hcall' hcall
  refine ⟨hinter.value, Pumps.exists_pumps around hinter.state.coupled _,
    Pumps.exists_pumps around hinter.state.coupled' _, ?_⟩
  intro s b es s' b' es' k k'
  -- Both orders leave the same agenda.
  have hagenda : a.extend t'.effects = a.extend t.effects := by
    simp only [Agenda.extend, t, t', harmed, harmed', hinter.posted]
  rw [hagenda] at k'
  obtain ⟨hsimilar, hposted, hsleeping, hout⟩ := hinter.state.similar_of_pumps hremembers k k'
  have hall : (Effect.outputs (t.effects ++ es)).Perm (Effect.outputs (t'.effects ++ es')) := by
    rw [Effect.outputs_append, Effect.outputs_append, houtputs, houtputs']
    exact hout
  refine ⟨hsimilar, hposted, hsleeping, ?_, hall⟩
  rw [Effect.commands_eq, Effect.commands_eq]
  exact hall.filterMap _

/-- One of two requests is replied to and the other takes too long, in either order. -/
theorem reports_commute_rush :
    let reply := RouterCall.reply "printer" (.ofNat 1) false .empty
    let late := RouterCall.handle (.timeout .reply (.ofNat 2) 5000)
    let t := (rush.router 6).performBoth office reply late
    let t' := (rush.router 6).performBoth office late reply
    t.value = (.done, .nothing) ∧ t'.value = (.nothing, .done) ∧
      ∀ s b es s' b' es', Pumps office t.state (Agenda.empty.extend t.effects) s b es →
        Pumps office t'.state (Agenda.empty.extend t'.effects) s' b' es' →
          s.Similar s' office ∧
            (Effect.commands (t.effects ++ es)).Perm (Effect.commands (t'.effects ++ es')) := by
  have hne : RequestId.ofNat 1 ≠ .ofNat 2 := by decide
  have hreply : (RouterCall.reply "printer" (.ofNat 1) false .empty).wait? =
      some (.reply, .ofNat 1) := rfl
  have hlate : (RouterCall.handle (.timeout .reply (.ofNat 2) 5000)).wait? =
      some (.reply, .ofNat 2) := rfl
  have hcommute := rush.reports_commute 6 office .empty hreply hlate hne
  refine ⟨rfl, hcommute.1, fun s b es s' b' es' k k' => ?_⟩
  obtain ⟨hsimilar, -, -, hcommands, -⟩ := hcommute.2.2.2 s b es s' b' es' k k'
  exact ⟨hsimilar, hcommands⟩

end Run

end IntentRouter
