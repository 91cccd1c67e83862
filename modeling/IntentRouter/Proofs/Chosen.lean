import IntentRouter.Proofs.Authentic
import IntentRouter.Proofs.Decision

/-!
# The intent that is chosen is the one that handles the request

Of a choice a request keeps the owner only. The intent can be told from it, because no owner has
two candidates: no two intents are registered under one key when the candidates are found, and all
candidates have the id that is asked for. What becomes of the catalog later does not matter. So a
request is handled by the intent that was selected, to its end, and a request for which something
else was selected than a candidate has no handler, ever.
-/

namespace IntentRouter

open Router

/-- Among candidates of different owners, the one of the handler is the only one of its owner. -/
theorem Request.chosenCandidate_of_nodup {q : Request} {i : Intent}
    (distinct : (q.candidates.map Intent.owner).Nodup) (hi : i ∈ q.candidates)
    (hhandler : q.handler = some i.owner) :
    q.chosenCandidate = some i ∧ q.candidates.filter (fun c => c.owner = i.owner) = [i] := by
  have hlist : (q.candidates.find? fun c => c.owner = i.owner).toList =
      q.candidates.filter fun c => c.owner = i.owner :=
    toList_find?_eq_filter distinct fun c hc => of_decide_eq_true hc
  have hfind : q.candidates.find? (fun c => c.owner = i.owner) = some i := by
    cases hfound : q.candidates.find? fun c => c.owner = i.owner with
    | none => exact absurd (decide_eq_true rfl) (List.find?_eq_none.mp hfound i hi)
    | some c =>
      have howner : c.owner = i.owner := by simpa using List.find?_some hfound
      rw [List.inj_on_of_nodup_map distinct (List.mem_of_find?_eq_some hfound) hi howner]
  rw [hfind] at hlist
  exact ⟨by rw [chosenCandidate, hhandler]; exact hfind, hlist.symm⟩

/-- A later record of a request has the same candidate chosen. -/
theorem Request.Becomes.chosenCandidate {p q : Request} {i : Intent} (h : p.Becomes q)
    (hp : p.chosenCandidate = some i) : q.chosenCandidate = some i := by
  obtain ⟨handler, hhandler, hfind⟩ := Option.bind_eq_some_iff.mp hp
  rw [Request.chosenCandidate, h.handler handler hhandler, h.alike.candidates]
  exact hfind

/-- The handler owns the candidate that is chosen. -/
theorem Request.handler_of_chosenCandidate {q : Request} {i : Intent}
    (h : q.chosenCandidate = some i) : q.handler = some i.owner := by
  obtain ⟨handler, hhandler, hfind⟩ := Option.bind_eq_some_iff.mp h
  have howner : i.owner = handler := by simpa using List.find?_some hfind
  rw [hhandler, howner]

/-- The candidates found in a catalog without two intents under one key have different owners. -/
theorem Router.nodup_owners {r : Router} (keyed : r.catalog.Keyed) {host : Host} {s : Submission}
    {candidates : List Intent} (h : (r.assess host s).1 = .ok candidates) :
    (candidates.map Intent.owner).Nodup := by
  have hids : ∀ i ∈ candidates, i.intentId = s.intentId :=
    fun i hi => (eligible_of_mem h hi).intentId
  have hsub : candidates.Sublist r.catalog.intents := by
    rw [candidates_eq h, answering_eq_matching keyed]
    exact List.filter_sublist.trans List.filter_sublist
  have hkeys : (candidates.map Intent.key).Nodup := keyed.sublist (hsub.map Intent.key)
  rw [List.Nodup, List.pairwise_map] at hkeys ⊢
  refine hkeys.imp_of_mem fun {i j} hi hj hne howner => hne ?_
  rw [Intent.key, Intent.key, hids i hi, hids j hj, howner]

namespace Run

variable {run : Run} {k n : Nat} {p q q' q₀ : Request} {x : Return} {i : Intent}

/-- The candidates of an admitted request are those found for a submission. -/
theorem assess_of_admitted (h : run.admitted? k = some q₀) :
    ∃ host s, ((run.router k).assess host s).1 = .ok q₀.candidates := by
  cases hm : run.moves[k]? with
  | none =>
    rw [admitted?, admission?, hm] at h
    cases h
  | some m =>
    rw [admitted?_eq hm] at h
    unfold Move.admitted? at h
    split at h
    · next id now s _ =>
      rcases (run.router k).submit_cases m.around id now s with
        ⟨candidates, lanes, hassess, hvalue, -⟩ | ⟨reason, hvalue, -⟩
      · rw [hvalue] at h
        obtain rfl := Option.some.inj h
        exact ⟨_, s, hassess⟩
      · rw [hvalue] at h
        cases h
    · cases h

/-- No owner has two of the candidates of a request in flight. -/
theorem nodup_owners (hq : q ∈ (run.router n).requests) :
    (q.candidates.map Intent.owner).Nodup := by
  obtain ⟨k, -, q₀, hadmitted, hbecomes⟩ := run.traced n q hq
  obtain ⟨host, s, hassess⟩ := assess_of_admitted hadmitted
  rw [hbecomes.alike.candidates]
  exact Router.nodup_owners (run.keyed k) hassess

/-- A settled request has been in flight before, as it is or not yet settled. -/
theorem mem_of_settled_succ (hq : q ∈ (run.router (k + 1)).requests) (hs : q.state = .settled) :
    q ∈ (run.router k).requests ∨
      ∃ p ∈ (run.router k).requests, p.id = q.id ∧ p.state ≠ .settled := by
  cases hm : run.moves[k]? with
  | none =>
    rw [router_succ_of_none hm] at hq
    exact .inl hq
  | some m =>
    have hmem := hq
    rw [router_succ hm] at hmem
    cases m.makes_of_mem (run.coupled k) hmem with
    | kept known => exact .inl known
    | admitted admits =>
      have hchange := run.change hm
      rw [admitted?_eq hm, admits] at hchange
      rw [hchange.of_admitted.2] at hs
      cases hs
    | resumed p stage call asks reports known waits result =>
      have hbecomes := (Request.resumedBy_spec ((run.coupled k).sound p known) waits reports).1
      rw [← result] at hbecomes
      exact .inr ⟨p, known, hbecomes.alike.id.symm, RequestState.ne_settled_of_stage waits⟩
    | released p application asks known waits handled result =>
      rw [result] at hs
      cases hs
    | advanced p pass stage steps takes causes waits result =>
      rw [result] at hs
      exact absurd hs (RequestState.ne_settled_of_stage waits)

/-- A settled request in flight is not changed any more. -/
theorem eq_of_settled (hq : q ∈ (run.router n).requests) (hs : q.state = .settled) (hnk : n ≤ k) :
    ∀ q' ∈ (run.router k).requests, q'.id = q.id → q' = q := by
  obtain ⟨outcome, ho⟩ := Option.isSome_iff_exists.mp
    (((run.coupled n).sound q hq).outcome.mpr hs)
  have hsettled : ∀ l, n ≤ l → ∀ q' ∈ (run.router l).requests, q'.id = q.id → q'.state = .settled :=
    fun l hl q' hq' hid => (settled_of_le hq ho hl hq' hid).1
  induction k, hnk using Nat.le_induction with
  | base => exact fun q' hq' hid => (run.coupled n).eq_of_id hq' hq hid
  | succ k hnk ih =>
    intro q' hq' hid
    rcases mem_of_settled_succ hq' (hsettled (k + 1) (Nat.le_succ_of_le hnk) q' hq' hid) with
      hkept | ⟨p, hp, hpid, hunsettled⟩
    · exact ih q' hkept hid
    · exact absurd (hsettled k hnk p hp (hpid.trans hid)) hunsettled

/-- A settled request is returned as it is. -/
theorem eq_of_returned (hq : q ∈ (run.router n).requests) (hs : q.state = .settled)
    (hx : run.returned? k = some x) (hid : x.request.id = q.id) : x.request = q := by
  have hnk := le_of_returned hq hx hid
  obtain ⟨m, p, pass, -, hsteps, -, rfl⟩ := exists_steps hx
  have hpid : p.id = q.id :=
    (hsteps.onWay (run.coupled k)).becomes.alike.id.symm.trans hid
  obtain rfl := eq_of_settled hq hs hnk p hsteps.known hpid
  exact hsteps.request_eq hs

/-- A request without a handler gets one later, if at all. -/
theorem lt_of_handler {handler : String} (hq : q ∈ (run.router n).requests)
    (hnone : q.handler = none) (hq' : q' ∈ (run.router k).requests) (hid : q'.id = q.id)
    (hhandler : q'.handler = some handler) : n < k := by
  by_contra hle
  have hbecomes := becomes_of_le (Nat.le_of_not_lt hle) q' hq' q hq hid
  rw [hbecomes.handler handler hhandler] at hnone
  cases hnone

/-- A request that fails without a handler never has one. -/
theorem handler_eq_none_of_failed {message : String} (hq : q ∈ (run.router n).requests)
    (hnone : q.handler = none) (hfailed : q.fail message ∈ (run.router (n + 1)).requests)
    (hq' : q' ∈ (run.router k).requests) (hid : q'.id = q.id) : q'.handler = none := by
  by_contra hsome
  obtain ⟨handler, hhandler⟩ := Option.ne_none_iff_exists'.mp hsome
  have hlater : n + 1 ≤ k := lt_of_handler hq hnone hq' hid hhandler
  rw [eq_of_settled hfailed rfl hlater q' hq' hid] at hsome
  exact hsome hnone

/-- An application that is started for a request is its handler. -/
theorem handler_of_started {application : String}
    (ho : .started application ∈ run.outputs q.id n) :
    ∃ q' ∈ (run.router (n + 1)).requests, q'.id = q.id ∧ q'.handler = some application := by
  obtain ⟨m, p, r, -, hid, hmem, hadvance⟩ := advance_of_mem ho
  obtain ⟨-, q', hq', hsame, hhandler⟩ := hadvance.fits hadvance.becomes.alike _ hmem
  exact ⟨q', hq', hsame.trans hid, hhandler⟩

/-- A request is sent as it is in flight, with its handler. -/
theorem handler_of_sent {channel : Connection} {sent : Request}
    (ho : .sent channel sent ∈ run.outputs q.id n) :
    sent ∈ (run.router (n + 1)).requests ∧ sent.id = q.id ∧
      ∃ handler, sent.handler = some handler := by
  obtain ⟨m, p, r, -, hid, hmem, hadvance⟩ := advance_of_mem ho
  obtain ⟨halike, hsent, -, -, handler, hhandler, -⟩ :=
    hadvance.fits hadvance.becomes.alike _ hmem
  exact ⟨hsent, halike.id.trans hid, handler, hhandler⟩

/-- After the choice of a candidate that candidate is the one chosen. -/
theorem chosen_of_resolve {m : Move} {selected : Intent} (hm : run.moves[n]? = some m)
    (hask : m.ask = .router (.resolve q.id selected)) (hq : q ∈ (run.router n).requests)
    (hs : q.state = .awaitingChoice) (hi : i ∈ q.candidates) (hsame : i.same selected = true) :
    ∃ q' ∈ (run.router (n + 1)).requests, q'.id = q.id ∧ q'.chosenCandidate = some i := by
  have hstage : q.state.stage? = some .choice := by rw [hs]; rfl
  have hany : (q.candidates.any fun c => c.same selected) = true :=
    List.any_eq_true.mpr ⟨i, hi, hsame⟩
  have hcall : (RouterCall.resolve q.id selected).wait? = some (.choice, q.id) := rfl
  obtain ⟨es, -, hperform⟩ := perform_of_waits m.around (run.coupled n) hq hstage hcall
  rw [Request.resumedBy, if_pos hany, ← Intent.owner_eq_of_same hsame] at hperform
  have hafter : (q.choose i.owner).moveTo .chosen ∈ (run.router (n + 1)).requests := by
    rw [router_succ hm, Move.turn, hask]
    change _ ∈ ((run.router n).perform m.around _).state.requests
    rw [hperform]
    exact Request.mem_replaceIn_self hq rfl
  have hnone := ((run.coupled n).sound q hq).unhandled (by rw [hs]; rfl)
  have hhandler : ((q.choose i.owner).moveTo .chosen).handler = some i.owner := by
    rw [Request.moveTo, Request.choose, hnone, Option.none_or]
  exact ⟨_, hafter, rfl, (Request.chosenCandidate_of_nodup (nodup_owners hafter) hi hhandler).1⟩

/-- A request is handled by the candidate that is chosen, as long as it is in flight, ... -/
theorem chosen_of_le (hq : q ∈ (run.router n).requests) (hi : q.chosenCandidate = some i)
    (hnk : n ≤ k) (hq' : q' ∈ (run.router k).requests) (hid : q'.id = q.id) :
    q'.chosenCandidate = some i :=
  (becomes_of_le hnk q hq q' hq' hid.symm).chosenCandidate hi

/-- ... and returned as such. -/
theorem chosen_of_returned (hq : q ∈ (run.router n).requests) (hi : q.chosenCandidate = some i)
    (hx : run.returned? k = some x) (hid : x.request.id = q.id) :
    x.request.chosenCandidate = some i := by
  have hnk := le_of_returned hq hx hid
  obtain ⟨m, p, pass, -, hs, -, rfl⟩ := exists_steps hx
  have hbecomes := (hs.onWay (run.coupled k)).becomes
  have hpid : p.id = q.id := hbecomes.alike.id.symm.trans hid
  exact hbecomes.chosenCandidate (chosen_of_le hq hi hnk hs.known hpid)

/-- The owners of the candidates of a request in flight are all different, and a request with a
handler is handled by the one candidate of that owner. Whatever intent is selected for a request
that waits for the choice, the call is accepted. If the intent equals a candidate in all that
intents consist of, the request is handled by this candidate from then on: so it is while the
request is in flight, where it is sent and where it is returned, and no other application than the
owner is started for it. Otherwise the request has failed for this reason and is returned so; it
never has a handler, and nothing is started for it and it is sent to nobody in the whole run. -/
theorem choice_handles (run : Run) :
    (∀ n, ∀ q ∈ (run.router n).requests, (q.candidates.map Intent.owner).Nodup ∧
      ∀ handler, q.handler = some handler → ∃ i, q.chosenCandidate = some i ∧
        q.candidates.filter (fun c => c.owner = handler) = [i]) ∧
      ∀ n, ∀ q ∈ (run.router n).requests, q.state = .awaitingChoice →
        (∀ around selected,
          ((run.router n).perform around (.resolve q.id selected)).value = .done) ∧
        ∀ m selected, run.moves[n]? = some m → m.ask = .router (.resolve q.id selected) →
          (∀ i ∈ q.candidates, i.same selected = true →
            (∃ q' ∈ (run.router (n + 1)).requests, q'.id = q.id) ∧
            (∀ k, n < k → ∀ q' ∈ (run.router k).requests, q'.id = q.id →
              q'.chosenCandidate = some i) ∧
            (∀ k application, .started application ∈ run.outputs q.id k →
              application = i.owner) ∧
            (∀ k channel sent, .sent channel sent ∈ run.outputs q.id k →
              sent.chosenCandidate = some i) ∧
            ∀ k x, run.returned? k = some x → x.request.id = q.id →
              x.request.chosenCandidate = some i) ∧
          ((∀ i ∈ q.candidates, i.same selected = false) →
            (∃ q' ∈ (run.router (n + 1)).requests, q'.id = q.id) ∧
            (∀ k, n < k → ∀ q' ∈ (run.router k).requests, q'.id = q.id →
              q'.state = .settled ∧ q'.outcome = some (.failed "Failed to disambiguate")) ∧
            (∀ k x, run.returned? k = some x → x.request.id = q.id →
              x.request.outcome = some (.failed "Failed to disambiguate") ∧
                x.request.handler = none) ∧
            (∀ k, ∀ q' ∈ (run.router k).requests, q'.id = q.id → q'.handler = none) ∧
            ∀ k, (∀ application, .started application ∉ run.outputs q.id k) ∧
              ∀ channel sent, .sent channel sent ∉ run.outputs q.id k) := by
  refine ⟨fun n q hq => ⟨nodup_owners hq, fun handler hhandler => ?_⟩, fun n q hq hs => ⟨?_, ?_⟩⟩
  · obtain ⟨i, hi, rfl⟩ := ((run.coupled n).sound q hq).owner handler hhandler
    exact ⟨i, Request.chosenCandidate_of_nodup (nodup_owners hq) hi hhandler⟩
  · intro around selected
    exact ((arbitrates (run.coupled n) q.id).resolve around selected).mpr ⟨q, hq, rfl, hs⟩
  · intro m selected hm hask
    have hnone := ((run.coupled n).sound q hq).unhandled (by rw [hs]; rfl)
    refine ⟨fun i hi hsame => ?_, fun hother => ?_⟩
    · obtain ⟨p, hp, hpid, hchosen⟩ := chosen_of_resolve hm hask hq hs hi hsame
      have hlater : ∀ k, n < k → ∀ q' ∈ (run.router k).requests, q'.id = q.id →
          q'.chosenCandidate = some i :=
        fun k hk q' hq' hid => chosen_of_le hp hchosen hk hq' (hid.trans hpid.symm)
      refine ⟨⟨p, hp, hpid⟩, hlater, fun k application ho => ?_, fun k channel sent ho => ?_,
        fun k x hx hid => chosen_of_returned hp hchosen hx (hid.trans hpid.symm)⟩
      · obtain ⟨q', hq', hid, hhandler⟩ := handler_of_started ho
        have hkept := hlater (k + 1) (lt_of_handler hq hnone hq' hid hhandler) q' hq' hid
        exact Option.some.inj (hhandler.symm.trans (Request.handler_of_chosenCandidate hkept))
      · obtain ⟨hsent, hid, handler, hhandler⟩ := handler_of_sent ho
        exact hlater (k + 1) (lt_of_handler hq hnone hsent hid hhandler) sent hsent hid
    · obtain ⟨hfailed, ho⟩ := fail_of_failsBy hm hask hq (.unoffered selected hs hother)
      have hnever : ∀ k, ∀ q' ∈ (run.router k).requests, q'.id = q.id → q'.handler = none :=
        fun k q' hq' hid => handler_eq_none_of_failed hq hnone hfailed hq' hid
      refine ⟨⟨_, hfailed, rfl⟩, fun k hk q' hq' hid => ?_, fun k x hx hid => ?_, hnever,
        fun k => ⟨fun application ho => ?_, fun channel sent ho => ?_⟩⟩
      · rw [eq_of_settled hfailed rfl hk q' hq' hid]
        exact ⟨rfl, ho⟩
      · rw [eq_of_returned hfailed rfl hx hid]
        exact ⟨ho, hnone⟩
      · obtain ⟨q', hq', hid, hhandler⟩ := handler_of_started ho
        rw [hnever (k + 1) q' hq' hid] at hhandler
        cases hhandler
      · obtain ⟨hsent, hid, handler, hhandler⟩ := handler_of_sent ho
        rw [hnever (k + 1) sent hsent hid] at hhandler
        cases hhandler

/-- Surroundings in which a press runs besides the printer, and everyone listens. -/
def market : Surroundings :=
  { office with host := office.host.run "press" (some ⟨"press", "q"⟩), listens := fun _ => true }

/-- Of a printer and a press that are both registered, the listener chooses the press for the
editor's request. The intent of the press is removed, and the press is sent the request
nevertheless. -/
def bargainMoves : List Move :=
  [.catalog (.addApplication "printer"), .catalog (.addApplication "press"),
    .catalog (.add (.plain "print" "printer")), .catalog (.add (.plain "print" "press")),
    .router (.attach 0), .router (.submit (.ofNat 1) .epoch ⟨"editor", "print", none, .empty⟩),
    .router .process, .router (.resolve (.ofNat 1) (.plain "print" "press")),
    .catalog (.remove (.plain "print" "press")), .router .process].map (⟨market, ·⟩)

/-- Only the sixth of these moves admits a request. -/
theorem bargain_admission? {i : Nat} {q : Request}
    (h : (Router.fresh .standard).admission? bargainMoves i = some q) : i = 5 := by
  match i with
  | 0 | 1 | 2 | 3 | 4 | 6 | 7 | 8 | 9 => cases h
  | 5 => rfl
  | _ + 10 => cases h

/-- A run in which a listener chooses between two candidates. -/
def bargain : Run where
  settings := .standard
  start := .fresh .standard
  created := create_standard
  moves := bargainMoves
  fresh := fun _ _ _ _ hp hq _ => (bargain_admission? hp).trans (bargain_admission? hq).symm

/-- The press is sent the request as the one for which it was chosen, although its intent has been
removed. -/
theorem choice_handles_bargain :
    (bargain.router 9).catalog.intents.map Intent.owner = ["printer"] ∧
      ∃ channel sent, .sent channel sent ∈ bargain.outputs (.ofNat 1) 9 ∧
        sent.chosenCandidate = some (.plain "print" "press") := by
  let candidates : List Intent := [.plain "print" "printer", .plain "print" "press"]
  let asked : Request := { printing with candidates := candidates, state := .awaitingChoice }
  have hasked : asked ∈ (bargain.router 7).requests := List.mem_singleton_self asked
  have hsent : .sent ⟨"press", "q"⟩ ((asked.choose "press").moveTo .awaitingReply) ∈
      bargain.outputs asked.id 9 := List.mem_singleton_self _
  obtain ⟨-, hchoice⟩ := bargain.choice_handles.2 7 asked hasked rfl
  obtain ⟨hchosen, -⟩ := hchoice ⟨market, .router (.resolve (.ofNat 1) (.plain "print" "press"))⟩
    (.plain "print" "press") rfl rfl
  obtain ⟨-, -, -, hsnapshot, -⟩ :=
    hchosen (.plain "print" "press") (List.mem_cons_of_mem _ List.mem_cons_self) rfl
  exact ⟨rfl, _, _, hsent, hsnapshot 9 _ _ hsent⟩

end Run

end IntentRouter
