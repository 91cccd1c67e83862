import Mathlib.Data.List.DropRight
import IntentRouter.Proofs.Remembered
import IntentRouter.Proofs.Rivals

/-!
# Late replies and stray ones

What a router remembers are the names of the requests that it has returned last, in the order in
which it has returned them. A reply that nobody waits for is refused; whether it is called late or
unexpected tells whether its request is one of these.
-/

namespace IntentRouter

open Effect

namespace History

variable {ids : List RequestId}

/-- Names that have ended one after another, each once, are remembered from the last one back, as
many as are kept. -/
theorem ended_recordAll (once : ids.Nodup) : (empty.recordAll ids).ended = ids.rtake capacity := by
  induction ids using List.reverseRecOn with
  | nil => rfl
  | append_singleton ids x ih =>
    obtain ⟨honce, -, hothers⟩ := List.nodup_append.mp once
    have hnew : x ∉ (empty.recordAll ids).known := fun hmem =>
      (mem_recordAll hmem).elim (List.not_mem_nil) fun hx =>
        hothers x hx x (List.mem_singleton_self x) rfl
    have hcapacity : capacity = 512 := rfl
    have hdropped : ids.length - capacity +
        (ids.length - (ids.length - capacity) + 1 - capacity) = ids.length + 1 - capacity := by
      omega
    have hrecord : (empty.recordAll (ids ++ [x])).ended =
        ((empty.recordAll ids).record x).ended := by
      rw [recordAll_append]
      rfl
    rw [hrecord, record_of_notMem hnew, ih honce, List.rtake, List.rtake, List.length_drop,
      List.drop_drop, hdropped, List.length_append, List.length_singleton,
      List.drop_append_of_le_length (by omega)]

end History

namespace Router

variable {r : Router} {id : RequestId}

/-- What is noted about a reply that nobody waits for. -/
def lateNote (r : Router) (application : String) (id : RequestId) : RequestNote :=
  if r.history.contains id then .lateReply application else .unexpectedReply application

/-- A reply that is not accepted changes nothing. It is refused, with a note that tells whether its
request is remembered. -/
theorem reply_of_not_done (h : Coupled r.requests r.lanes) (around : Surroundings)
    (application : String) (isError : Bool) (payload : Json.Parameters)
    (refused : (r.perform around (.reply application id isError payload)).value ≠ .done) :
    r.perform around (.reply application id isError payload) =
      ⟨.refused (.notPending id), r, [.about id (r.lateNote application id)]⟩ := by
  have hw : ¬ r.Waits .reply id := by
    rw [waits_iff_inState]
    exact mt ((arbitrates h id).reply around application isError payload).mpr refused
  simp only [perform, reply, endWait?_eq_none h hw]
  rfl

end Router

namespace Run

variable {run : Run} {n : Nat}

/-- The names of the requests that have been returned so far, in the order in which they were. -/
def returnedIds (run : Run) (n : Nat) : List RequestId :=
  (run.returns n).map fun x => x.request.id

/-- No request is returned twice. -/
theorem nodup_returnedIds (run : Run) (n : Nat) : (run.returnedIds n).Nodup := by
  induction n with
  | zero => exact List.nodup_nil
  | succ n ih =>
    rw [returnedIds, returns_succ, List.map_append]
    cases hreturned : run.returned? n with
    | none => rwa [Option.toList_none, List.map_nil, List.append_nil]
    | some x =>
      refine (List.perm_append_singleton x.request.id (run.returnedIds n)).nodup_iff.mpr
        (List.nodup_cons.mpr ⟨fun hmem => ?_, ih⟩)
      -- What is returned now has been in flight, and so has not been returned before.
      obtain ⟨⟨q, hq, hqid⟩, -⟩ := (run.returned_iff_gone n _).mp ⟨x, hreturned, rfl⟩
      obtain ⟨y, hy, hyid⟩ := List.mem_map.mp hmem
      obtain ⟨k, hk, hyk⟩ := List.mem_filterMap.mp hy
      have hnk := le_of_returned hq hyk (hyid.trans hqid.symm)
      have hlt := List.mem_range.mp hk
      omega

/-- What is remembered are the requests that were returned last. -/
theorem ended_eq_rtake (run : Run) (n : Nat) :
    (run.router n).history.ended = (run.returnedIds n).rtake History.capacity := by
  rw [history_eq]
  exact History.ended_recordAll (run.nodup_returnedIds n)

theorem contains_iff_mem_rtake (run : Run) (n : Nat) (id : RequestId) :
    (run.router n).history.contains id = true ↔
      id ∈ (run.returnedIds n).rtake History.capacity := by
  rw [History.contains_iff, (run.remembers n).sound.mem_known_iff, ended_eq_rtake]

/-- After any moves the set of the names that are remembered has exactly the names that are kept in
order, each once. In order they are the names of the requests returned last, of 512 of them if so
many have been returned and of all otherwise, and none is that of a request in flight. So a reply
that is not accepted is noted as late, for debugging, if its request is one of the 512 returned
last, and otherwise as one that was not expected, with a warning; and nothing else comes of it. -/
theorem remembers_latest (run : Run) (n : Nat) :
    let history := (run.router n).history
    let latest := (run.returnedIds n).rtake 512
    history.known.Nodup ∧ (∀ id, id ∈ history.known ↔ id ∈ history.ended) ∧
      history.ended.Nodup ∧ history.ended = latest ∧
      history.ended.length = min 512 (run.returns n).length ∧
      (∀ q ∈ (run.router n).requests, q.id ∉ history.known ∧ q.id ∉ history.ended) ∧
      ∀ around application id isError payload,
        let t := (run.router n).perform around (.reply application id isError payload)
        t.value ≠ .done →
          t.value = .refused (.notPending id) ∧ t.state = run.router n ∧
            ∃ note, t.effects = [.note (.request id note)] ∧
              (id ∈ latest ↔ note.level = .debug ∧
                note.message = "Ignoring late reply for an already completed intent request") ∧
              (id ∉ latest ↔ note.level = .warn ∧ note.message =
                "Got a reply but no reply was expected for this intent request") := by
  intro history latest
  obtain ⟨⟨honce, hagree⟩, hapart⟩ := run.remembers n
  have hlatest : history.ended = latest := run.ended_eq_rtake n
  refine ⟨hagree.nodup_iff.mpr honce, fun id => hagree.mem_iff, honce, hlatest, ?_, ?_, ?_⟩
  · have hcapacity : History.capacity = 512 := rfl
    change (run.router n).history.ended.length = _
    rw [ended_eq_rtake, List.rtake, List.length_drop, returnedIds, List.length_map]
    omega
  · intro q hq
    exact ⟨hapart q hq, fun hmem => hapart q hq (hagree.mem_iff.mpr hmem)⟩
  · intro around application id isError payload t hrefused
    have ht : t = _ := Router.reply_of_not_done (run.coupled n) around application isError payload
      hrefused
    have hcontains : history.contains id = true ↔ id ∈ latest := run.contains_iff_mem_rtake n id
    rw [ht]
    refine ⟨rfl, rfl, (run.router n).lateNote application id, rfl, ?_⟩
    unfold Router.lateNote
    by_cases hlate : history.contains id = true
    · rw [if_pos hlate]
      have hmem := hcontains.mp hlate
      exact ⟨iff_of_true hmem ⟨rfl, rfl⟩, iff_of_false (not_not.mpr hmem) (nomatch ·.1)⟩
    · rw [if_neg hlate]
      have hnot := mt hcontains.mpr hlate
      exact ⟨iff_of_false hnot (nomatch ·.1), iff_of_true hnot ⟨rfl, rfl⟩⟩

/-- Once the editor's request has been returned, it is remembered, and a second reply of the printer
is late. -/
theorem remembers_latest_errand :
    (errand.router 6).history.ended = [printing.id] ∧
      ((errand.router 6).perform office (.reply "printer" printing.id false .empty)).value =
        .refused (.notPending printing.id) ∧
      ∃ note : RequestNote,
        ((errand.router 6).perform office (.reply "printer" printing.id false .empty)).effects =
          [.note (.request printing.id note)] ∧ note.level = .debug := by
  obtain ⟨-, -, -, hended, -, -, hreplies⟩ := errand.remembers_latest 6
  have hlatest : (errand.returnedIds 6).rtake 512 = [printing.id] := rfl
  obtain ⟨hvalue, -, note, heffects, hlate, -⟩ :=
    hreplies office "printer" printing.id false .empty nofun
  have hmem : printing.id ∈ (errand.returnedIds 6).rtake 512 := by
    rw [hlatest]
    exact List.mem_singleton_self _
  exact ⟨hended.trans hlatest, hvalue, note, heffects, (hlate.mp hmem).1⟩

end Run

end IntentRouter
