import IntentRouter.Proofs.Trace

/-!
# Who gets to see a request

What a requester may use is looked up once, when its request is admitted. The candidates found
then stay the only ones: the listener is offered nothing else, a choice of anything else fails
the request, and the handler owns one of them. So nothing that happens to the catalog or to
capabilities later, and nothing a listener says, leads a request anywhere else.
-/

namespace IntentRouter

open Router

/-- A name in a set is in every set that contains it. -/
theorem NameSet.contains_of_subset {s t : NameSet} (h : s.subset t = true) {name : String}
    (hname : s.contains name = true) : t.contains name = true :=
  List.all_eq_true.mp h name (List.contains_iff_mem.mp hname)

/-- What requires nothing is satisfied by any capabilities. -/
theorem Intent.satisfiedBy_of_isEmpty {i : Intent} (h : i.requiredCapabilities.isEmpty = true)
    (granted : NameSet) : i.satisfiedBy granted = true := by
  have hnil : i.requiredCapabilities.members = [] := List.isEmpty_iff.mp h
  rw [satisfiedBy, NameSet.subset, hnil]
  rfl

/-- Screening keeps what the requester may use, whether or not its capabilities have been looked
up before. -/
theorem Screening.visible_run (h : Host) (requester : String) (intents : List Intent) :
    ∀ held : Option NameSet, (∀ granted, held = some granted → granted = h.capabilities requester) →
      (Screening.run h requester held intents).visible = intents.filter (h.mayUse requester) := by
  induction intents with
  | nil => exact fun _ _ => rfl
  | cons i rest ih =>
    intro held hheld
    have hrest := ih held hheld
    unfold run
    rw [List.filter_cons]
    by_cases hown : i.owner = requester
    · have hmay : h.mayUse requester i = true := by simp [Host.mayUse, hown]
      rw [if_pos hown, if_pos hmay, keep, hrest]
    · rw [if_neg hown]
      by_cases hhidden : i.visibility = .owner
      · have hmay : ¬ h.mayUse requester i = true := by simp [Host.mayUse, hown, hhidden]
        rw [if_pos hhidden, if_neg hmay, reporting, hrest]
      · have hopen : i.visibility = .everyone := by
          cases hv : i.visibility with
          | everyone => rfl
          | owner => exact absurd hv hhidden
        have hmay : h.mayUse requester i = i.satisfiedBy (h.capabilities requester) := by
          simp [Host.mayUse, hown, hopen]
        rw [if_neg hhidden, hmay]
        by_cases hfree : i.requiredCapabilities.isEmpty = true
        · rw [if_pos hfree, if_pos (i.satisfiedBy_of_isEmpty hfree _), keep, hrest]
        · -- The capabilities that are compared are those of the requester in either case.
          have hothers := ih (some (h.capabilities requester)) fun granted he =>
            (Option.some.inj he).symm
          rw [if_neg hfree]
          cases held with
          | none =>
            by_cases hcan : i.satisfiedBy (h.capabilities requester) = true
            · simp only [if_pos hcan, keep, reporting, hothers]
            · simp only [if_neg hcan, reporting, hothers]
          | some granted =>
            rw [hheld granted rfl]
            by_cases hcan : i.satisfiedBy (h.capabilities requester) = true
            · simp only [if_pos hcan, keep, reporting, hothers]
            · simp only [if_neg hcan, reporting, hothers]

/-- An intent that may handle a submission: it is registered under the id that is asked for and
accepts the values that are supplied; the requester owns it, or it is open to everyone and the
requester holds what it requires; and its owner is the target, if the requester names one. -/
structure Intent.Eligible (i : Intent) (c : Catalog) (host : Host) (s : Submission) : Prop where
  /-- It is registered. -/
  registered : i ∈ c.intents
  /-- It has the id that is asked for. -/
  intentId : i.intentId = s.intentId
  /-- It accepts the values that are supplied. -/
  accepts : i.accepts s.parameters = true
  /-- The requester may see it. -/
  visible : i.owner = s.requester ∨
    (i.visibility = .everyone ∧ ∀ name, i.requiredCapabilities.contains name = true →
      (host.capabilities s.requester).contains name = true)
  /-- Its owner is the one that the requester names. -/
  target : ∀ application, s.target = some application → application ≠ "" → i.owner = application

namespace Router

variable {r : Router} {s : Submission} {i : Intent} {host : Host} {candidates : List Intent}

/-- Whatever answers a submission is registered for it, under the target if there is one. -/
theorem answering_spec {c : Catalog} (hi : i ∈ answering c s) :
    i ∈ c.intents ∧ i.intentId = s.intentId ∧ i.accepts s.parameters = true ∧
      ∀ application, s.target = some application → application ≠ "" → i.owner = application := by
  unfold answering at hi
  split at hi
  · next application htarget =>
    have hfound : c.find? s.intentId application s.parameters = some i := Option.mem_toList.mp hi
    have hmem := List.mem_of_find?_eq_some hfound
    have hboth := List.find?_some hfound
    simp only [Intent.hasKey, Bool.and_eq_true, decide_eq_true_eq] at hboth
    refine ⟨hmem, hboth.1.1, hboth.2, fun other hother _ => ?_⟩
    have hsame := (Option.filter_eq_some_iff.mp htarget).1
    rw [hboth.1.2, ← Option.some.inj (hsame.symm.trans hother)]
  · next hnone =>
    obtain ⟨hmem, hboth⟩ := List.mem_filter.mp hi
    simp only [Bool.and_eq_true, decide_eq_true_eq] at hboth
    refine ⟨hmem, hboth.1, hboth.2, fun application htarget hne => ?_⟩
    refine absurd ?_ (Option.filter_eq_none_iff.mp hnone application htarget)
    exact decide_eq_true hne

/-- The candidates of a submission are the answers that the requester may use. -/
theorem candidates_eq (h : (r.assess host s).1 = .ok candidates) :
    candidates = (answering r.catalog s).filter (host.mayUse s.requester) := by
  unfold assess at h
  by_cases hrun : ¬ host.isRunning s.requester
  · rw [if_pos hrun] at h
    cases h
  · rw [if_neg hrun] at h
    cases hanswers : answering r.catalog s with
    | nil =>
      rw [hanswers] at h
      cases h
    | cons first rest =>
      have hscreen := Screening.visible_run host s.requester (first :: rest) none
        fun _ he => by cases he
      rw [hanswers] at h
      rw [← hscreen]
      simp only [Host.screen] at h
      cases hvisible : (Screening.run host s.requester none (first :: rest)).visible with
      | nil =>
        rw [hvisible] at h
        cases h
      | cons one others =>
        rw [hvisible] at h
        exact (Except.ok.inj h).symm

/-- Every candidate is eligible. -/
theorem eligible_of_mem (h : (r.assess host s).1 = .ok candidates) (hi : i ∈ candidates) :
    i.Eligible r.catalog host s := by
  rw [candidates_eq h] at hi
  obtain ⟨hanswers, hmay⟩ := List.mem_filter.mp hi
  obtain ⟨hregistered, hid, haccepts, htarget⟩ := answering_spec hanswers
  refine ⟨hregistered, hid, haccepts, ?_, htarget⟩
  simp only [Host.mayUse, Bool.or_eq_true, Bool.and_eq_true, decide_eq_true_eq] at hmay
  exact hmay.imp_right fun hopen =>
    ⟨hopen.1, fun _ hname => NameSet.contains_of_subset hopen.2 hname⟩

end Router

/-- An output leads to nothing but the given intents: a listener is offered no others, and the
application that is started or that is sent the request owns one of them. -/
def Output.Within (allowed : Intent → Prop) : Output → Prop
  | .asked _ offer => ∀ i ∈ offer.candidates, allowed i
  | .started application => ∃ i, allowed i ∧ i.owner = application
  | .sent _ q => ∃ i, allowed i ∧ q.handler = some i.owner
  | .returned .. | .dropped _ => True

/-- An output of the state that a request reaches leads to its candidates only. -/
theorem Output.Marks.within {around : Surroundings} {q : Request} {o : Output}
    (h : o.Marks around q) (hq : q.Sound) : o.Within fun i => i ∈ q.candidates := by
  cases o with
  | asked listener offer =>
    obtain ⟨-, -, hoffer⟩ := h
    rw [hoffer]
    exact fun i hi => hi
  | started application =>
    obtain ⟨-, hhandler, -⟩ := h
    exact hq.owner application hhandler
  | sent channel request =>
    obtain ⟨-, hsame, handler, hhandler, -⟩ := h
    obtain ⟨i, hi, howner⟩ := hq.owner handler hhandler
    exact ⟨i, hi, by rw [hsame, hhandler, howner]⟩
  | returned channel request => trivial
  | dropped requester => trivial

/-- What leads to some intents leads to no others than more of them. -/
theorem Output.Within.mono {allowed allowed' : Intent → Prop} {o : Output} (h : o.Within allowed)
    (himp : ∀ i, allowed i → allowed' i) : o.Within allowed' := by
  cases o with
  | asked listener offer => exact fun i hi => himp i (h i hi)
  | started application => exact h.imp fun i hi => ⟨himp i hi.1, hi.2⟩
  | sent channel request => exact h.imp fun i hi => ⟨himp i hi.1, hi.2⟩
  | returned channel request => trivial
  | dropped requester => trivial

namespace Run

variable {run : Run} {k n : Nat} {q₀ : Request}

/-- The submission by which a request is admitted. All its candidates are eligible for it. -/
theorem submission_of_admitted (h : run.admitted? k = some q₀) :
    ∃ m id now s, run.moves[k]? = some m ∧ m.ask = .router (.submit id now s) ∧
      q₀.requester = s.requester ∧ q₀.intentId = s.intentId ∧ q₀.parameters = s.parameters ∧
        ∀ i ∈ q₀.candidates, i.Eligible (run.router k).catalog m.around.host s := by
  cases hm : run.moves[k]? with
  | none =>
    rw [admitted?, admission?, hm] at h
    cases h
  | some m =>
    rw [admitted?_eq hm] at h
    obtain ⟨around, ask⟩ := m
    unfold Move.admitted? at h
    split at h
    · next id now s hask =>
      obtain rfl : ask = .router (.submit id now s) := hask
      rcases (run.router k).submit_cases around id now s with
        ⟨candidates, lanes, hassess, hvalue, -⟩ | ⟨reason, hvalue, -⟩
      · rw [hvalue] at h
        obtain rfl := Option.some.inj h
        exact ⟨_, id, now, s, rfl, rfl, rfl, rfl, rfl, fun i hi => eligible_of_mem hassess hi⟩
      · rw [hvalue] at h
        cases h
    · cases h

/-- A request leads only to intents that were eligible for its submission when it was admitted:
they are what a listener is offered, and they are owned by the application that is started for the
request, by the one that it is sent to and by any handler that it ever has. This is so in every
run: whatever listeners choose, and whatever becomes of the catalog and of capabilities. -/
theorem access_respected (run : Run) {k : Nat} {q₀ : Request} (h : run.admitted? k = some q₀) :
    ∃ m id now s, run.moves[k]? = some m ∧ m.ask = .router (.submit id now s) ∧
      (q₀.requester = s.requester ∧ q₀.intentId = s.intentId ∧ q₀.parameters = s.parameters) ∧
      (∀ n, ∀ o ∈ run.outputs q₀.id n,
        o.Within fun i => i.Eligible (run.router k).catalog m.around.host s) ∧
      ∀ n, ∀ q ∈ (run.router n).requests, q.id = q₀.id → ∀ handler, q.handler = some handler →
        ∃ i : Intent, i.Eligible (run.router k).catalog m.around.host s ∧ i.owner = handler := by
  obtain ⟨m, id, now, s, hm, hask, hrequester, hintent, hparameters, heligible⟩ :=
    submission_of_admitted h
  refine ⟨m, id, now, s, hm, hask, ⟨hrequester, hintent, hparameters⟩, ?_, ?_⟩
  · intro n o ho
    obtain ⟨m', p, q, -, hid, hmem, hadvance⟩ := advance_of_mem ho
    have halike := (becomes_of_admitted h hadvance.known hid).2.alike.trans hadvance.becomes.alike
    refine ((hadvance.marks o hmem).within hadvance.sound).mono fun i hi => ?_
    exact heligible i (halike.candidates ▸ hi)
  · intro n q hq hid handler hhandler
    have halike := (becomes_of_admitted h hq hid).2.alike
    obtain ⟨i, hi, howner⟩ := ((run.coupled n).sound q hq).owner handler hhandler
    exact ⟨i, heligible i (halike.candidates ▸ hi), howner⟩

/-- The application that an errand's request is sent to owns an intent that was registered when
the editor asked. -/
theorem access_errand :
    errand.admitted? 2 = some printing ∧
      ∃ i ∈ (errand.router 2).catalog.intents, i.intentId = "print" ∧ i.owner = "printer" := by
  have hadmitted : errand.admitted? 2 = some printing := rfl
  refine ⟨hadmitted, ?_⟩
  obtain ⟨m, id, now, s, -, -, ⟨-, hintent, -⟩, houtputs, -⟩ := errand.access_respected hadmitted
  have hsent : .sent ⟨"printer", "p"⟩ ((printing.choose "printer").moveTo .awaitingReply) ∈
      errand.outputs printing.id 3 := List.mem_cons_self
  obtain ⟨i, heligible, howner⟩ := houtputs 3 _ hsent
  have hasked : "print" = s.intentId := hintent
  exact ⟨i, heligible.registered, heligible.intentId.trans hasked.symm,
    (Option.some.inj howner).symm⟩

end Run

end IntentRouter
