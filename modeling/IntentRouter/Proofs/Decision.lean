import IntentRouter.Proofs.Access
import IntentRouter.Proofs.Keys

/-!
# How a submission is decided

What is registered for a submission and what its requester may use of that decide how it is
answered. The search for a target and the selection without one agree, since no two intents are
registered under one key. An admission adds the request to the router and to the main lane; a
refusal is counted and does nothing else.

What a requester may not use has no influence on the decision, but for the reason of a refusal:
two catalogs that show a requester the same give it the same candidates.
-/

namespace IntentRouter

namespace Router

/-- The submission asks for the intent: for its id, for its owner if a target is named, and with
values that the intent accepts. -/
def Submission.asksFor (s : Submission) (i : Intent) : Bool :=
  i.intentId = s.intentId && s.target.all (fun target => target = "" || i.owner = target) &&
    i.accepts s.parameters

/-- The same submission without a target. -/
def Submission.untargeted (s : Submission) : Submission := { s with target := none }

/-- The registered intents that a submission asks for, in the order of their registration. -/
def matching (r : Router) (s : Submission) : List Intent := r.catalog.intents.filter s.asksFor

/-- Those of them that the requester may use. -/
def candidates (r : Router) (host : Host) (s : Submission) : List Intent :=
  (r.matching s).filter (host.mayUse s.requester)

/-- A submission is admitted as the request `q`: the request is the last one in flight and in the
main lane, it is counted, and after some reports a step is asked for. -/
structure Admits (r : Router) (around : Surroundings) (t : Turn Router (Except Refusal Request))
    (q : Request) : Prop where
  /-- The request is the answer. -/
  value : t.value = .ok q
  /-- Nothing changes but the requests, the main lane and the counter. -/
  state : t.state =
    { r with
      requests := r.requests ++ [q]
      lanes := { r.lanes with main := r.lanes.main ++ [q.id] }
      counters := { r.counters with submitted := r.counters.submitted + 1 } }
  /-- Nothing happens but reports and the request for a step. -/
  effects : ∃ entries : List Entry, t.effects = entries.map .note ++ [wake around]

/-- A submission is refused: nothing changes but the counter of refusals, and nothing happens but
reports. -/
structure Refuses (r : Router) (t : Turn Router (Except Refusal Request)) (reason : Refusal) :
    Prop where
  /-- The reason is the answer. -/
  value : t.value = .error reason
  /-- Nothing changes but the counter. -/
  state : t.state = { r with counters := { r.counters with rejected := r.counters.rejected + 1 } }
  /-- Nothing happens but reports. -/
  effects : ∃ entries : List Entry, t.effects = entries.map .note

variable {r : Router} {host : Host} {s : Submission} {id : RequestId}

/-- Without a target only the id and the values matter. -/
theorem Submission.asksFor_untargeted (s : Submission) (i : Intent) :
    s.untargeted.asksFor i = (decide (i.intentId = s.intentId) && i.accepts s.parameters) := by
  rw [asksFor, untargeted, Option.all_none, Bool.and_true]

/-- A target is one owner to ask for. -/
theorem Submission.asksFor_of_target {target : String}
    (h : s.target.filter (fun target => target ≠ "") = some target) (i : Intent) :
    s.asksFor i = (decide (i.owner = target) && s.untargeted.asksFor i) := by
  obtain ⟨hs, hne⟩ := Option.filter_eq_some_iff.mp h
  have hempty : decide (target = "") = false := decide_eq_false (of_decide_eq_true hne)
  rw [asksFor_untargeted, asksFor, hs, Option.all_some, hempty, Bool.false_or, Bool.and_assoc,
    Bool.and_left_comm]

/-- An empty target is no target. -/
theorem Submission.asksFor_of_no_target
    (h : s.target.filter (fun target => target ≠ "") = none) (i : Intent) :
    s.asksFor i = s.untargeted.asksFor i := by
  have hall : s.target.all (fun target => target = "" || i.owner = target) = true := by
    rw [Option.all_eq_true]
    intro target hs
    have hempty := Option.filter_eq_none_iff.mp h target hs
    rw [decide_eq_true_eq, not_not] at hempty
    rw [hempty]
    rfl
  rw [asksFor_untargeted, asksFor, hall, Bool.and_true]

/-- Whatever answers a submission is what it asks for. -/
theorem answering_eq_matching (keyed : r.catalog.Keyed) (s : Submission) :
    answering r.catalog s = r.matching s := by
  unfold answering
  cases htarget : s.target.filter fun target => target ≠ "" with
  | none =>
    refine List.filter_congr fun i _ => ?_
    rw [s.asksFor_of_no_target htarget, s.asksFor_untargeted]
  | some target =>
    simp only
    rw [keyed.toList_find?]
    refine List.filter_congr fun i _ => ?_
    rw [s.asksFor_of_target htarget, s.asksFor_untargeted, Intent.hasKey, Bool.and_comm
      (decide (i.intentId = s.intentId)), Bool.and_assoc]

/-- The decision on a submission in terms of what it asks for and of what the requester may use. -/
theorem assess_eq (keyed : r.catalog.Keyed) (host : Host) (s : Submission) :
    (r.assess host s).1 =
      if host.isRunning s.requester = false then
        .error (.unknownRequester s.intentId s.requester)
      else if r.matching s = [] then .error (.unknownIntent s.intentId s.requester)
      else if r.candidates host s = [] then .error (.inaccessibleIntent s.intentId s.requester)
      else .ok (r.candidates host s) := by
  unfold assess candidates
  by_cases hrun : host.isRunning s.requester = true
  · rw [if_neg (not_not_intro hrun), if_neg (Bool.eq_false_iff.not_left.mpr hrun),
      answering_eq_matching keyed]
    have hscreen := Screening.visible_run host s.requester (r.matching s) none
      fun _ he => by cases he
    rw [← hscreen]
    cases r.matching s with
    | nil => rfl
    | cons first rest =>
      simp only [Host.screen, List.cons_ne_nil, if_false]
      cases (Screening.run host s.requester none (first :: rest)).visible <;> rfl
  · rw [if_pos hrun, if_pos (Bool.eq_false_iff.mpr hrun)]

/-- The answer to a submission is its request, or the reason of the decision. -/
theorem value_submit (r : Router) (around : Surroundings) (id : RequestId) (now : Timestamp)
    (s : Submission) :
    (r.submit around id now s).value = (r.assess around.host s).1.map fun chosen =>
      .admitted id now s.requester s.intentId chosen s.parameters := by
  cases hassess : (r.assess around.host s).1 <;>
  · simp only [submit, hassess]
    rfl

/-- A submission with candidates is admitted under a fresh name. -/
theorem submit_admits (around : Surroundings) (now : Timestamp)
    (absent : ∀ lane, id ∉ r.lanes.get lane) {chosen : List Intent}
    (h : (r.assess around.host s).1 = .ok chosen) :
    r.Admits around (r.submit around id now s)
      (.admitted id now s.requester s.intentId chosen s.parameters) := by
  have hjoin := Lanes.join?_eq_some absent .main
  simp only [submit, h, joinMain, hjoin, Turn.after, Turn.map]
  refine ⟨rfl, rfl, ?_⟩
  split
  · next q _ =>
    exact ⟨.incoming s.intentId s.requester (s.target.getD "") ::
      ((r.assess around.host s).2 ++ [.request id (.joining q.state)]), by simp [Effect.about]⟩
  · exact ⟨.incoming s.intentId s.requester (s.target.getD "") :: (r.assess around.host s).2,
      by simp⟩

/-- Any other submission is refused. -/
theorem submit_refuses (around : Surroundings) (id : RequestId) (now : Timestamp)
    {reason : Refusal} (h : (r.assess around.host s).1 = .error reason) :
    r.Refuses (r.submit around id now s) reason := by
  simp only [submit, h]
  refine ⟨rfl, rfl, ?_⟩
  exact ⟨.incoming s.intentId s.requester (s.target.getD "") ::
    ((r.assess around.host s).2 ++ [.rejected reason]), by simp⟩

/-- An answer with a request is an admission. -/
theorem admits_of_value (around : Surroundings) (now : Timestamp)
    (absent : ∀ lane, id ∉ r.lanes.get lane) {q : Request}
    (h : (r.submit around id now s).value = .ok q) :
    r.Admits around (r.submit around id now s) q := by
  cases hassess : (r.assess around.host s).1 with
  | error reason =>
    rw [value_submit, hassess] at h
    cases h
  | ok chosen =>
    have hadmits := submit_admits around now absent hassess
    rwa [Except.ok.inj (hadmits.value.symm.trans h)] at hadmits

/-- An answer with a reason is a refusal. -/
theorem refuses_of_value (around : Surroundings) (id : RequestId) (now : Timestamp)
    {reason : Refusal} (h : (r.submit around id now s).value = .error reason) :
    r.Refuses (r.submit around id now s) reason := by
  cases hassess : (r.assess around.host s).1 with
  | error other =>
    have hrefuses := submit_refuses around id now hassess
    rwa [Except.error.inj (hrefuses.value.symm.trans h)] at hrefuses
  | ok chosen =>
    rw [value_submit, hassess] at h
    cases h

/-- A target selects its own intents among the candidates. -/
theorem candidates_of_target (r : Router) (host : Host) {target : String}
    (hs : s.target = some target) (hne : target ≠ "") :
    r.candidates host s =
      (r.candidates host s.untargeted).filter fun i => i.owner = target := by
  have htarget : s.target.filter (fun target => target ≠ "") = some target :=
    Option.filter_eq_some_iff.mpr ⟨hs, decide_eq_true hne⟩
  have hmatching : r.matching s =
      (r.matching s.untargeted).filter fun i => i.owner = target := by
    rw [matching, matching, List.filter_filter]
    exact List.filter_congr fun i _ => s.asksFor_of_target htarget i
  rw [candidates, hmatching]
  exact List.filter_comm ..

/-- With an empty target a submission asks for what it asks for without one. -/
theorem matching_of_empty (r : Router) (hs : s.target = some "") :
    r.matching s = r.matching s.untargeted := by
  refine List.filter_congr fun i _ => s.asksFor_of_no_target ?_ i
  rw [hs]
  rfl

/-- The candidates are found among what the requester may use. -/
theorem candidates_eq_filter (r : Router) (host : Host) (s : Submission) :
    r.candidates host s =
      (r.catalog.intents.filter (host.mayUse s.requester)).filter s.asksFor :=
  List.filter_comm ..

/-- A requester that does not run is refused. -/
theorem assess_of_not_running (keyed : r.catalog.Keyed)
    (hrun : host.isRunning s.requester = false) :
    (r.assess host s).1 = .error (.unknownRequester s.intentId s.requester) := by
  rw [assess_eq keyed, if_pos hrun]

/-- A requester that runs gets the candidates, if there are any. -/
theorem assess_of_candidates (keyed : r.catalog.Keyed) (hrun : host.isRunning s.requester = true)
    (hsome : r.candidates host s ≠ []) : (r.assess host s).1 = .ok (r.candidates host s) := by
  have hmatching : r.matching s ≠ [] := by
    intro hnil
    rw [candidates, hnil] at hsome
    exact hsome rfl
  rw [assess_eq keyed, if_neg (Bool.eq_false_iff.not_left.mpr hrun), if_neg hmatching,
    if_neg hsome]

/-- Without candidates a requester is told that there are none, or that there are none for it. -/
theorem assess_of_no_candidates (keyed : r.catalog.Keyed)
    (hrun : host.isRunning s.requester = true) (hnone : r.candidates host s = []) :
    (r.assess host s).1 = .error (.unknownIntent s.intentId s.requester) ∨
      (r.assess host s).1 = .error (.inaccessibleIntent s.intentId s.requester) := by
  rw [assess_eq keyed, if_neg (Bool.eq_false_iff.not_left.mpr hrun)]
  by_cases hmatching : r.matching s = []
  · exact .inl (if_pos hmatching)
  · exact .inr (by rw [if_neg hmatching, if_pos hnone])

/-- Two reasons to refuse a submission that are the same, except that one may be that there is no
such intent and the other that it is not accessible. -/
def Submission.SameReason (s : Submission) (reason₁ reason₂ : Refusal) : Prop :=
  reason₁ = reason₂ ∨
    reason₁ = .unknownIntent s.intentId s.requester ∧
      reason₂ = .inaccessibleIntent s.intentId s.requester ∨
    reason₁ = .inaccessibleIntent s.intentId s.requester ∧
      reason₂ = .unknownIntent s.intentId s.requester

/-- Routers with the same candidates for a submission decide it in the same way. -/
theorem assess_of_same_candidates {r₁ r₂ : Router} (keyed₁ : r₁.catalog.Keyed)
    (keyed₂ : r₂.catalog.Keyed) (hsame : r₁.candidates host s = r₂.candidates host s) :
    (∃ chosen, (r₁.assess host s).1 = .ok chosen ∧ (r₂.assess host s).1 = .ok chosen) ∨
      ∃ reason₁ reason₂, (r₁.assess host s).1 = .error reason₁ ∧
        (r₂.assess host s).1 = .error reason₂ ∧ s.SameReason reason₁ reason₂ := by
  cases hrun : host.isRunning s.requester with
  | false =>
    exact .inr ⟨_, _, assess_of_not_running keyed₁ hrun, assess_of_not_running keyed₂ hrun,
      .inl rfl⟩
  | true =>
    by_cases hnone : r₁.candidates host s = []
    · rcases assess_of_no_candidates keyed₁ hrun hnone with h₁ | h₁ <;>
      rcases assess_of_no_candidates keyed₂ hrun (hsame ▸ hnone) with h₂ | h₂
      · exact .inr ⟨_, _, h₁, h₂, .inl rfl⟩
      · exact .inr ⟨_, _, h₁, h₂, .inr (.inl ⟨rfl, rfl⟩)⟩
      · exact .inr ⟨_, _, h₁, h₂, .inr (.inr ⟨rfl, rfl⟩)⟩
      · exact .inr ⟨_, _, h₁, h₂, .inl rfl⟩
    · have h₂ := assess_of_candidates keyed₂ hrun (hsame ▸ hnone)
      rw [← hsame] at h₂
      exact .inl ⟨_, assess_of_candidates keyed₁ hrun hnone, h₂⟩

end Router

namespace Run

open Router

/-- How a submission is decided after any moves. It is refused if the requester does not run;
otherwise if nothing registered is what it asks for; otherwise if the requester may use nothing
of that. Otherwise it is admitted, with all that is left as its candidates, in the order of
registration. An admission adds the request and counts it; a refusal is counted and does nothing
else. Naming a target selects the candidates that the target owns; naming an empty one is naming
none. -/
theorem submission_decided (run : Run) (n : Nat) (around : Surroundings) {id : RequestId}
    (fresh : ∀ q ∈ (run.router n).requests, q.id ≠ id) (now : Timestamp) (s : Submission) :
    let r := run.router n
    let t := r.submit around id now s
    (t.value =
        if around.host.isRunning s.requester = false then
          .error (.unknownRequester s.intentId s.requester)
        else if r.matching s = [] then .error (.unknownIntent s.intentId s.requester)
        else if r.candidates around.host s = [] then
          .error (.inaccessibleIntent s.intentId s.requester)
        else .ok (.admitted id now s.requester s.intentId (r.candidates around.host s)
          s.parameters)) ∧
      (∀ q, t.value = .ok q → r.Admits around t q) ∧
      (∀ reason, t.value = .error reason → r.Refuses t reason) ∧
      (∀ target, s.target = some target → target ≠ "" → r.candidates around.host s =
        (r.candidates around.host s.untargeted).filter fun i => i.owner = target) ∧
      (s.target = some "" → r.matching s = r.matching s.untargeted ∧
        r.candidates around.host s = r.candidates around.host s.untargeted) := by
  intro r t
  have hassess := assess_eq (run.keyed n) around.host s
  refine ⟨?_, ?_, ?_, fun target => r.candidates_of_target around.host, fun hs => ?_⟩
  · simp only [t, r, value_submit, hassess]
    split_ifs <;> rfl
  · exact fun q => admits_of_value around now ((run.coupled n).absent_of_fresh fresh)
  · exact fun reason => refuses_of_value around id now
  · have hsame := r.matching_of_empty hs
    exact ⟨hsame, congrArg (List.filter _) hsame⟩

/-- The editor is admitted with the printer's intent as its only candidate. -/
theorem submission_decided_errand :
    (errand.router 2).Admits office
      ((errand.router 2).submit office (.ofNat 1) .epoch ⟨"editor", "print", some "", .empty⟩)
      printing := by
  have hfresh : ∀ q ∈ (errand.router 2).requests, q.id ≠ .ofNat 1 := fun q hq => by cases hq
  have hdecided := errand.submission_decided 2 office hfresh .epoch
    ⟨"editor", "print", some "", .empty⟩
  exact hdecided.2.1 printing rfl

/-- Intents that a requester may not use have no influence on it. Let two catalogs show it the
same intents in the same order. A router with the one and the same router with the other then
both admit its submission, with the same candidates, or they both refuse it, and for the same
reason, except that one may say that there is no such intent and the other that it is not
accessible. Under one name and at one time they end in the same state, but for the catalog. -/
theorem hidden_without_influence (run run₁ run₂ : Run) (n n₁ n₂ : Nat) (around : Surroundings)
    (s : Submission)
    (visible : (run₁.router n₁).catalog.intents.filter (around.host.mayUse s.requester) =
      (run₂.router n₂).catalog.intents.filter (around.host.mayUse s.requester))
    {id₁ id₂ : RequestId} (fresh₁ : ∀ q ∈ (run.router n).requests, q.id ≠ id₁)
    (fresh₂ : ∀ q ∈ (run.router n).requests, q.id ≠ id₂) (now₁ now₂ : Timestamp) :
    let r₁ := (run.router n).withCatalog (run₁.router n₁).catalog
    let r₂ := (run.router n).withCatalog (run₂.router n₂).catalog
    let t₁ := r₁.submit around id₁ now₁ s
    let t₂ := r₂.submit around id₂ now₂ s
    ((∃ chosen,
        r₁.Admits around t₁ (.admitted id₁ now₁ s.requester s.intentId chosen s.parameters) ∧
          r₂.Admits around t₂ (.admitted id₂ now₂ s.requester s.intentId chosen s.parameters)) ∨
      ∃ reason₁ reason₂, r₁.Refuses t₁ reason₁ ∧ r₂.Refuses t₂ reason₂ ∧
        s.SameReason reason₁ reason₂) ∧
      (id₁ = id₂ → now₁ = now₂ → t₂.state = t₁.state.withCatalog r₂.catalog) := by
  intro r₁ r₂ t₁ t₂
  have hkeyed₁ : r₁.catalog.Keyed := run₁.keyed n₁
  have hkeyed₂ : r₂.catalog.Keyed := run₂.keyed n₂
  have hsame : r₁.candidates around.host s = r₂.candidates around.host s := by
    rw [candidates_eq_filter, candidates_eq_filter]
    exact congrArg (List.filter s.asksFor) visible
  rcases assess_of_same_candidates hkeyed₁ hkeyed₂ hsame with
    ⟨chosen, h₁, h₂⟩ | ⟨reason₁, reason₂, h₁, h₂, hreason⟩
  · have habsent₁ : ∀ lane, id₁ ∉ r₁.lanes.get lane := (run.coupled n).absent_of_fresh fresh₁
    have habsent₂ : ∀ lane, id₂ ∉ r₂.lanes.get lane := (run.coupled n).absent_of_fresh fresh₂
    have hadmits₁ := submit_admits around now₁ habsent₁ h₁
    have hadmits₂ := submit_admits around now₂ habsent₂ h₂
    refine ⟨.inl ⟨chosen, hadmits₁, hadmits₂⟩, fun hid hnow => ?_⟩
    rw [hadmits₁.state, hadmits₂.state, hid, hnow]
    rfl
  · have hrefuses₁ := submit_refuses around id₁ now₁ h₁
    have hrefuses₂ := submit_refuses around id₂ now₂ h₂
    refine ⟨.inr ⟨reason₁, reason₂, hrefuses₁, hrefuses₂, hreason⟩, fun _ _ => ?_⟩
    rw [hrefuses₁.state, hrefuses₂.state]
    rfl

/-- An archive keeps the printing to itself before the printer offers it to everyone. -/
def archiveMoves : List Move :=
  [.catalog (.addApplication "archive"),
    .catalog (.add { Intent.plain "print" "archive" with visibility := .owner }),
    .catalog (.addApplication "printer"),
    .catalog (.add (.plain "print" "printer"))].map (⟨office, ·⟩)

/-- None of these moves admits a request. -/
theorem archive_admission? (i : Nat) :
    (Router.fresh .standard).admission? archiveMoves i = none := by
  match i with
  | 0 | 1 | 2 | 3 => rfl
  | _ + 4 => rfl

/-- A run in which an intent is registered that only its owner may use. -/
def archive : Run where
  settings := .standard
  start := .fresh .standard
  created := create_standard
  moves := archiveMoves
  fresh := by
    intro i _ _ _ h
    cases (archive_admission? i).symm.trans h

/-- The archive's intent is registered first, but the editor is admitted as if it were not. -/
theorem hidden_without_influence_archive :
    (archive.router 4).catalog.intents.length = 2 ∧
      (((errand.router 2).withCatalog (archive.router 4).catalog).submit office (.ofNat 1) .epoch
          ⟨"editor", "print", none, .empty⟩).state =
        (errand.router 3).withCatalog (archive.router 4).catalog := by
  have hfresh : ∀ q ∈ (errand.router 2).requests, q.id ≠ .ofNat 1 := fun q hq => by cases hq
  have hsame := (hidden_without_influence errand errand archive 2 2 4 office
    ⟨"editor", "print", none, .empty⟩ rfl hfresh hfresh .epoch .epoch).2 rfl rfl
  exact ⟨rfl, hsame⟩

end Run

end IntentRouter
