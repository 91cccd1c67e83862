import IntentRouter.Proofs.Access

/-!
# One look at the capabilities is enough

Screening looks at the capabilities of a requester when it comes to the first intent that asks for
them: one that belongs to somebody else, is open to everyone and requires something. What has been
looked up is kept for the others. So screening passes what the plain rule passes, with at most one
look, and without any where no intent asks for one. All that it reports can be told from the rule
and from the place of the first intent that asks.
-/

namespace IntentRouter

/-- Whether it takes the capabilities of a requester to tell if it may see the intent: the intent
belongs to somebody else, is open to everyone and requires something. -/
def Intent.asks (requester : String) (i : Intent) : Bool :=
  i.owner ≠ requester && i.visibility = .everyone && ! i.requiredCapabilities.isEmpty

/-- What is reported about an intent that is passed over, with the reason why. -/
def Host.passedOver (h : Host) (requester : String) (i : Intent) : List Entry :=
  if h.mayUse requester i then []
  else if i.visibility = .owner then [.hiddenIntent i.name]
  else [.guardedIntent i.name]

namespace Screening

variable {h : Host} {requester : String} {i : Intent} {intents : List Intent}

/-- One more intent in front, which is passed over if the requester may not use it. -/
def precede (h : Host) (requester : String) (i : Intent) (s : Screening) : Screening :=
  ⟨if h.mayUse requester i then i :: s.visible else s.visible,
    h.passedOver requester i ++ s.report, s.lookUps⟩

/-- One look at the capabilities before. -/
def looking (h : Host) (s : Screening) : Screening :=
  ⟨s.visible, h.lookReport ++ s.report, s.lookUps + 1⟩

/-- An intent that does not ask for the capabilities is decided without them. -/
theorem run_cons_of_not_asks (h : Host) (hasks : i.asks requester = false)
    (held : Option NameSet) (intents : List Intent) :
    run h requester held (i :: intents) =
      precede h requester i (run h requester held intents) := by
  conv_lhs => unfold run
  by_cases hown : i.owner = requester
  · have hmay : h.mayUse requester i = true := by simp [Host.mayUse, hown]
    simp only [if_pos hown, precede, Host.passedOver, if_pos hmay, List.nil_append]
    rfl
  · rw [if_neg hown]
    by_cases hhidden : i.visibility = .owner
    · have hmay : ¬ h.mayUse requester i = true := by simp [Host.mayUse, hown, hhidden]
      simp only [if_pos hhidden, precede, Host.passedOver, if_neg hmay]
      rfl
    · -- Open to everyone and not asking, the intent requires nothing.
      have hopen : i.visibility = .everyone := by
        cases hv : i.visibility with
        | everyone => rfl
        | owner => exact absurd hv hhidden
      have hfree : i.requiredCapabilities.isEmpty = true := by
        simpa [Intent.asks, hown, hopen] using hasks
      have hmay : h.mayUse requester i = true := by
        simp [Host.mayUse, hopen, i.satisfiedBy_of_isEmpty hfree]
      simp only [if_neg hhidden, if_pos hfree, precede, Host.passedOver, if_pos hmay,
        List.nil_append]
      rfl

/-- An intent that asks for the capabilities is decided by those of the requester, which are looked
up unless that has been done. -/
theorem run_cons_of_asks (hasks : i.asks requester = true) {held : Option NameSet}
    (hheld : ∀ granted, held = some granted → granted = h.capabilities requester) :
    run h requester held (i :: intents) =
      let s := precede h requester i (run h requester (some (h.capabilities requester)) intents)
      if held = none then looking h s else s := by
  simp only [Intent.asks, Bool.and_eq_true, decide_eq_true_eq, Bool.not_eq_true'] at hasks
  obtain ⟨⟨hown, hopen⟩, hguarded⟩ := hasks
  have hshown : ¬ i.visibility = .owner := by
    rw [hopen]
    decide
  have hmay : h.mayUse requester i = i.satisfiedBy (h.capabilities requester) := by
    simp [Host.mayUse, hown, hopen]
  conv_lhs => unfold run
  rw [if_neg hown, if_neg hshown, if_neg (Bool.eq_false_iff.mp hguarded)]
  cases held with
  | none =>
    by_cases hcan : i.satisfiedBy (h.capabilities requester) = true
    · simp only [if_pos hcan, precede, looking, Host.passedOver, hmay, keep, reporting,
        List.nil_append, if_true, Nat.add_comm 1]
    · simp only [if_neg hcan, precede, looking, Host.passedOver, hmay, if_neg hshown, reporting,
        if_true, Nat.add_comm 1, List.append_assoc]
  | some granted =>
    rw [hheld granted rfl]
    by_cases hcan : i.satisfiedBy (h.capabilities requester) = true
    · simp only [if_pos hcan, precede, Host.passedOver, hmay, keep, reporting, List.nil_append,
        reduceCtorEq, if_false, Nat.zero_add]
    · simp only [if_neg hcan, precede, Host.passedOver, hmay, if_neg hshown, reporting,
        List.nil_append, reduceCtorEq, if_false, Nat.zero_add]

/-- Once the capabilities have been looked up, screening makes its reports without another look. -/
theorem run_of_held (h : Host) (requester : String) (intents : List Intent) :
    run h requester (some (h.capabilities requester)) intents =
      ⟨intents.filter (h.mayUse requester), intents.flatMap (h.passedOver requester), 0⟩ := by
  induction intents with
  | nil => rfl
  | cons i rest ih =>
    have hstep : run h requester (some (h.capabilities requester)) (i :: rest) =
        precede h requester i (run h requester (some (h.capabilities requester)) rest) := by
      by_cases hasks : i.asks requester = true
      · exact run_cons_of_asks hasks fun granted he => (Option.some.inj he).symm
      · exact run_cons_of_not_asks h (Bool.eq_false_iff.mpr hasks) _ rest
    rw [hstep, ih, precede, List.filter_cons, List.flatMap_cons]

/-- As long as no intent asks for the capabilities, screening goes on without them. -/
theorem run_of_front (h : Host) {front : List Intent}
    (hfront : ∀ i ∈ front, i.asks requester = false) (back : List Intent) :
    run h requester none (front ++ back) =
      front.foldr (precede h requester) (run h requester none back) := by
  induction front with
  | nil => rfl
  | cons i rest ih =>
    obtain ⟨hi, hrest⟩ := List.forall_mem_cons.mp hfront
    rw [List.cons_append, run_cons_of_not_asks h hi, ih hrest, List.foldr_cons]

/-- What intents in front add to a screening. -/
theorem foldr_precede (h : Host) (requester : String) (front : List Intent) (s : Screening) :
    front.foldr (precede h requester) s =
      ⟨front.filter (h.mayUse requester) ++ s.visible,
        front.flatMap (h.passedOver requester) ++ s.report, s.lookUps⟩ := by
  induction front with
  | nil => rfl
  | cons i rest ih =>
    rw [List.foldr_cons, ih, precede, List.filter_cons, List.flatMap_cons, List.append_assoc]
    split <;> rfl

end Screening

namespace Host

variable {requester : String} {intents : List Intent}

/-- Where no intent asks for the capabilities, they are not looked up. -/
theorem screen_of_none_asks (h : Host) (hnone : ∀ i ∈ intents, i.asks requester = false) :
    h.screen requester intents =
      ⟨intents.filter (h.mayUse requester), intents.flatMap (h.passedOver requester), 0⟩ := by
  have hrun := Screening.run_of_front h hnone []
  rw [List.append_nil, Screening.foldr_precede] at hrun
  rw [screen, hrun]
  simp only [Screening.run, List.append_nil]

/-- The capabilities are looked up when the first intent asks for them. -/
theorem screen_of_asks (h : Host) {front back : List Intent} {i : Intent}
    (hfront : ∀ j ∈ front, j.asks requester = false) (hi : i.asks requester = true) :
    h.screen requester (front ++ i :: back) =
      ⟨(front ++ i :: back).filter (h.mayUse requester),
        front.flatMap (h.passedOver requester) ++ h.lookReport ++
          (i :: back).flatMap (h.passedOver requester), 1⟩ := by
  have hheld : ∀ granted : NameSet, none = some granted → granted = h.capabilities requester :=
    nofun
  rw [screen, Screening.run_of_front h hfront, Screening.run_cons_of_asks hi hheld,
    Screening.run_of_held, Screening.foldr_precede, List.filter_append, List.filter_cons,
    List.flatMap_cons, List.append_assoc]
  simp only [if_true, Screening.looking, Screening.precede]

/-- Whether a requester may use an intent that does not ask for its capabilities is the same for
every host. -/
theorem mayUse_of_not_asks (h other : Host) {i : Intent} (hasks : i.asks requester = false) :
    other.mayUse requester i = h.mayUse requester i := by
  simp only [Intent.asks, Bool.and_eq_false_iff, decide_eq_false_iff_not, not_not,
    Bool.not_eq_false'] at hasks
  rcases hasks with (hown | hhidden) | hfree
  · simp only [mayUse, hown, decide_true, Bool.true_or]
  · simp only [mayUse, hhidden, decide_false, Bool.false_and]
  · simp only [mayUse, i.satisfiedBy_of_isEmpty hfree]

/-- Where no intent asks for the capabilities, screening does the same for every host. -/
theorem screen_eq_of_none_asks (h other : Host) (hnone : ∀ i ∈ intents, i.asks requester = false) :
    other.screen requester intents = h.screen requester intents := by
  have hmay : ∀ i ∈ intents, other.mayUse requester i = h.mayUse requester i :=
    fun i hi => mayUse_of_not_asks h other (hnone i hi)
  have hpassed : ∀ i ∈ intents, other.passedOver requester i = h.passedOver requester i := by
    intro i hi
    rw [passedOver, passedOver, hmay i hi]
  rw [other.screen_of_none_asks hnone, h.screen_of_none_asks hnone, List.filter_congr hmay,
    List.flatMap_congr hpassed]

/-- No intent asks for the capabilities, or there is a first one that does. -/
theorem none_asks_or_first (requester : String) (intents : List Intent) :
    (∀ i ∈ intents, i.asks requester = false) ∨
      ∃ front i back, intents = front ++ i :: back ∧
        (∀ j ∈ front, j.asks requester = false) ∧ i.asks requester = true := by
  induction intents with
  | nil => exact .inl (List.forall_mem_nil _)
  | cons first rest ih =>
    by_cases hfirst : first.asks requester = true
    · exact .inr ⟨[], first, rest, rfl, List.forall_mem_nil _, hfirst⟩
    · have hnot := Bool.eq_false_iff.mpr hfirst
      refine ih.imp (fun hall => List.forall_mem_cons.mpr ⟨hnot, hall⟩) ?_
      rintro ⟨front, i, back, rfl, hfront, hi⟩
      exact ⟨first :: front, i, back, rfl, List.forall_mem_cons.mpr ⟨hnot, hfront⟩, hi⟩

/-- What is reported about intents that are passed over says nothing about the capabilities. -/
theorem recovered_notMem_passedOver (h : Host) (requester : String) (intents : List Intent) :
    .capabilitiesRecovered ∉ intents.flatMap (h.passedOver requester) := by
  rw [List.mem_flatMap]
  rintro ⟨i, -, hmem⟩
  unfold passedOver at hmem
  split at hmem
  · cases hmem
  · split at hmem <;> cases List.mem_singleton.mp hmem

end Host

/-- An intent asks for the capabilities of a requester when it belongs to somebody else, is open to
everyone and requires something. -/
theorem Intent.asks_iff {requester : String} {i : Intent} :
    i.asks requester = true ↔ i.owner ≠ requester ∧ i.visibility = .everyone ∧
      ∃ name, i.requiredCapabilities.contains name = true := by
  have hsome : i.requiredCapabilities.isEmpty = false ↔
      ∃ name, i.requiredCapabilities.contains name = true := by
    simp only [NameSet.isEmpty, NameSet.contains, List.contains_iff_mem]
    exact List.isEmpty_eq_false_iff_exists_mem
  simp only [asks, Bool.and_eq_true, decide_eq_true_eq, Bool.not_eq_true', hsome, and_assoc]

/-- What a requester may use: its own intents, and those open to everyone of which it holds all
that they require. -/
theorem Host.mayUse_iff {h : Host} {requester : String} {i : Intent} :
    h.mayUse requester i = true ↔ i.owner = requester ∨
      (i.visibility = .everyone ∧ ∀ name, i.requiredCapabilities.contains name = true →
        (h.capabilities requester).contains name = true) := by
  simp only [mayUse, Intent.satisfiedBy, NameSet.subset, NameSet.contains, Bool.or_eq_true,
    Bool.and_eq_true, decide_eq_true_eq, List.all_eq_true, List.contains_iff_mem]

/-- Screening passes exactly the intents that the requester owns and those that are open to
everyone and require nothing that it does not hold, in their order. It looks at the capabilities at
most once, and does so if and only if some intent of another owner is open to everyone and requires
something; otherwise it is the same whatever the host knows. It reports the look if the capabilities
are in doubt, and else only the intents that it passes over. -/
theorem Host.screens_lazily (h : Host) (requester : String) (intents : List Intent) :
    let s := h.screen requester intents
    let guarded := ∃ i ∈ intents, i.owner ≠ requester ∧ i.visibility = .everyone ∧
      ∃ name, i.requiredCapabilities.contains name = true
    (∃ passes : Intent → Bool, s.visible = intents.filter passes ∧
      ∀ i, passes i = true ↔ i.owner = requester ∨
        (i.visibility = .everyone ∧ ∀ name, i.requiredCapabilities.contains name = true →
          (h.capabilities requester).contains name = true)) ∧
      s.lookUps ≤ 1 ∧ (s.lookUps = 1 ↔ guarded) ∧
      (¬ guarded → ∀ other : Host, other.screen requester intents = s) ∧
      s.report.count .capabilitiesRecovered = (if h.doubtful then s.lookUps else 0) ∧
      s.report.filter (· ≠ .capabilitiesRecovered) = intents.flatMap (h.passedOver requester) := by
  intro s guarded
  have hguarded : guarded ↔ ∃ i ∈ intents, i.asks requester = true := by
    simp only [guarded, Intent.asks_iff]
  have hquiet := fun is => List.count_eq_zero.mpr (h.recovered_notMem_passedOver requester is)
  have hkept : ∀ is : List Intent,
      (is.flatMap (h.passedOver requester)).filter (· ≠ .capabilitiesRecovered) =
        is.flatMap (h.passedOver requester) := by
    refine fun is => List.filter_eq_self.mpr fun e he => decide_eq_true ?_
    rintro rfl
    exact h.recovered_notMem_passedOver requester is he
  rw [hguarded]
  rcases none_asks_or_first requester intents with hnone | ⟨front, i, back, rfl, hfront, hi⟩
  · have hs : s = _ := h.screen_of_none_asks hnone
    have hnobody : ¬ ∃ i ∈ intents, i.asks requester = true := by
      rintro ⟨i, hi, hasks⟩
      rw [hnone i hi] at hasks
      cases hasks
    have hother : ∀ other : Host, other.screen requester intents = s :=
      fun other => screen_eq_of_none_asks h other hnone
    rw [hs] at hother ⊢
    refine ⟨⟨_, rfl, fun i => mayUse_iff⟩, Nat.zero_le 1, iff_of_false Nat.zero_ne_one hnobody,
      fun _ => hother, ?_, hkept intents⟩
    rw [hquiet, ite_self]
  · have hs : s = _ := h.screen_of_asks hfront hi
    have hsomebody : ∃ j ∈ front ++ i :: back, j.asks requester = true :=
      ⟨i, List.mem_append_right _ List.mem_cons_self, hi⟩
    rw [hs]
    refine ⟨⟨_, rfl, fun i => mayUse_iff⟩, Nat.le_refl 1, iff_of_true rfl hsomebody,
      fun hnobody => absurd hsomebody hnobody, ?_, ?_⟩
    · simp only [List.count_append, hquiet, lookReport]
      split <;> rfl
    · rw [List.filter_append, List.filter_append, hkept, hkept, List.flatMap_append, lookReport]
      split <;> simp

/-- An intent of the editor itself that requires something, one of the archive that nobody else
sees, and one of the printer that everyone may request. -/
def openIntents : List Intent :=
  [{ Intent.plain "edit" "editor" with requiredCapabilities := .ofList ["files"] },
    { Intent.plain "purge" "archive" with
      requiredCapabilities := .ofList ["files"], visibility := .owner },
    .plain "print" "printer"]

/-- An intent that requires a capability, and the others among which it stands. -/
def mixedIntents : List Intent :=
  { Intent.plain "scan" "printer" with requiredCapabilities := .ofList ["camera"] } ::
    (openIntents ++
      [{ Intent.plain "store" "archive" with requiredCapabilities := .ofList ["files"] }])

/-- The editor sees the same of the first intents whatever the host knows. With two that require
something, a host that is in doubt is asked once and reports it once, and the editor sees all but
the one that nobody else sees and the one that requires what it does not hold. -/
theorem Host.screens_lazily_mixed :
    let h := Host.fresh.grantBroken "editor" ["files"]
    let s := h.screen "editor" mixedIntents
    (∀ other : Host, other.screen "editor" openIntents = h.screen "editor" openIntents) ∧
      s.lookUps = 1 ∧ s.report.count .capabilitiesRecovered = 1 ∧
      s.visible.map Intent.name = ["edit/editor", "print/printer", "store/archive"] := by
  intro h s
  have hopen : ¬ ∃ i ∈ openIntents, i.owner ≠ "editor" ∧ i.visibility = .everyone ∧
      ∃ name, i.requiredCapabilities.contains name = true := by
    rintro ⟨i, hi, hother, hopen, name, hname⟩
    simp only [openIntents, List.mem_cons, List.not_mem_nil, or_false] at hi
    rcases hi with rfl | rfl | rfl
    · exact hother rfl
    · cases hopen
    · cases hname
  obtain ⟨⟨passes, hvisible, hpasses⟩, -, hlooks, -, hreports, -⟩ :=
    h.screens_lazily "editor" mixedIntents
  have hguarded : s.lookUps = 1 := hlooks.mpr ⟨_, .head _, by decide, rfl, "camera", by decide⟩
  refine ⟨(h.screens_lazily "editor" openIntents).2.2.2.1 hopen, hguarded, ?_, ?_⟩
  · exact hreports.trans ((if_pos rfl).trans hguarded)
  · have hmay : passes = h.mayUse "editor" :=
      funext fun i => Bool.eq_iff_iff.mpr ((hpasses i).trans mayUse_iff.symm)
    rw [hvisible, hmay]
    rfl

end IntentRouter
