import Mathlib.Data.List.Induction
import IntentRouter.Proofs.Keys

/-!
# What every catalog keeps to

A catalog holds three collections that are changed independently of each other: the known
applications, their background handlers, and the intents. Whatever calls have been made, the
applications are distinct and stand in the order in which they got known, only a known application
has background handlers, each of them once, and the intents have an id each and no key in common.
Forgetting an application forgets its background handlers with it, so none of them come back when
it gets known again. Its intents stay as they are.
-/

namespace IntentRouter

namespace Catalog

variable {c : Catalog}

/-- What one call after another leaves. -/
def after (c : Catalog) (calls : List CatalogCall) : Catalog :=
  calls.foldl (fun c call => (c.perform call).state) c

/-- One call after the others. -/
theorem after_concat (c : Catalog) (calls : List CatalogCall) (call : CatalogCall) :
    c.after (calls ++ [call]) = ((c.after calls).perform call).state := by
  rw [after, List.foldl_concat]
  rfl

theorem isKnown_iff {application : String} :
    c.isKnown application = true ↔ application ∈ c.applications :=
  List.contains_iff_mem

theorem isKnown_eq_false_iff {application : String} :
    c.isKnown application = false ↔ application ∉ c.applications := by
  rw [← isKnown_iff, Bool.not_eq_true]

/-- An application is new that is not known. -/
theorem addApplication_fst (c : Catalog) (application : String) :
    (c.addApplication application).1 = true ↔ application ∉ c.applications := by
  rw [← isKnown_eq_false_iff, addApplication]
  cases c.isKnown application <;> simp

/-! ## Background handlers -/

/-- Other background handlers for one application change nothing for the others. -/
theorem handlersOf_withHandlers (c : Catalog) (application other : String)
    (handlers : List String) :
    (c.withHandlers application handlers).handlersOf other =
      if application = other then handlers else c.handlersOf other := by
  unfold handlersOf withHandlers
  by_cases h : application = other
  · subst h
    have hfound := Ascending.find?_insert_self Prod.fst (application, handlers) c.handlers
    simp only [hfound, Option.map_some, Option.getD_some, if_true]
  · have hother : Prod.fst (application, handlers) ≠ other := h
    simp only [Ascending.find?_insert_of_ne hother, if_neg h]

/-- An application that has been forgotten has no background handlers; the others keep theirs. -/
theorem handlersOf_removeApplication (c : Catalog) (application other : String) :
    (c.removeApplication application).handlersOf other =
      if application = other then [] else c.handlersOf other := by
  unfold handlersOf removeApplication
  by_cases h : application = other
  · subst h
    simp only [Ascending.find?_erase_self, Option.map_none, Option.getD_none, if_true]
  · simp only [Ascending.find?_erase_of_ne h, if_neg h]

theorem mem_removeApplication {application other : String} :
    other ∈ (c.removeApplication application).applications ↔
      other ∈ c.applications ∧ other ≠ application := by
  simp only [removeApplication, List.mem_filter, decide_eq_true_eq]

/-! ## One call -/

/-- What every catalog keeps to. -/
structure Orderly (c : Catalog) : Prop where
  /-- No application is known twice. -/
  distinct : c.applications.Nodup
  /-- No application has a background handler twice. -/
  handlersOnce : ∀ application, (c.handlersOf application).Nodup
  /-- Only a known application has background handlers. -/
  handlersKnown : ∀ application, c.handlersOf application ≠ [] → application ∈ c.applications
  /-- No two intents are registered under one key. -/
  keyed : c.Keyed
  /-- Every registered intent has an id. -/
  named : ∀ i ∈ c.intents, i.intentId ≠ ""

theorem orderly_empty : empty.Orderly where
  distinct := List.nodup_nil
  handlersOnce _ := List.nodup_nil
  handlersKnown _ h := absurd rfl h
  keyed := keyed_empty
  named _ hi := absurd hi List.not_mem_nil

/-- An application that is not known has no background handlers. -/
theorem Orderly.handlersOf_eq_nil (h : c.Orderly) {application : String}
    (hunknown : c.isKnown application = false) : c.handlersOf application = [] := by
  by_contra hsome
  exact isKnown_eq_false_iff.mp hunknown (h.handlersKnown application hsome)

/-- An application that gets known has no background handlers. -/
theorem Orderly.handlersOf_addApplication (h : c.Orderly) {application : String}
    (hnew : (c.addApplication application).1 = true) :
    (c.addApplication application).2.handlersOf application = [] := by
  have hunknown := isKnown_eq_false_iff.mpr ((addApplication_fst c application).mp hnew)
  rw [addApplication, if_neg (by rw [hunknown]; exact Bool.false_ne_true)]
  exact h.handlersOf_eq_nil hunknown

/-- Other background handlers for a known application, each of them once, are in order. -/
theorem Orderly.withHandlers (h : c.Orderly) {application : String} {handlers : List String}
    (hknown : application ∈ c.applications) (honce : handlers.Nodup) :
    (c.withHandlers application handlers).Orderly where
  distinct := h.distinct
  handlersOnce other := by
    rw [handlersOf_withHandlers]
    split
    · exact honce
    · exact h.handlersOnce other
  handlersKnown other hsome := by
    rw [handlersOf_withHandlers] at hsome
    split at hsome
    · next heq => exact heq ▸ hknown
    · exact h.handlersKnown other hsome
  keyed := h.keyed
  named := h.named

theorem Orderly.addApplication (h : c.Orderly) (application : String) :
    (c.addApplication application).2.Orderly := by
  unfold Catalog.addApplication
  by_cases hknown : c.isKnown application = true
  · rw [if_pos hknown]
    exact h
  · rw [if_neg hknown]
    have hnew : application ∉ c.applications := fun hmem => hknown (isKnown_iff.mpr hmem)
    have hdistinct := h.distinct.append (List.nodup_singleton application)
      (List.disjoint_singleton.mpr hnew)
    exact {
      distinct := hdistinct
      handlersOnce := h.handlersOnce
      handlersKnown := fun other hsome => List.mem_append_left _ (h.handlersKnown other hsome)
      keyed := h.keyed
      named := h.named }

theorem Orderly.removeApplication (h : c.Orderly) (application : String) :
    (c.removeApplication application).Orderly where
  distinct := h.distinct.filter _
  handlersOnce other := by
    rw [handlersOf_removeApplication]
    split
    · exact List.nodup_nil
    · exact h.handlersOnce other
  handlersKnown other hsome := by
    rw [handlersOf_removeApplication] at hsome
    split at hsome
    · exact absurd rfl hsome
    · next hne => exact mem_removeApplication.mpr ⟨h.handlersKnown other hsome, Ne.symm hne⟩
  keyed := h.keyed
  named := h.named

theorem Orderly.addHandler (h : c.Orderly) (application handler : String) :
    (c.addHandler application handler).2.Orderly := by
  unfold Catalog.addHandler
  by_cases hrefused : ¬ c.isKnown application ∨ (c.handlersOf application).contains handler
  · rw [if_pos hrefused]
    exact h
  · rw [if_neg hrefused]
    obtain ⟨hknown, hnew⟩ := not_or.mp hrefused
    have hdisjoint : (c.handlersOf application).Disjoint [handler] :=
      List.disjoint_singleton.mpr fun hmem => hnew (List.contains_iff_mem.mpr hmem)
    exact h.withHandlers (isKnown_iff.mp (not_not.mp hknown))
      ((h.handlersOnce application).append (List.nodup_singleton handler) hdisjoint)

theorem Orderly.removeHandler (h : c.Orderly) (application handler : String) :
    (c.removeHandler application handler).Orderly := by
  unfold Catalog.removeHandler
  by_cases hthere : (c.handlersOf application).contains handler = true
  · rw [if_pos hthere]
    -- The application has had background handlers, so it is known.
    have hsome : c.handlersOf application ≠ [] :=
      List.ne_nil_of_mem (List.contains_iff_mem.mp hthere)
    exact h.withHandlers (h.handlersKnown application hsome)
      ((h.handlersOnce application).filter _)
  · rw [if_neg hthere]
    exact h

/-- Other intents, each with an id and a key of its own, are in order. -/
theorem Orderly.withIntents (h : c.Orderly) {intents : List Intent}
    (hkeyed : (intents.map Intent.key).Nodup) (hnamed : ∀ i ∈ intents, i.intentId ≠ "") :
    { c with intents := intents }.Orderly where
  distinct := h.distinct
  handlersOnce := h.handlersOnce
  handlersKnown := h.handlersKnown
  keyed := hkeyed
  named := hnamed

theorem Orderly.add (h : c.Orderly) (i : Intent) : (c.add i).state.Orderly := by
  have hkeyed := h.keyed.add i
  unfold Catalog.add at hkeyed ⊢
  cases hfault : c.fault? i with
  | some reason => exact h
  | none =>
    rw [hfault] at hkeyed
    have hid : i.intentId ≠ "" := by
      intro hempty
      rw [fault?, if_pos hempty] at hfault
      cases hfault
    exact h.withIntents hkeyed
      (List.forall_mem_append.mpr ⟨h.named, List.forall_mem_singleton.mpr hid⟩)

theorem Orderly.remove (h : c.Orderly) (i : Intent) : (c.remove i).state.Orderly := by
  have hkeyed := h.keyed.remove i
  unfold Catalog.remove at hkeyed ⊢
  cases hfound : c.intents.find? fun j => j.hasKey i.intentId i.owner with
  | none => exact h
  | some removed =>
    rw [hfound] at hkeyed
    exact h.withIntents hkeyed fun j hj => h.named j (List.mem_of_mem_eraseP hj)

/-- Whatever is asked of it, a catalog stays in order. -/
theorem Orderly.perform (h : c.Orderly) (call : CatalogCall) : (c.perform call).state.Orderly := by
  cases call with
  | addApplication application => exact h.addApplication application
  | removeApplication application => exact h.removeApplication application
  | addHandler application handler => exact h.addHandler application handler
  | removeHandler application handler => exact h.removeHandler application handler
  | add i => exact h.add i
  | remove i => exact h.remove i
  | _ => exact h

/-- However many calls are made, a catalog stays in order. -/
theorem Orderly.after (h : c.Orderly) (calls : List CatalogCall) : (c.after calls).Orderly := by
  induction calls using List.reverseRecOn with
  | nil => exact h
  | append_singleton calls call ih =>
    rw [after_concat]
    exact ih.perform call

/-- Calls about applications and background handlers leave the intents as they are. -/
theorem intents_perform (c : Catalog) {call : CatalogCall} (hadd : ∀ i, call ≠ .add i)
    (hremove : ∀ i, call ≠ .remove i) : (c.perform call).state.intents = c.intents := by
  cases call with
  | add i => exact absurd rfl (hadd i)
  | remove i => exact absurd rfl (hremove i)
  | addApplication application =>
    simp only [Catalog.perform, addApplication]
    split <;> rfl
  | addHandler application handler =>
    simp only [Catalog.perform, addHandler]
    split <;> rfl
  | removeHandler application handler =>
    simp only [Catalog.perform, removeHandler]
    split <;> rfl
  | _ => rfl

/-! ## The order of registration -/

/-- A call that neither makes an application known nor forgets one leaves them as they are. -/
theorem applications_perform_of_ne (c : Catalog) {call : CatalogCall}
    (hadd : ∀ application, call ≠ .addApplication application)
    (hremove : ∀ application, call ≠ .removeApplication application) :
    (c.perform call).state.applications = c.applications := by
  cases call with
  | addApplication application => exact absurd rfl (hadd application)
  | removeApplication application => exact absurd rfl (hremove application)
  | addHandler application handler =>
    simp only [Catalog.perform, addHandler]
    split <;> rfl
  | removeHandler application handler =>
    simp only [Catalog.perform, removeHandler]
    split <;> rfl
  | add i =>
    simp only [Catalog.perform, Catalog.add]
    split <;> rfl
  | remove i =>
    simp only [Catalog.perform, Catalog.remove]
    split <;> rfl
  | _ => rfl

/-- What a call does to the known applications: it puts a new one last, forgets one, or leaves them
as they are. -/
theorem applications_perform (c : Catalog) (call : CatalogCall) :
    (∃ application, call = .addApplication application ∧ application ∉ c.applications ∧
        (c.perform call).state.applications = c.applications ++ [application]) ∨
      (∃ application, call = .removeApplication application ∧
        (c.perform call).state.applications = c.applications.filter fun a => a ≠ application) ∨
      ((∀ application, call ≠ .removeApplication application) ∧
        (∀ application, call = .addApplication application → application ∈ c.applications) ∧
        (c.perform call).state.applications = c.applications) := by
  by_cases hremove : ∃ application, call = .removeApplication application
  · obtain ⟨application, rfl⟩ := hremove
    exact .inr (.inl ⟨application, rfl, rfl⟩)
  have hkept : ∀ application, call ≠ .removeApplication application := not_exists.mp hremove
  by_cases hadd : ∃ application, call = .addApplication application
  · obtain ⟨application, rfl⟩ := hadd
    simp only [Catalog.perform, addApplication]
    by_cases hknown : c.isKnown application = true
    · rw [if_pos hknown]
      refine .inr (.inr ⟨hkept, fun other h => ?_, rfl⟩)
      cases h
      exact isKnown_iff.mp hknown
    · rw [if_neg hknown]
      exact .inl ⟨application, rfl, fun hmem => hknown (isKnown_iff.mpr hmem), rfl⟩
  · have hnone : ∀ application, call ≠ .addApplication application := not_exists.mp hadd
    exact .inr (.inr ⟨hkept, fun application h => absurd h (hnone application),
      applications_perform_of_ne c hnone hkept⟩)

/-- The call with a number made an application known that has not been forgotten since. -/
structure RegisteredBy (calls : List CatalogCall) (application : String) (n : Nat) : Prop where
  /-- The call asked for it. -/
  asked : calls[n]? = some (.addApplication application)
  /-- It was answered that the application was new. -/
  answered : ((empty.after (calls.take n)).addApplication application).1 = true
  /-- No later call forgot the application. -/
  stays : ∀ m, n < m → calls[m]? ≠ some (.removeApplication application)

/-- What stands at a place after one more has been put last. -/
theorem getElem?_concat_eq_some {α : Type} {xs : List α} {x y : α} {n : Nat} :
    (xs ++ [x])[n]? = some y ↔ xs[n]? = some y ∨ n = xs.length ∧ x = y := by
  rcases Nat.lt_trichotomy n xs.length with h | h | h
  · simp only [List.getElem?_append_left h, Nat.ne_of_lt h, false_and, or_false]
  · subst h
    simp only [List.getElem?_concat_length, Option.some.injEq, true_and, reduceCtorEq, false_or,
      List.getElem?_eq_none (Nat.le_refl _)]
  · have hlast : (xs ++ [x]).length ≤ n := by
      rw [List.length_append, List.length_singleton]
      exact h
    simp only [List.getElem?_eq_none hlast, List.getElem?_eq_none (Nat.le_of_lt h), reduceCtorEq,
      Nat.ne_of_gt h, false_and, or_false]

section

variable {calls : List CatalogCall} {call : CatalogCall} {application : String} {n : Nat}

/-- One call more registers the application it makes known, and lets every registration stand
but that of the application it forgets. -/
theorem registeredBy_concat :
    RegisteredBy (calls ++ [call]) application n ↔
      RegisteredBy calls application n ∧ call ≠ .removeApplication application ∨
        n = calls.length ∧ call = .addApplication application ∧
          application ∉ (empty.after calls).applications := by
  constructor
  · rintro ⟨hasked, hanswered, hstays⟩
    rcases getElem?_concat_eq_some.mp hasked with hasked | ⟨rfl, rfl⟩
    · have hlt := (List.getElem?_eq_some_iff.mp hasked).1
      rw [List.take_append_of_le_length (Nat.le_of_lt hlt)] at hanswered
      refine .inl ⟨⟨hasked, hanswered, fun m hm hforgot => ?_⟩, fun hcall => ?_⟩
      · exact hstays m hm (getElem?_concat_eq_some.mpr (.inl hforgot))
      · exact hstays calls.length hlt (getElem?_concat_eq_some.mpr (.inr ⟨rfl, hcall⟩))
    · rw [List.take_left] at hanswered
      exact .inr ⟨rfl, rfl, (addApplication_fst _ _).mp hanswered⟩
  · rintro (⟨h, hcall⟩ | ⟨rfl, rfl, hnew⟩)
    · have hlt := (List.getElem?_eq_some_iff.mp h.asked).1
      refine ⟨getElem?_concat_eq_some.mpr (.inl h.asked), ?_, fun m hm hforgot => ?_⟩
      · rw [List.take_append_of_le_length (Nat.le_of_lt hlt)]
        exact h.answered
      · rcases getElem?_concat_eq_some.mp hforgot with hearlier | ⟨-, hlast⟩
        · exact h.stays m hm hearlier
        · exact hcall hlast
    · refine ⟨getElem?_concat_eq_some.mpr (.inr ⟨rfl, rfl⟩), ?_, fun m hm hforgot => ?_⟩
      · rw [List.take_left]
        exact (addApplication_fst _ _).mpr hnew
      · have hmlt := (List.getElem?_eq_some_iff.mp hforgot).1
        rw [List.length_append, List.length_singleton] at hmlt
        omega

/-- The known applications are those of which the registration stands. -/
theorem mem_applications_iff :
    application ∈ (empty.after calls).applications ↔ ∃ n, RegisteredBy calls application n := by
  induction calls using List.reverseRecOn with
  | nil =>
    refine ⟨fun h => absurd h List.not_mem_nil, fun ⟨n, h⟩ => ?_⟩
    cases h.asked
  | append_singleton calls call ih =>
    simp only [after_concat, registeredBy_concat, exists_or, exists_and_right, exists_eq, true_and,
      ← ih]
    rcases applications_perform (empty.after calls) call with
      ⟨other, rfl, hnew, happs⟩ | ⟨other, rfl, happs⟩ | ⟨hkept, hknown, happs⟩
    · rw [happs, List.mem_append, List.mem_singleton]
      by_cases heq : application = other
      · simp [heq, hnew]
      · simp [heq, Ne.symm heq]
    · simp only [happs, List.mem_filter, decide_eq_true_eq, ne_eq,
        CatalogCall.removeApplication.injEq, reduceCtorEq, false_and, or_false]
      rw [eq_comm (a := application)]
    · rw [happs]
      constructor
      · exact fun hmem => .inl ⟨hmem, hkept application⟩
      · rintro (⟨hmem, -⟩ | ⟨hcall, -⟩)
        · exact hmem
        · exact hknown application hcall

/-- Of two applications, all registrations of the one that stand came before those of the other. -/
def Before (calls : List CatalogCall) (first second : String) : Prop :=
  ∀ m n, RegisteredBy calls first m → RegisteredBy calls second n → m < n

/-- The known applications stand in the order of their registrations. -/
theorem pairwise_before (calls : List CatalogCall) :
    (empty.after calls).applications.Pairwise (Before calls) := by
  induction calls using List.reverseRecOn with
  | nil => exact List.Pairwise.nil
  | append_singleton calls call ih =>
    -- The registration of an application that is known already is not the last call.
    have hearlier : ∀ {application n}, application ∈ (empty.after calls).applications →
        RegisteredBy (calls ++ [call]) application n → RegisteredBy calls application n := by
      intro application n hmem h
      rcases registeredBy_concat.mp h with ⟨h, -⟩ | ⟨-, -, hnew⟩
      · exact h
      · exact absurd hmem hnew
    have hold : (empty.after calls).applications.Pairwise (Before (calls ++ [call])) :=
      ih.imp_of_mem fun ha hb hab m n hm hn => hab m n (hearlier ha hm) (hearlier hb hn)
    rw [after_concat]
    rcases applications_perform (empty.after calls) call with
      ⟨other, rfl, hnew, happs⟩ | ⟨other, rfl, happs⟩ | ⟨-, -, happs⟩
    · rw [happs, List.pairwise_append]
      refine ⟨hold, List.pairwise_singleton _ _, fun a ha b hb m n hm hn => ?_⟩
      rw [List.mem_singleton.mp hb] at hn
      have hlt := (List.getElem?_eq_some_iff.mp (hearlier ha hm).asked).1
      rcases registeredBy_concat.mp hn with ⟨hn, -⟩ | ⟨rfl, -⟩
      · exact absurd (mem_applications_iff.mpr ⟨n, hn⟩) hnew
      · exact hlt
    · rw [happs]
      exact hold.sublist List.filter_sublist
    · rw [happs]
      exact hold

end

/-- In every catalog that calls lead to, the known applications are distinct, are those of which the
registration stands, and stand in the order of registration. Only a known application has background
handlers, each of them once: to forget an application forgets them, so it has none when it gets
known again, and neither has any other that gets known. No two registered intents have a key in
common and every one has an id; no call but one that registers or removes an intent changes them,
whatever becomes of their owners and handlers. -/
theorem registration (calls : List CatalogCall) :
    let c := empty.after calls
    c.Orderly ∧
      (∀ application, application ∈ c.applications ↔ ∃ n, RegisteredBy calls application n) ∧
      c.applications.Pairwise (Before calls) ∧
      (∀ application, (c.addApplication application).1 = true →
        (c.addApplication application).2.handlersOf application = []) ∧
      (∀ application,
        let forgotten := c.removeApplication application
        forgotten.isKnown application = false ∧ forgotten.handlersOf application = [] ∧
          (forgotten.addApplication application).1 = true ∧
          (forgotten.addApplication application).2.handlersOf application = []) ∧
      ∀ call, (∀ i, call ≠ .add i) → (∀ i, call ≠ .remove i) →
        (c.perform call).state.intents = c.intents := by
  intro c
  have horderly : c.Orderly := orderly_empty.after calls
  refine ⟨horderly, fun _ => mem_applications_iff, pairwise_before calls,
    fun application => horderly.handlersOf_addApplication, fun application => ?_,
    fun call => intents_perform c⟩
  intro forgotten
  have hforgotten : forgotten.Orderly := horderly.removeApplication application
  have hunknown : application ∉ forgotten.applications := fun hmem =>
    (mem_removeApplication.mp hmem).2 rfl
  have hnew := (addApplication_fst forgotten application).mpr hunknown
  have hnone := isKnown_eq_false_iff.mpr hunknown
  exact ⟨hnone, hforgotten.handlersOf_eq_nil hnone, hnew,
    hforgotten.handlersOf_addApplication hnew⟩

/-- A printer that is forgotten with its background handler gets known again without it. -/
theorem registration_printer :
    let c := empty.after [.addApplication "printer", .addHandler "printer" "spooler",
      .removeApplication "printer"]
    (c.addApplication "printer").1 = true ∧
      (c.addApplication "printer").2.handlersOf "printer" = [] := by
  intro c
  obtain ⟨-, -, -, hnone, -⟩ := registration [.addApplication "printer",
    .addHandler "printer" "spooler", .removeApplication "printer"]
  have hnew : (c.addApplication "printer").1 = true := by decide
  exact ⟨hnew, hnone "printer" hnew⟩

end Catalog

end IntentRouter
