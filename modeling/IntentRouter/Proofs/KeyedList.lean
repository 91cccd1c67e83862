import IntentRouter.Proofs.Registration

/-!
# The catalog as a map

The intents are kept in a list that is searched from the front, but no two of them have a key in
common, so the list is a map from keys to intents that remembers the order of registration. An
intent is registered if nothing stands against it, and is put last then. Otherwise the answer names
the first of four conditions that fails, and nothing has changed. An intent is removed by its key
alone. What is registered and removed at once leaves no trace, unless its key was taken before: then
it is not registered, and what is removed is the intent that had the key.
-/

namespace IntentRouter

namespace Catalog

variable {c : Catalog} {i j : Intent} {reason : Refusal}

/-! ## Registering -/

/-- Nothing stands against registering an intent. -/
structure Admits (c : Catalog) (i : Intent) : Prop where
  /-- It has an id. -/
  named : i.intentId ≠ ""
  /-- Its owner is known. -/
  ownerKnown : i.owner ∈ c.applications
  /-- No intent is registered under its key. -/
  keyFree : ∀ j ∈ c.intents, j.key ≠ i.key
  /-- Its background handler, if there is one, is registered for its owner. -/
  handlerKnown : ∀ handler, i.backgroundHandler = some handler → handler ∈ c.handlersOf i.owner

/-- Which of the conditions for registering an intent is the first that fails. -/
inductive Refuses (c : Catalog) (i : Intent) : Refusal → Prop where
  /-- It has no id. -/
  | emptyId (hempty : i.intentId = "") : Refuses c i (.invalidIntent .emptyId)
  /-- It has one, but its owner is not known. -/
  | unknownOwner (hnamed : i.intentId ≠ "") (hunknown : i.owner ∉ c.applications) :
    Refuses c i (.unknownApplication i.owner)
  /-- Its owner is known, but another intent is registered under its key. -/
  | keyTaken (hnamed : i.intentId ≠ "") (hknown : i.owner ∈ c.applications) (j : Intent)
    (hmem : j ∈ c.intents) (hkey : j.key = i.key) :
    Refuses c i (.invalidIntent (.alreadyRegistered i.name))
  /-- Its key is free, but its background handler is not registered for its owner. -/
  | missingHandler (hnamed : i.intentId ≠ "") (hknown : i.owner ∈ c.applications)
    (hfree : ∀ j ∈ c.intents, j.key ≠ i.key) (handler : String)
    (hhandler : i.backgroundHandler = some handler) (hmissing : handler ∉ c.handlersOf i.owner) :
    Refuses c i (.invalidIntent (.missingHandler handler i.owner))

/-- Whether a key is taken, as the catalog finds out. -/
theorem any_hasKey_iff :
    (c.intents.any fun j => j.hasKey i.intentId i.owner) = true ↔
      ∃ j ∈ c.intents, j.key = i.key := by
  simp only [List.any_eq_true, Intent.hasKey_iff]
  rfl

/-- The reason that is found against an intent is the first condition that fails, and there is
none where all conditions hold. -/
theorem fault?_spec (c : Catalog) (i : Intent) :
    (c.fault? i = none ∧ c.Admits i) ∨ ∃ reason, c.fault? i = some reason ∧ c.Refuses i reason := by
  -- The cases follow the order in which the conditions are looked at.
  unfold fault?
  by_cases hempty : i.intentId = ""
  · rw [if_pos hempty]
    exact .inr ⟨_, rfl, .emptyId hempty⟩
  rw [if_neg hempty]
  by_cases hunknown : ¬ c.isKnown i.owner = true
  · rw [if_pos hunknown]
    exact .inr ⟨_, rfl, .unknownOwner hempty fun hmem => hunknown (isKnown_iff.mpr hmem)⟩
  rw [if_neg hunknown]
  have hknown : i.owner ∈ c.applications := isKnown_iff.mp (not_not.mp hunknown)
  by_cases htaken : (c.intents.any fun j => j.hasKey i.intentId i.owner) = true
  · rw [if_pos htaken]
    obtain ⟨j, hmem, hkey⟩ := any_hasKey_iff.mp htaken
    exact .inr ⟨_, rfl, .keyTaken hempty hknown j hmem hkey⟩
  rw [if_neg htaken]
  have hfree : ∀ j ∈ c.intents, j.key ≠ i.key := fun j hmem hkey =>
    htaken (any_hasKey_iff.mpr ⟨j, hmem, hkey⟩)
  cases hhandler : i.backgroundHandler with
  | none => exact .inl ⟨rfl, hempty, hknown, hfree, fun _ h => by cases hhandler.symm.trans h⟩
  | some handler =>
    dsimp only
    by_cases hthere : (c.handlersOf i.owner).contains handler = true
    · rw [if_pos hthere]
      refine .inl ⟨rfl, hempty, hknown, hfree, fun other h => ?_⟩
      have hsame : handler = other := Option.some.inj (hhandler.symm.trans h)
      exact hsame ▸ List.contains_iff_mem.mp hthere
    · rw [if_neg hthere]
      have hmissing : handler ∉ c.handlersOf i.owner := fun hmem =>
        hthere (List.contains_iff_mem.mpr hmem)
      exact .inr ⟨_, rfl, .missingHandler hempty hknown hfree handler hhandler hmissing⟩

/-- A catalog that has a reason against an intent does not admit it. -/
theorem Refuses.not_admits (h : c.Refuses i reason) : ¬ c.Admits i := by
  intro hadmits
  cases h with
  | emptyId hempty => exact hadmits.named hempty
  | unknownOwner _ hunknown => exact hunknown hadmits.ownerKnown
  | keyTaken _ _ j hmem hkey => exact hadmits.keyFree j hmem hkey
  | missingHandler _ _ _ handler hhandler hmissing =>
    exact hmissing (hadmits.handlerKnown handler hhandler)

/-- No two conditions are the first that fails. -/
theorem Refuses.unique {reason other : Refusal} (h : c.Refuses i reason) (h' : c.Refuses i other) :
    reason = other := by
  cases h with
  | emptyId hempty => cases h' <;> first | rfl | contradiction
  | unknownOwner hnamed hunknown => cases h' <;> first | rfl | contradiction
  | keyTaken hnamed hknown j hmem hkey =>
    cases h' with
    | keyTaken => rfl
    | missingHandler _ _ hfree => exact absurd hkey (hfree j hmem)
    | _ => contradiction
  | missingHandler hnamed hknown hfree handler hhandler hmissing =>
    cases h' with
    | keyTaken _ _ j hmem hkey => exact absurd hkey (hfree j hmem)
    | missingHandler _ _ _ handler' hhandler' _ =>
      rw [Option.some.inj (hhandler.symm.trans hhandler')]
    | _ => contradiction

/-- What it is to register an intent: it is put last, or there is a reason against it and nothing
has changed. -/
theorem add_spec (c : Catalog) (i : Intent) :
    (c.Admits i ∧ c.add i = ⟨.ok i, { c with intents := c.intents ++ [i] },
        [.note (.intentAdded i.name), .publish (.added i), .publish .listChanged]⟩) ∨
      ∃ reason, c.Refuses i reason ∧ c.add i = .quiet (.error reason) c := by
  unfold add
  rcases fault?_spec c i with ⟨hnone, hadmits⟩ | ⟨reason, hsome, hrefuses⟩
  · rw [hnone]
    exact .inl ⟨hadmits, rfl⟩
  · rw [hsome]
    exact .inr ⟨reason, hrefuses, rfl⟩

/-! ## Removing -/

/-- Nothing is removed where nothing is registered under the key. -/
theorem remove_of_keyFree (h : ∀ j ∈ c.intents, j.key ≠ i.key) : c.remove i = .quiet none c := by
  have hnone : (c.intents.find? fun j => j.hasKey i.intentId i.owner) = none :=
    List.find?_eq_none.mpr fun j hj hkey => h j hj (Intent.hasKey_iff.mp hkey)
  rw [remove, hnone]

/-- The first intent with the key is removed, and those around it stay where they are. -/
theorem remove_of_split {front back : List Intent} (hsplit : c.intents = front ++ j :: back)
    (hfree : ∀ k ∈ front, k.key ≠ i.key) (hkey : j.key = i.key) :
    c.remove i = ⟨some j, { c with intents := front ++ back },
      [.note (.intentRemoved j.name), .publish (.removed j), .publish .listChanged]⟩ := by
  have hfront : ∀ k ∈ front, ¬ k.hasKey i.intentId i.owner = true := fun k hk h =>
    hfree k hk (Intent.hasKey_iff.mp h)
  have hj : j.hasKey i.intentId i.owner = true := Intent.hasKey_iff.mpr hkey
  have hfound : (c.intents.find? fun j => j.hasKey i.intentId i.owner) = some j := by
    rw [hsplit, List.find?_append, List.find?_eq_none.mpr hfront, Option.none_or, List.find?_cons,
      hj]
  have hleft : (c.intents.eraseP fun j => j.hasKey i.intentId i.owner) = front ++ back := by
    rw [hsplit, List.eraseP_append_right _ hfront, List.eraseP_cons, hj, cond_true]
  rw [remove, hfound, hleft]

/-- No intent has the key of one that is registered before or after it. -/
theorem Keyed.key_ne_of_split (h : c.Keyed) {front back : List Intent}
    (hsplit : c.intents = front ++ j :: back) : ∀ k ∈ front ++ back, k.key ≠ j.key := by
  unfold Keyed at h
  rw [hsplit, List.map_append, List.map_cons] at h
  have hnotMem := List.nodup_middle.mp h
  rw [← List.map_append] at hnotMem
  intro k hk hkey
  exact (List.nodup_cons.mp hnotMem).1 (hkey ▸ List.mem_map_of_mem hk)

/-! ## Finding -/

/-- What is found under an id and an owner is the intent that is registered there, if it accepts
the values. -/
theorem Keyed.find?_eq_some_iff (h : c.Keyed) (intentId owner : String)
    (parameters : Json.Parameters) :
    c.find? intentId owner parameters = some j ↔
      j ∈ c.intents ∧ j.key = (intentId, owner) ∧ j.accepts parameters = true := by
  have hall := h.toList_find? intentId owner parameters
  rw [← Option.mem_toList, hall, List.mem_filter, Bool.and_eq_true, Intent.hasKey_iff]

/-! ## The laws of the map -/

/-- The catalog is a map from keys to intents in the order of registration, and what it does not
do as a whole it does not do at all. -/
structure IsMap (c : Catalog) : Prop where
  /-- An intent is registered if and only if nothing stands against it. -/
  registers : ∀ i, (∃ j, (c.add i).value = .ok j) ↔ c.Admits i
  /-- What is registered is answered, put last and announced. -/
  putsLast : ∀ i, c.Admits i →
    c.add i = ⟨.ok i, { c with intents := c.intents ++ [i] },
      [.note (.intentAdded i.name), .publish (.added i), .publish .listChanged]⟩
  /-- What is not registered is refused for the first condition that fails. -/
  refuses : ∀ i reason, (c.add i).value = .error reason ↔ c.Refuses i reason
  /-- A refusal changes nothing and is not announced. -/
  unchanged : ∀ i reason, c.Refuses i reason → c.add i = .quiet (.error reason) c
  /-- What is removed is the intent with the key; the others stay in their order. -/
  removes : ∀ i j front back, c.intents = front ++ j :: back → j.key = i.key →
    c.remove i = ⟨some j, { c with intents := front ++ back },
      [.note (.intentRemoved j.name), .publish (.removed j), .publish .listChanged]⟩
  /-- Where no intent has the key nothing is removed. -/
  misses : ∀ i, (∀ j ∈ c.intents, j.key ≠ i.key) → c.remove i = .quiet none c
  /-- To register and remove an intent of which the key is free restores the catalog. -/
  restores : ∀ i, (∀ j ∈ c.intents, j.key ≠ i.key) → ((c.add i).state.remove i).state = c
  /-- To register and remove an intent of which the key is taken removes the one that has it. -/
  replaces : ∀ i, (∃ j ∈ c.intents, j.key = i.key) → (c.add i).state.remove i = c.remove i
  /-- An intent is found if and only if it is registered under the key and accepts the values. -/
  finds : ∀ intentId owner parameters j, c.find? intentId owner parameters = some j ↔
    j ∈ c.intents ∧ j.key = (intentId, owner) ∧ j.accepts parameters = true

theorem Keyed.remove_of_split (h : c.Keyed) {front back : List Intent}
    (hsplit : c.intents = front ++ j :: back) (hkey : j.key = i.key) :
    c.remove i = ⟨some j, { c with intents := front ++ back },
      [.note (.intentRemoved j.name), .publish (.removed j), .publish .listChanged]⟩ := by
  refine Catalog.remove_of_split hsplit (fun k hk => ?_) hkey
  exact hkey ▸ h.key_ne_of_split hsplit k (List.mem_append_left _ hk)

/-- What is put last under a key that was free is what is removed under it. -/
theorem remove_add_of_keyFree (h : ∀ j ∈ c.intents, j.key ≠ i.key) :
    ((c.add i).state.remove i).state = c := by
  rcases add_spec c i with ⟨-, hadd⟩ | ⟨reason, -, hadd⟩
  · have hsplit : { c with intents := c.intents ++ [i] }.intents = c.intents ++ i :: [] := rfl
    rw [hadd, remove_of_split hsplit h rfl, List.append_nil]
  · rw [hadd]
    exact congrArg Turn.state (remove_of_keyFree h)

/-- An intent of which the key is taken is refused. -/
theorem add_of_keyTaken (h : ∃ j ∈ c.intents, j.key = i.key) : (c.add i).state = c := by
  obtain ⟨j, hmem, hkey⟩ := h
  rcases add_spec c i with ⟨hadmits, -⟩ | ⟨reason, -, hadd⟩
  · exact absurd hkey (hadmits.keyFree j hmem)
  · rw [hadd]
    rfl

/-- A catalog with no two intents under one key is a map. -/
theorem Keyed.isMap (h : c.Keyed) : c.IsMap where
  registers i := by
    rcases add_spec c i with ⟨hadmits, hadd⟩ | ⟨reason, hrefuses, hadd⟩
    · exact ⟨fun _ => hadmits, fun _ => ⟨i, by rw [hadd]⟩⟩
    · rw [hadd]
      exact ⟨nofun, fun hadmits => absurd hadmits hrefuses.not_admits⟩
  putsLast i hadmits := by
    rcases add_spec c i with ⟨-, hadd⟩ | ⟨reason, hrefuses, -⟩
    · exact hadd
    · exact absurd hadmits hrefuses.not_admits
  refuses i reason := by
    rcases add_spec c i with ⟨hadmits, hadd⟩ | ⟨other, hrefuses, hadd⟩
    · rw [hadd]
      exact ⟨nofun, fun hrefuses => absurd hadmits hrefuses.not_admits⟩
    · rw [hadd]
      refine ⟨fun hvalue => ?_, fun h => congrArg Except.error (hrefuses.unique h)⟩
      cases hvalue
      exact hrefuses
  unchanged i reason hreason := by
    rcases add_spec c i with ⟨hadmits, -⟩ | ⟨other, hrefuses, hadd⟩
    · exact absurd hadmits hreason.not_admits
    · rw [hadd, hrefuses.unique hreason]
  removes _ _ _ _ hsplit hkey := h.remove_of_split hsplit hkey
  misses _ := remove_of_keyFree
  restores _ := remove_add_of_keyFree
  replaces i htaken := by rw [add_of_keyTaken htaken]
  finds intentId owner parameters _ := h.find?_eq_some_iff intentId owner parameters

/-- Every catalog that calls lead to is a map. -/
theorem after_isMap (calls : List CatalogCall) : (empty.after calls).IsMap :=
  (orderly_empty.after calls).keyed.isMap

/-- A printer that is known may register what it does, and take it back. -/
theorem after_isMap_printer :
    let i := Intent.plain "print" "printer"
    let c := empty.after [.addApplication "printer"]
    c.Admits i ∧ (c.add i).value = .ok i ∧ ((c.add i).state.remove i).state = c := by
  intro i c
  have hmap : c.IsMap := after_isMap [.addApplication "printer"]
  have hadmits : c.Admits i := ⟨by decide, by decide, nofun, nofun⟩
  exact ⟨hadmits, congrArg Turn.value (hmap.putsLast i hadmits), hmap.restores i hadmits.keyFree⟩

/-- The intent that has the key of a refused one is lost with it. -/
theorem remove_after_refused_add :
    let i := Intent.plain "print" "printer"
    let c := empty.after [.addApplication "printer", .add i]
    ((c.add i).state.remove i).state.intents ≠ c.intents := by
  intro i c h
  have hlength : ((c.add i).state.remove i).state.intents.length = c.intents.length :=
    congrArg List.length h
  revert hlength
  decide

end Catalog

end IntentRouter
