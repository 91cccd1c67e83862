import IntentRouter.Proofs.Move

/-!
# What becomes of one request

A request in flight is still in flight after an operation, as a later record of the
same request, or a step has taken it to its end. Nothing else is in flight
afterwards but what the operation has admitted.
-/

namespace IntentRouter

/-- The start of its handler, if it waits for that, is a change of the state alone. -/
theorem Request.becomes_releasedBy (application : String) (q : Request) :
    q.Becomes (q.releasedBy application) := by
  unfold releasedBy
  by_cases h : q.state = .awaitingStart ∧ q.handler = some application
  · rw [if_pos h]
    exact becomes_moveTo (by rw [h.1]; exact .release)
  · rw [if_neg h]
    exact .refl q

namespace Change

variable {around : Surroundings} {before after : List Request} {effects : List Effect}
  {taken : Option RequestId} {admitted : Option Request} {q : Request}

/-- Whatever is in flight afterwards was so before, or has been admitted. -/
theorem origin (h : Change around before after effects taken admitted) (hq : q ∈ after) :
    (∃ p ∈ before, p.Becomes q) ∨ admitted = some q := by
  have hreplace : ∀ p r : Request, p ∈ before → p.Becomes r → q ∈ r.replaceIn before →
      ∃ p ∈ before, p.Becomes q := by
    intro p r hp hb hmem
    rcases Request.mem_replaceIn hmem with he | ⟨hold, -⟩
    · exact ⟨p, hp, he ▸ hb⟩
    · exact ⟨q, hold, .refl q⟩
  cases h with
  | still => exact .inl ⟨q, hq, .refl q⟩
  | admitted r =>
    rcases List.mem_append.mp hq with hq | hq
    · exact .inl ⟨q, hq, .refl q⟩
    · rw [List.mem_singleton.mp hq]
      exact .inr rfl
  | resumed p r hp _ hb => exact .inl (hreplace p r hp hb hq)
  | released application =>
    obtain ⟨p, hp, rfl⟩ := List.mem_map.mp hq
    exact .inl ⟨p, hp, p.becomes_releasedBy application⟩
  | parked p r _ _ _ hp _ hb => exact .inl (hreplace p r hp hb hq)
  | delivered => exact .inl ⟨q, (List.mem_filter.mp hq).1, .refl q⟩

/-- A request in flight stays so under a later record, or a step takes it to its end. -/
theorem fate (h : Change around before after effects taken admitted)
    (names : (before.map Request.id).Nodup) (hq : q ∈ before) :
    (∃ r ∈ after, q.Becomes r) ∨
      (taken = some q.id ∧ (∀ r ∈ after, r.id ≠ q.id) ∧
        Phase.Path (.inFlight q.state) .ended) := by
  have hreplace : ∀ p r : Request, p ∈ before → p.Becomes r →
      ∃ s ∈ r.replaceIn before, q.Becomes s := by
    intro p r hp hb
    refine ⟨_, List.mem_map_of_mem hq, ?_⟩
    by_cases he : q.id = r.id
    · have hqp := List.inj_on_of_nodup_map names hq hp (he.trans hb.alike.id)
      rw [if_pos he, hqp]
      exact hb
    · rw [if_neg he]
      exact .refl q
  cases h with
  | still => exact .inl ⟨q, hq, .refl q⟩
  | admitted r => exact .inl ⟨q, List.mem_append_left _ hq, .refl q⟩
  | resumed p r hp _ hb => exact .inl (hreplace p r hp hb)
  | released application =>
    exact .inl ⟨_, List.mem_map_of_mem hq, q.becomes_releasedBy application⟩
  | parked p r _ _ _ hp _ hb => exact .inl (hreplace p r hp hb)
  | delivered p r _ hp _ hb _ hs =>
    by_cases he : q.id = p.id
    · have hqp := List.inj_on_of_nodup_map names hq hp he
      have hpath := hb.path
      rw [hs, ← hqp] at hpath
      refine .inr ⟨by rw [he], fun s hmem => ?_, hpath.tail .dispose⟩
      have hne := (List.mem_filter.mp hmem).2
      rw [decide_eq_true_eq] at hne
      rwa [he]
    · refine .inl ⟨q, ?_, .refl q⟩
      rw [List.mem_filter, decide_eq_true_eq]
      exact ⟨hq, he⟩

end Change

end IntentRouter
