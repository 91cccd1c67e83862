import IntentRouter.Proofs.Accounts

/-!
# The requests that are remembered

The history of a router is made of what it has returned, one name after another, the oldest being
forgotten beyond the capacity, in the list as in the set. So no name of a request in flight is ever
in it, and it does not matter to what is remembered in which order the last two have ended.
-/

namespace IntentRouter

namespace History

variable {h : History} {x y : RequestId} {known ids : List RequestId}

theorem contains_iff : h.contains x = true ↔ x ∈ h.known := List.contains_iff_mem

/-- Of the names in order the last ones are left, as many as are kept. -/
theorem ended_trim (known ended : List RequestId) :
    (trim known ended).ended = ended.drop (ended.length - capacity) := by
  induction ended generalizing known with
  | nil => rfl
  | cons oldest rest ih =>
    unfold trim
    rw [List.length_cons]
    split
    · next hmany =>
      have hdrop : rest.length + 1 - capacity = rest.length - capacity + 1 := by omega
      rw [ih, hdrop, List.drop_succ_cons]
    · next hfits =>
      have hnone : rest.length + 1 - capacity = 0 := by omega
      rw [hnone, List.drop_zero]

/-- No name comes into the set when others are forgotten. -/
theorem mem_of_mem_known_trim {ended : List RequestId} (hx : x ∈ (trim known ended).known) :
    x ∈ known := by
  induction ended generalizing known with
  | nil => exact hx
  | cons oldest rest ih =>
    unfold trim at hx
    split at hx
    · exact List.mem_of_mem_erase (ih hx)
    · exact hx

/-- The set has the names that are kept in order, each once. -/
structure Sound (h : History) : Prop where
  /-- No name is kept twice. -/
  once : h.ended.Nodup
  /-- The set has the same names. -/
  agree : h.known.Perm h.ended

theorem sound_empty : empty.Sound := ⟨List.nodup_nil, .nil⟩

theorem Sound.mem_known_iff (sound : h.Sound) : x ∈ h.known ↔ x ∈ h.ended := sound.agree.mem_iff

/-- Whatever is forgotten is forgotten in both. -/
theorem Sound.trim {ended : List RequestId} (once : ended.Nodup) (agree : known.Perm ended) :
    (History.trim known ended).Sound := by
  induction ended generalizing known with
  | nil => exact ⟨once, agree⟩
  | cons oldest rest ih =>
    unfold History.trim
    split
    · have hrest := agree.erase oldest
      rw [List.erase_cons_head] at hrest
      exact ih (List.nodup_cons.mp once).2 hrest
    · exact ⟨once, agree⟩

theorem Sound.add (sound : h.Sound) (x : RequestId) : (h.add x).Sound := by
  unfold History.add
  split
  · exact sound
  · next hnew =>
    have hx : x ∉ h.ended := fun hmem => hnew (contains_iff.mpr (sound.mem_known_iff.mpr hmem))
    have hlast : (h.ended ++ [x]).Perm (x :: h.ended) := List.perm_append_singleton x h.ended
    exact ⟨hlast.nodup_iff.mpr (List.nodup_cons.mpr ⟨hx, sound.once⟩),
      (sound.agree.cons x).trans hlast.symm⟩

/-- The set and the names in order stay together. -/
theorem Sound.record (sound : h.Sound) (x : RequestId) : (h.record x).Sound :=
  .trim (sound.add x).once (sound.add x).agree

/-- Where the same names are kept, the same are found. -/
theorem Sound.contains_eq {h' : History} (sound : h.Sound) (sound' : h'.Sound)
    (hperm : h.ended.Perm h'.ended) (x : RequestId) : h'.contains x = h.contains x := by
  rw [Bool.eq_iff_iff, contains_iff, contains_iff, sound'.mem_known_iff, sound.mem_known_iff]
  exact hperm.symm.mem_iff

/-- A new name pushes out the oldest beyond the capacity. -/
theorem record_of_notMem (new : x ∉ h.known) :
    (h.record x).ended = h.ended.drop (h.ended.length + 1 - capacity) ++ [x] := by
  have hcontains : ¬ h.contains x = true := mt contains_iff.mp new
  have hle : h.ended.length + 1 - capacity ≤ h.ended.length := by
    have hpos : 0 < capacity := by decide
    omega
  rw [record, ended_trim, add, if_neg hcontains, List.length_append, List.length_singleton,
    List.drop_append_of_le_length hle]

/-- Nothing is remembered but what was so before and the new name. -/
theorem mem_record (hy : y ∈ (h.record x).known) : y ∈ h.known ∨ y = x := by
  have hadd := mem_of_mem_known_trim hy
  unfold add at hadd
  split at hadd
  · exact .inl hadd
  · exact (List.mem_cons.mp hadd).symm

/-- Two new names push out the oldest beyond the capacity. -/
theorem record_record (hx : x ∉ h.known) (hy : y ∉ h.known) (hne : y ≠ x) :
    ((h.record x).record y).ended =
      h.ended.drop (h.ended.length + 2 - capacity) ++ [x, y] := by
  have hnew : y ∉ (h.record x).known := fun hmem => (mem_record hmem).elim hy hne
  have hcapacity : capacity = 512 := rfl
  have hroom : h.ended.length + 1 - capacity +
      (h.ended.length - (h.ended.length + 1 - capacity) + 1 + 1 - capacity) =
        h.ended.length + 2 - capacity := by omega
  rw [record_of_notMem hnew, record_of_notMem hx, List.length_append, List.length_singleton,
    List.drop_append_of_le_length, List.drop_drop, List.length_drop, hroom, List.append_assoc]
  · rfl
  · omega

/-- Two new names are remembered in either order, and the same others with them. -/
theorem record_comm_perm (hx : x ∉ h.known) (hy : y ∉ h.known) (hne : y ≠ x) :
    ((h.record x).record y).ended.Perm ((h.record y).record x).ended := by
  rw [record_record hx hy hne, record_record hy hx hne.symm]
  exact (List.Perm.swap y x []).append_left _

/-- The history after several requests have ended. -/
def recordAll (h : History) (ids : List RequestId) : History := ids.foldl record h

theorem recordAll_append (h : History) (ids ids' : List RequestId) :
    h.recordAll (ids ++ ids') = (h.recordAll ids).recordAll ids' := List.foldl_append

theorem Sound.recordAll (sound : h.Sound) (ids : List RequestId) : (h.recordAll ids).Sound := by
  induction ids generalizing h with
  | nil => exact sound
  | cons id rest ih => exact ih (sound.record id)

/-- Nothing is remembered but what was so before and what has ended since. -/
theorem mem_recordAll (hx : x ∈ (h.recordAll ids).known) : x ∈ h.known ∨ x ∈ ids := by
  induction ids generalizing h with
  | nil => exact .inl hx
  | cons id rest ih =>
    rcases ih hx with hbefore | hrest
    · refine (mem_record hbefore).imp_right fun he => ?_
      rw [he]
      exact List.mem_cons_self
    · exact .inr (List.mem_cons_of_mem id hrest)

end History

namespace Router

variable {r : Router} {around : Surroundings} {id : RequestId} {stage : Stage}

/-- What is remembered is found, and no request in flight is remembered as one that has ended. -/
structure Remembers (r : Router) : Prop where
  /-- The set has the names that are kept in order. -/
  sound : r.history.Sound
  /-- No name of a request in flight is among them. -/
  apart : ∀ q ∈ r.requests, q.id ∉ r.history.known

/-- A step remembers what it returns. -/
theorem history_process (h : Coupled r.requests r.lanes) (around : Surroundings) :
    (r.process around).state.history =
      r.history.recordAll ((r.returned? around).toList.map fun x => x.request.id) := by
  rcases idle_or_steps h around with hmain | ⟨p, pass, hs⟩
  · rw [process_of_idle hmain, returned?, hmain]
    rfl
  · rw [hs.returned?_eq h]
    rcases hs.waits_or_settled h with ⟨stage, hw⟩ | hq
    · rw [process_of_waits hs h hw, if_neg (RequestState.ne_settled_of_stage hw)]
      rfl
    · rw [process_of_settled hs h hq, if_pos hq, ← (hs.onWay h).id_eq]
      rfl

/-- A report leaves the history as it is. -/
theorem history_report (h : Coupled r.requests r.lanes) (around : Surroundings)
    (call : RouterCall) (hcall : call.wait? = some (stage, id)) :
    (r.perform around call).state.history = r.history := by
  obtain ⟨requests, lanes, posts, hstate, -⟩ := report_frame around h hcall
  rw [hstate]

end Router

/-- Every move remembers what it returns. -/
theorem Move.history_turn {r : Router} (m : Move) (h : Coupled r.requests r.lanes) :
    (m.turn r).state.history =
      r.history.recordAll ((m.returned? r).toList.map fun x => x.request.id) := by
  obtain ⟨around, ask⟩ := m
  cases ask with
  | catalog call => rfl
  | router call =>
    cases call with
    | submit id now s =>
      rcases r.submit_cases around id now s with
        ⟨candidates, lanes, -, -, hstate⟩ | ⟨reason, -, hstate⟩
      · exact (congrArg Router.history hstate :)
      · exact (congrArg Router.history hstate :)
    | process => exact Router.history_process h around
    | handle event =>
      cases event with
      | process => exact Router.history_process h around
      | timeout stage id millis =>
        exact Router.history_report h around (.handle (.timeout stage id millis)) rfl
    | resolve id selected => exact Router.history_report h around (.resolve id selected) rfl
    | reject id => exact Router.history_report h around (.reject id) rfl
    | reply application id isError payload =>
      exact Router.history_report h around (.reply application id isError payload) rfl
    | announceStart application =>
      have heq : r.announceStart around application = _ := Router.announceStart_eq h application
      exact congrArg (fun t => t.state.history) heq
    | setTimeout stage duration =>
      simp only [turn, Router.perform, Router.setTimeout]
      cases r.settings.setTimeout stage duration <;> rfl
    | _ => rfl

namespace Run

/-- The history is made of what has been returned. -/
theorem history_eq (run : Run) (n : Nat) :
    (run.router n).history =
      History.empty.recordAll ((run.returns n).map fun x => x.request.id) := by
  induction n with
  | zero =>
    rw [router_zero, start_eq_fresh]
    rfl
  | succ n ih =>
    rw [returns_succ, List.map_append, History.recordAll_append, ← ih]
    cases hm : run.moves[n]? with
    | none =>
      rw [router_succ_of_none hm, returned?, hm]
      rfl
    | some m => rw [router_succ hm, m.history_turn (run.coupled n), returned?_eq hm]

/-- What is remembered is found, and no request in flight is remembered as one that has ended. -/
theorem remembers (run : Run) (n : Nat) : (run.router n).Remembers where
  sound := by
    rw [history_eq]
    exact History.sound_empty.recordAll _
  apart := by
    intro q hq hmem
    rw [history_eq] at hmem
    rcases History.mem_recordAll hmem with hnone | hreturned
    · cases hnone
    · obtain ⟨x, hx, hid⟩ := List.mem_map.mp hreturned
      obtain ⟨k, hk, hxk⟩ := List.mem_filterMap.mp hx
      have hnk := le_of_returned hq hxk hid
      have hlt := List.mem_range.mp hk
      omega

end Run

end IntentRouter
