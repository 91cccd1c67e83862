import IntentRouter.Proofs.Lanes
import IntentRouter.Proofs.Lifecycle

/-!
# Requests and the lanes they stand in

The requests in flight and the lanes are kept apart and tell the same story: each
request stands once, in the lane of its state, and nobody else stands anywhere.
Four changes keep them coupled: a request is admitted, one request passes to
another lane, several pass to the main lane together, and one is disposed of.
-/

namespace IntentRouter

namespace Request

variable {requests : List Request} {p q r : Request}

/-- The requests with a later record in the place of the one of its name. -/
def replaceIn (q : Request) (requests : List Request) : List Request :=
  requests.map fun r => if r.id = q.id then q else r

/-- Everyone but the one replaced has been there before, under another name. -/
theorem mem_replaceIn (hr : r ∈ q.replaceIn requests) :
    r = q ∨ (r ∈ requests ∧ r.id ≠ q.id) := by
  obtain ⟨s, hs, hsr⟩ := List.mem_map.mp hr
  by_cases he : s.id = q.id
  · rw [if_pos he] at hsr
    exact .inl hsr.symm
  · rw [if_neg he] at hsr
    rw [← hsr]
    exact .inr ⟨hs, he⟩

/-- The later record is there where an earlier one was. -/
theorem mem_replaceIn_self (hp : p ∈ requests) (hid : q.id = p.id) : q ∈ q.replaceIn requests := by
  have hmem := List.mem_map_of_mem (f := fun r => if r.id = q.id then q else r) hp
  rwa [if_pos hid.symm] at hmem

/-- Replacing a record leaves all names as they are. -/
theorem map_id_replaceIn : (q.replaceIn requests).map Request.id = requests.map Request.id := by
  rw [replaceIn, List.map_map]
  refine List.map_congr_left fun r _ => ?_
  by_cases he : r.id = q.id
  · rw [Function.comp_apply, if_pos he, he]
  · rw [Function.comp_apply, if_neg he]

end Request

/-- The requests in flight, coupled with the lanes they stand in. -/
structure Coupled (requests : List Request) (lanes : Lanes RequestId) : Prop where
  /-- No two requests have the same name. -/
  names : (requests.map Request.id).Nodup
  /-- Nobody stands twice in a lane. -/
  once : ∀ lane, (lanes.get lane).Nodup
  /-- A lane holds the requests whose state belongs there. -/
  stands : ∀ lane id, id ∈ lanes.get lane ↔ ∃ q ∈ requests, q.id = id ∧ q.state.lane = lane
  /-- Every record fits its state. -/
  sound : ∀ q ∈ requests, q.Sound

namespace Coupled

variable {requests : List Request} {lanes : Lanes RequestId} {p q : Request} {id : RequestId}

theorem empty : Coupled [] .empty := by
  refine ⟨List.nodup_nil, fun lane => ?_, fun lane id => ?_, fun q hq => ?_⟩
  · rw [Lanes.get_empty]
    exact List.nodup_nil
  · simp
  · cases hq

/-- A name belongs to one request only. -/
theorem eq_of_id (h : Coupled requests lanes) (hp : p ∈ requests) (hq : q ∈ requests)
    (hid : p.id = q.id) : p = q :=
  List.inj_on_of_nodup_map h.names hp hq hid

/-- Every request stands in the lane of its state, and in no other. -/
theorem mem_lane_iff (h : Coupled requests lanes) (hq : q ∈ requests) {lane : Lane} :
    q.id ∈ lanes.get lane ↔ q.state.lane = lane := by
  rw [h.stands]
  constructor
  · rintro ⟨p, hp, hid, hlane⟩
    have heq := h.eq_of_id hp hq hid
    rwa [heq] at hlane
  · intro hlane
    exact ⟨q, hq, rfl, hlane⟩

/-- Nobody stands in two lanes. -/
theorem lane_unique (h : Coupled requests lanes) {lane other : Lane}
    (hl : id ∈ lanes.get lane) (ho : id ∈ lanes.get other) : lane = other := by
  obtain ⟨q, hq, rfl, hlane⟩ := (h.stands lane _).mp hl
  have hother := (h.mem_lane_iff hq).mp ho
  exact hlane.symm.trans hother

/-- Whoever stands somewhere is the name of a request in flight. -/
theorem mem_toList_iff (h : Coupled requests lanes) :
    id ∈ lanes.toList ↔ ∃ q ∈ requests, q.id = id := by
  rw [Lanes.mem_toList]
  constructor
  · rintro ⟨lane, hl⟩
    obtain ⟨q, hq, hid, -⟩ := (h.stands lane id).mp hl
    exact ⟨q, hq, hid⟩
  · rintro ⟨q, hq, rfl⟩
    exact ⟨q.state.lane, (h.mem_lane_iff hq).mpr rfl⟩

/-- Nobody stands twice anywhere. -/
theorem nodup_toList (h : Coupled requests lanes) : lanes.toList.Nodup :=
  Lanes.nodup_toList h.once fun _ _ _ hl ho => h.lane_unique hl ho

/-- Without requests nobody stands anywhere. -/
theorem get_eq_nil (h : Coupled [] lanes) (lane : Lane) : lanes.get lane = [] := by
  rw [List.eq_nil_iff_forall_not_mem]
  intro id hl
  obtain ⟨q, hq, -⟩ := (h.stands lane id).mp hl
  cases hq

/-- Nobody stands anywhere under a name that no request bears. -/
theorem absent_of_fresh (h : Coupled requests lanes) (fresh : ∀ p ∈ requests, p.id ≠ id)
    (lane : Lane) : id ∉ lanes.get lane := by
  intro hl
  obtain ⟨p, hp, hid, -⟩ := (h.stands lane id).mp hl
  exact fresh p hp hid

/-- A request with a new name is admitted to the main lane. -/
theorem enter (h : Coupled requests lanes) (hs : q.Sound) (hlane : q.state.lane = .main)
    (fresh : ∀ p ∈ requests, p.id ≠ q.id) :
    Coupled (requests ++ [q]) (lanes.joined .main q.id) := by
  have absent := h.absent_of_fresh fresh
  refine ⟨?_, fun lane => Lanes.nodup_joined (h.once lane) (absent .main), fun lane id => ?_, ?_⟩
  · rw [List.map_append, List.nodup_append]
    refine ⟨h.names, by simp, ?_⟩
    intro a ha b hb hab
    obtain ⟨p, hp, rfl⟩ := List.mem_map.mp ha
    simp only [List.map_cons, List.map_nil, List.mem_singleton] at hb
    exact fresh p hp (hab.trans hb)
  · rw [Lanes.mem_joined, h.stands]
    simp only [List.mem_append, List.mem_singleton, or_and_right, exists_or, exists_eq_left, hlane]
    exact or_congr Iff.rfl (and_congr_left' eq_comm)
  · intro p hp
    rcases List.mem_append.mp hp with hp | hp
    · exact h.sound p hp
    · rwa [List.mem_singleton.mp hp]

/-- Changed records stay coupled with lanes that follow their states. -/
theorem relabel (h : Coupled requests lanes) {f : Request → Request} {after : Lanes RequestId}
    (name : ∀ q ∈ requests, (f q).id = q.id) (sound : ∀ q ∈ requests, (f q).Sound)
    (once : ∀ lane, (after.get lane).Nodup)
    (known : ∀ lane, ∀ id ∈ after.get lane, ∃ q ∈ requests, q.id = id)
    (stands : ∀ lane, ∀ q ∈ requests, q.id ∈ after.get lane ↔ (f q).state.lane = lane) :
    Coupled (requests.map f) after := by
  have hnames : (requests.map f).map Request.id = requests.map Request.id := by
    rw [List.map_map]
    exact List.map_congr_left name
  refine ⟨hnames ▸ h.names, once, fun lane id => ?_, ?_⟩
  · constructor
    · intro hid
      obtain ⟨q, hq, rfl⟩ := known lane id hid
      exact ⟨f q, List.mem_map_of_mem hq, name q hq, (stands lane q hq).mp hid⟩
    · rintro ⟨r, hr, hid, hlane⟩
      obtain ⟨q, hq, rfl⟩ := List.mem_map.mp hr
      rw [name q hq] at hid
      rw [← hid]
      exact (stands lane q hq).mpr hlane
  · intro r hr
    obtain ⟨q, hq, rfl⟩ := List.mem_map.mp hr
    exact sound q hq

/-- Whoever has left its lane stands in none. -/
theorem absent_parted (h : Coupled requests lanes) (hp : p ∈ requests) (lane : Lane) :
    p.id ∉ (lanes.parted p.state.lane p.id).get lane := by
  rw [Lanes.mem_parted (h.once _), h.mem_lane_iff hp]
  intro hmem
  exact hmem.2 ⟨rfl, hmem.1⟩

/-- A request passes from its lane to that of a later record. -/
theorem transfer (h : Coupled requests lanes) (hp : p ∈ requests) (hid : q.id = p.id)
    (hs : q.Sound) :
    Coupled (q.replaceIn requests)
      ((lanes.parted p.state.lane p.id).joined q.state.lane p.id) := by
  refine h.relabel ?_ ?_ (fun lane => ?_) (fun lane id hmem => ?_) fun lane r hr => ?_
  · intro r _
    by_cases he : r.id = q.id
    · rw [if_pos he, he]
    · rw [if_neg he]
  · intro r hr
    by_cases he : r.id = q.id
    · rwa [if_pos he]
    · rw [if_neg he]
      exact h.sound r hr
  · exact Lanes.nodup_joined (Lanes.nodup_parted h.once) (h.absent_parted hp _)
  · rw [Lanes.mem_joined, Lanes.mem_parted (h.once _), h.stands] at hmem
    rcases hmem with ⟨⟨r, hr, hrid, -⟩, -⟩ | ⟨hnew, -⟩
    · exact ⟨r, hr, hrid⟩
    · exact ⟨p, hp, hnew.symm⟩
  · rw [Lanes.mem_joined, Lanes.mem_parted (h.once _), h.mem_lane_iff hr]
    by_cases he : r.id = q.id
    · have hrp := h.eq_of_id hr hp (he.trans hid)
      rw [if_pos he, hrp]
      tauto
    · have hne : r.id ≠ p.id := fun hrp => he (hrp.trans hid.symm)
      rw [if_neg he]
      tauto

/-- Some of the requests that wait for their handlers to start pass to the main lane. -/
theorem release (h : Coupled requests lanes) (select : RequestId → Bool) :
    Coupled
      (requests.map fun q =>
        if q.state = .awaitingStart ∧ select q.id = true then q.moveTo .started else q)
      { lanes with
        main := lanes.main ++ lanes.starting.filter select
        starting := lanes.starting.filter fun id => ! select id } := by
  have hlane : ∀ lane, ∀ q ∈ requests, q.id ∈ lanes.get lane ↔ q.state.lane = lane :=
    fun lane q hq => h.mem_lane_iff hq
  refine h.relabel ?_ ?_ (fun lane => ?_) (fun lane id hmem => ?_) fun lane q hq => ?_
  · intro q _
    by_cases hsel : q.state = .awaitingStart ∧ select q.id = true
    · rw [if_pos hsel]
      rfl
    · rw [if_neg hsel]
  · intro q hq
    by_cases hsel : q.state = .awaitingStart ∧ select q.id = true
    · rw [if_pos hsel]
      exact (h.sound q hq).moveTo (by rw [hsel.1]; rfl) rfl
    · rw [if_neg hsel]
      exact h.sound q hq
  · cases lane with
    | main =>
      refine List.nodup_append.mpr ⟨h.once .main, (h.once .starting).filter _, ?_⟩
      intro a ha b hb hab
      have hstart := (List.mem_filter.mp hb).1
      rw [← hab] at hstart
      have hsame : Lane.main = .starting := h.lane_unique ha hstart
      cases hsame
    | starting => exact (h.once .starting).filter _
    | choice => exact h.once .choice
    | sent => exact h.once .sent
  · have hold : ∃ old, id ∈ lanes.get old := by
      cases lane with
      | main =>
        rcases List.mem_append.mp hmem with hmem | hmem
        · exact ⟨.main, hmem⟩
        · exact ⟨.starting, (List.mem_filter.mp hmem).1⟩
      | starting => exact ⟨.starting, (List.mem_filter.mp hmem).1⟩
      | choice => exact ⟨.choice, hmem⟩
      | sent => exact ⟨.sent, hmem⟩
    obtain ⟨old, hold⟩ := hold
    obtain ⟨q, hq, hid, -⟩ := (h.stands old id).mp hold
    exact ⟨q, hq, hid⟩
  · by_cases hsel : q.state = .awaitingStart ∧ select q.id = true
    · have hstart : q.id ∈ lanes.starting := (hlane .starting q hq).mpr (by rw [hsel.1]; rfl)
      have hapart : ∀ other, q.id ∈ lanes.get other → Lane.starting = other :=
        fun other ho => h.lane_unique hstart ho
      rw [if_pos hsel]
      cases lane with
      | main =>
        have hmem := List.mem_append_right lanes.main (List.mem_filter.mpr ⟨hstart, hsel.2⟩)
        exact iff_of_true hmem rfl
      | starting =>
        refine iff_of_false (fun hmem => ?_) (fun hsame => by cases hsame)
        have hkept := (List.mem_filter.mp hmem).2
        rw [hsel.2] at hkept
        cases hkept
      | choice =>
        exact iff_of_false (fun hmem => by cases hapart .choice hmem) (fun hsame => by cases hsame)
      | sent =>
        exact iff_of_false (fun hmem => by cases hapart .sent hmem) (fun hsame => by cases hsame)
    · have hstay : q.id ∈ lanes.starting → select q.id ≠ true := by
        intro hmem hs
        have hwait := RequestState.lane_eq_starting.mp ((hlane .starting q hq).mp hmem)
        exact hsel ⟨hwait, hs⟩
      rw [if_neg hsel, ← hlane lane q hq]
      cases lane with
      | main =>
        change q.id ∈ lanes.main ++ lanes.starting.filter select ↔ q.id ∈ lanes.main
        rw [List.mem_append, List.mem_filter]
        tauto
      | starting =>
        change q.id ∈ lanes.starting.filter _ ↔ q.id ∈ lanes.starting
        rw [List.mem_filter, Bool.not_eq_true', Bool.eq_false_iff]
        tauto
      | choice => exact Iff.rfl
      | sent => exact Iff.rfl

/-- A request is disposed of. -/
theorem dispose (h : Coupled requests lanes) (hp : p ∈ requests) :
    Coupled (requests.filter fun r => r.id ≠ p.id) (lanes.parted p.state.lane p.id) := by
  refine ⟨?_, fun lane => Lanes.nodup_parted h.once, fun lane id => ?_, ?_⟩
  · exact h.names.sublist (List.filter_sublist.map Request.id)
  · rw [Lanes.mem_parted (h.once _), h.stands]
    constructor
    · rintro ⟨⟨r, hr, rfl, hlane⟩, hne⟩
      refine ⟨r, ?_, rfl, hlane⟩
      rw [List.mem_filter, decide_eq_true_eq]
      refine ⟨hr, fun he => ?_⟩
      have hrp := h.eq_of_id hr hp he
      subst hrp
      exact hne ⟨rfl, hlane⟩
    · rintro ⟨r, hr, rfl, hlane⟩
      rw [List.mem_filter, decide_eq_true_eq] at hr
      exact ⟨⟨r, hr.1, rfl, hlane⟩, fun hne => hr.2 hne.1⟩
  · intro r hr
    exact h.sound r (List.mem_filter.mp hr).1

end Coupled

end IntentRouter
