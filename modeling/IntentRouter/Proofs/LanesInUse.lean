import Mathlib.Data.List.Pairwise
import IntentRouter.Proofs.Lanes
import IntentRouter.Session.LaneCalls

/-!
# Lanes in use

Whatever is done to four empty lanes, one thing after another, nobody ever stands in two places.
Everyone who has joined stands in a lane or has gone again, as the next in line, by leaving or by
being taken out, and nobody is lost or doubled. So a lane can be told from who stands in it, and
each act does what it says to one lane and leaves the others as they are.
-/

namespace IntentRouter

/-- What can be done to lanes. -/
inductive LaneAct (α : Type) : Type 1 where
  /-- Someone joins a lane at the back. -/
  | join (lane : Lane) (x : α)
  /-- The next in line of the main lane is taken. -/
  | next
  /-- Someone leaves a lane. -/
  | leave (lane : Lane) (x : α)
  /-- Those are taken out of a lane whom a test with a memory selects. -/
  | extract {σ : Type} (lane : Lane) (select : σ → α → Bool × σ) (memory : σ)

namespace Lanes

variable {α σ : Type} {l : Lanes α} {x : α} {lane other : Lane}

/-! ## Tests with a memory -/

/-- What a test remembers when it has been asked about some, one after another. -/
def remembered (select : σ → α → Bool × σ) (memory : σ) (asked : List α) : σ :=
  asked.foldl (fun memory x => (select memory x).2) memory

/-- Everyone with the answer of a test that has been asked about those in front before. -/
def answered (select : σ → α → Bool × σ) (memory : σ) (xs : List α) : List (α × Bool) :=
  xs.zipIdx.map fun (x, place) => (x, (select (remembered select memory (xs.take place)) x).1)

/-- The first one is asked about at once, and the others when that is remembered. -/
theorem answered_cons (select : σ → α → Bool × σ) (memory : σ) (x : α) (rest : List α) :
    answered select memory (x :: rest) =
      (x, (select memory x).1) :: answered select (select memory x).2 rest := by
  rw [answered, List.zipIdx_cons', List.map_cons, List.map_map]
  rfl

/-- Everyone is asked about once, in turn; those with a yes are taken, and the others stay. -/
theorem ask_eq (select : σ → α → Bool × σ) (memory : σ) (xs : List α) :
    ask select memory xs =
      (((answered select memory xs).filter fun a => a.2).map Prod.fst,
        ((answered select memory xs).filter fun a => ! a.2).map Prod.fst,
        remembered select memory xs) := by
  induction xs generalizing memory with
  | nil => rfl
  | cons x rest ih =>
    rcases hselect : select memory x with ⟨selected, later⟩
    have hremembered : remembered select memory (x :: rest) = remembered select later rest := by
      rw [remembered, List.foldl_cons, hselect]
      rfl
    rw [hremembered, answered_cons, hselect, ask, hselect]
    simp only [ih]
    cases selected <;> rfl

/-- Whoever is asked about is taken or stays. -/
theorem ask_perm (select : σ → α → Bool × σ) (memory : σ) (xs : List α) :
    ((ask select memory xs).2.1 ++ (ask select memory xs).1).Perm xs := by
  have hsplit := List.filter_append_perm (fun a : α × Bool => a.2) (answered select memory xs)
  have hall : (answered select memory xs).map Prod.fst = xs := by
    rw [answered, List.map_map]
    exact List.zipIdx_map_fst 0 xs
  have hmapped := hsplit.map Prod.fst
  rw [hall, List.map_append] at hmapped
  rw [ask_eq]
  exact List.perm_append_comm.trans hmapped

/-- A test without a memory is one whose memory does not matter. -/
theorem extractAsking_of_pure (l : Lanes α) (lane : Lane) (select : α → Bool) :
    l.extractAsking lane (fun _ x => (select x, ())) () =
      ((l.extract lane select).1, (l.extract lane select).2, ()) := by
  have hask : ∀ xs : List α, ask (fun _ x => (select x, ())) () xs =
      (xs.filter select, xs.filter fun x => ! select x, ()) := by
    intro xs
    induction xs with
    | nil => rfl
    | cons x rest ih =>
      simp only [ask, ih]
      cases hx : select x <;> simp [hx]
  rw [extractAsking, hask]
  rfl

/-- A test that remembers whom it has been asked about remembers everyone in turn. -/
theorem remembered_log (answer : List α → α → Bool) (asked xs : List α) :
    remembered (fun asked x => (answer asked x, asked ++ [x])) asked xs = asked ++ xs := by
  induction xs generalizing asked with
  | nil => exact (List.append_nil asked).symm
  | cons x rest ih => exact (ih (asked ++ [x])).trans (List.append_assoc ..)

/-! ## Nobody is lost or doubled -/

/-- What is added to a lane and removed from it is added to all who stand anywhere and removed from
them. -/
theorem toList_set_perm [DecidableEq α] {content added removed : List α}
    (h : (content ++ removed).Perm (l.get lane ++ added)) :
    ((l.set lane content).toList ++ removed).Perm (l.toList ++ added) := by
  rw [List.perm_iff_count] at h ⊢
  intro x
  have hx := h x
  rw [List.count_append, List.count_append] at hx
  cases lane <;>
  · simp only [toList, Lane.all, set, get, List.flatMap_cons, List.flatMap_nil, List.count_append,
      List.count_nil] at hx ⊢
    omega

/-- Nobody stands in two lanes. -/
theorem lane_unique (once : l.toList.Nodup) (h : x ∈ l.get lane) (h' : x ∈ l.get other) :
    lane = other := by
  have hapart := (List.nodup_flatMap.mp once).2
  have hall : ∀ lane : Lane, lane ∈ Lane.all := by
    intro lane
    cases lane <;> decide
  by_contra hne
  have : Std.Symm (Function.onFun List.Disjoint l.get) := ⟨fun _ _ hd _ hx hx' => hd hx' hx⟩
  exact hapart.forall (hall lane) (hall other) hne h h'

/-- Nobody stands in a lane twice. -/
theorem nodup_get (once : l.toList.Nodup) (lane : Lane) : (l.get lane).Nodup :=
  (List.nodup_flatMap.mp once).1 lane (by cases lane <;> decide)

/-- The lengths of the lanes add up to the number of those who stand in them. -/
theorem length_toList (l : Lanes α) :
    l.toList.length = l.length .main + l.length .choice + l.length .starting + l.length .sent := by
  simp only [toList, Lane.all, length, List.flatMap_cons, List.flatMap_nil, List.length_append,
    List.length_nil]
  omega

theorem isEmpty_iff : l.isEmpty = true ↔ l.toList.length = 0 := by
  rw [isEmpty, List.all_eq_true, List.length_eq_zero_iff, toList, List.flatMap_eq_nil_iff]
  simp only [List.isEmpty_iff]

variable [DecidableEq α]

/-- Who stands in a lane is found in that lane. -/
theorem laneOf?_eq_some_iff (once : l.toList.Nodup) : l.laneOf? x = some lane ↔ x ∈ l.get lane := by
  have hfound : ∀ found, l.laneOf? x = some found → x ∈ l.get found := by
    intro found h
    rw [laneOf?] at h
    exact holds_iff.mp (List.find?_some (p := fun lane => l.holds lane x) h)
  refine ⟨hfound lane, fun hmem => ?_⟩
  cases hlane : l.laneOf? x with
  | none => exact absurd hmem (laneOf?_eq_none_iff.mp hlane lane)
  | some found => rw [lane_unique once (hfound found hlane) hmem]

/-! ## Acts -/

/-- Who has come and gone. -/
structure Traffic (α : Type) where
  /-- Those who have joined a lane. -/
  joined : List α
  /-- Those who have been taken as the next in line. -/
  served : List α
  /-- Those who have left a lane. -/
  left : List α
  /-- Those who have been taken out by a test. -/
  extracted : List α

namespace Traffic

/-- Nobody has come. -/
def none : Traffic α := ⟨[], [], [], []⟩

/-- Who has come and gone earlier and later. -/
def append (t later : Traffic α) : Traffic α :=
  ⟨t.joined ++ later.joined, t.served ++ later.served, t.left ++ later.left,
    t.extracted ++ later.extracted⟩

/-- All who have gone. -/
def gone (t : Traffic α) : List α := t.served ++ t.left ++ t.extracted

end Traffic

/-- The lanes after an act. What is refused changes nothing. -/
def act (l : Lanes α) : LaneAct α → Lanes α
  | .join lane x => (l.join? lane x).getD l
  | .next => (l.takeNext?.map Prod.snd).getD l
  | .leave lane x => (l.leave? lane x).getD l
  | .extract lane select memory => (l.extractAsking lane select memory).2.1

/-- Who comes and goes by an act. -/
def traffic (l : Lanes α) : LaneAct α → Traffic α
  | .join lane x => { Traffic.none with joined := if (l.join? lane x).isSome then [x] else [] }
  | .next => { Traffic.none with served := (l.takeNext?.map Prod.fst).toList }
  | .leave lane x => { Traffic.none with left := if (l.leave? lane x).isSome then [x] else [] }
  | .extract lane select memory =>
    { Traffic.none with extracted := (l.extractAsking lane select memory).1 }

/-- Who stands somewhere joins no lane. -/
theorem join?_eq_none (h : x ∈ l.get other) (lane : Lane) : l.join? lane x = none := by
  have hsome : l.laneOf? x ≠ none := fun hnone => laneOf?_eq_none_iff.mp hnone other h
  obtain ⟨found, hfound⟩ := Option.ne_none_iff_exists'.mp hsome
  rw [join?, hfound]

/-- By an act nobody is lost or doubled. -/
theorem act_perm (l : Lanes α) (a : LaneAct α) :
    ((l.act a).toList ++ (l.traffic a).gone).Perm (l.toList ++ (l.traffic a).joined) := by
  cases a with
  | join lane x =>
    by_cases habsent : ∀ other, x ∉ l.get other
    · have hmoved : ((l.get lane ++ [x]) ++ []).Perm (l.get lane ++ [x]) := by
        rw [List.append_nil]
      simp only [act, traffic, join?_eq_some habsent lane]
      exact toList_set_perm hmoved
    · obtain ⟨other, hmem⟩ := not_forall_not.mp habsent
      simp only [act, traffic, join?_eq_none hmem lane]
      exact .refl _
  | next =>
    cases hmain : l.main with
    | nil =>
      simp only [act, traffic, takeNext?_eq_none hmain]
      exact .refl _
    | cons x rest =>
      have hget : l.get .main = x :: rest := hmain
      have hmoved : ((l.get .main).erase x ++ [x]).Perm (l.get .main ++ []) := by
        rw [hget, List.erase_cons_head, List.append_nil]
        exact List.perm_append_singleton x rest
      simp only [act, traffic, takeNext?_eq hmain]
      exact toList_set_perm hmoved
  | leave lane x =>
    by_cases hmem : x ∈ l.get lane
    · have hmoved : ((l.get lane).erase x ++ [x]).Perm (l.get lane ++ []) := by
        rw [List.append_nil]
        exact (List.perm_append_singleton x _).trans (List.perm_cons_erase hmem).symm
      simp only [act, traffic, leave?_eq_some hmem]
      exact toList_set_perm hmoved
    · simp only [act, traffic, leave?_eq_none hmem]
      exact .refl _
  | extract lane select memory =>
    have hasked : ((ask select memory (l.get lane)).2.1 ++ (ask select memory (l.get lane)).1).Perm
        (l.get lane ++ []) := by
      rw [List.append_nil]
      exact ask_perm select memory (l.get lane)
    exact toList_set_perm hasked

/-- Who joins by an act has stood nowhere. -/
theorem nodup_append_joined (once : l.toList.Nodup) (a : LaneAct α) :
    (l.toList ++ (l.traffic a).joined).Nodup := by
  have hnobody : (l.toList ++ []).Nodup := by rwa [List.append_nil]
  cases a with
  | join lane x =>
    by_cases habsent : ∀ other, x ∉ l.get other
    · have hnew : x ∉ l.toList := fun hmem =>
        (mem_toList.mp hmem).elim habsent
      simp only [traffic, join?_eq_some habsent lane]
      exact (List.perm_append_singleton x l.toList).nodup_iff.mpr (List.nodup_cons.mpr ⟨hnew, once⟩)
    · obtain ⟨other, hmem⟩ := not_forall_not.mp habsent
      simp only [traffic, join?_eq_none hmem lane]
      exact hnobody
  | _ => exact hnobody

/-- After an act nobody stands in two places. -/
theorem nodup_act (once : l.toList.Nodup) (a : LaneAct α) : (l.act a).toList.Nodup :=
  ((act_perm l a).nodup_iff.mpr (nodup_append_joined once a)).of_append_left

/-! ## One act after another -/

/-- The lanes after some acts. -/
def actAll (l : Lanes α) (acts : List (LaneAct α)) : Lanes α := acts.foldl act l

/-- Who comes and goes by some acts. -/
def trafficAll (l : Lanes α) : List (LaneAct α) → Traffic α
  | [] => .none
  | a :: acts => (l.traffic a).append ((l.act a).trafficAll acts)

/-- Whatever is done, nobody is lost or doubled. -/
theorem actAll_perm (l : Lanes α) (acts : List (LaneAct α)) :
    ((l.actAll acts).toList ++ (l.trafficAll acts).gone).Perm
      (l.toList ++ (l.trafficAll acts).joined) := by
  induction acts generalizing l with
  | nil => exact .refl _
  | cons a acts ih =>
    have hfirst := act_perm l a
    have hlater := ih (l.act a)
    rw [List.perm_iff_count] at hfirst hlater ⊢
    intro x
    have hx := hfirst x
    have hx' := hlater x
    simp only [actAll, List.foldl_cons, trafficAll, Traffic.gone, Traffic.append,
      List.count_append] at hx hx' ⊢
    omega

/-- Whatever is done, nobody stands in two places. -/
theorem nodup_actAll (once : l.toList.Nodup) (acts : List (LaneAct α)) :
    (l.actAll acts).toList.Nodup := by
  induction acts generalizing l with
  | nil => exact once
  | cons a acts ih => exact ih (nodup_act once a)

/-- What lanes answer, and what acts make of them, where nobody stands in two places. -/
structure Lawful (l : Lanes α) : Prop where
  /-- Nobody occurs twice in the lanes together. -/
  once : l.toList.Nodup
  /-- Who stands in a lane is found there, and nowhere else. -/
  found : ∀ x lane, l.laneOf? x = some lane ↔ x ∈ l.get lane
  /-- Nobody stands in two lanes. -/
  alone : ∀ x lane other, x ∈ l.get lane → x ∈ l.get other → lane = other
  /-- Who stands nowhere joins a lane, at its back. -/
  joins : ∀ lane x, (∀ other, x ∉ l.get other) → (l.join? lane x).isSome = true ∧
    ∀ other, (l.act (.join lane x)).get other =
      if lane = other then l.get lane ++ [x] else l.get other
  /-- Who stands somewhere does not, and nothing changes. -/
  stays : ∀ lane other x, x ∈ l.get other →
    (l.join? lane x).isSome = false ∧ l.act (.join lane x) = l
  /-- The next in line is the first in the main lane. -/
  serves : ∀ x rest, l.main = x :: rest → l.takeNext?.map Prod.fst = some x ∧
    ∀ other, (l.act .next).get other = if .main = other then rest else l.get other
  /-- Who stands in a lane leaves it, and the others stay in their order. -/
  leaves : ∀ lane x, x ∈ l.get lane → (l.leave? lane x).isSome = true ∧
    ∀ other, (l.act (.leave lane x)).get other =
      if lane = other then (l.get lane).filter (· ≠ x) else l.get other
  /-- Who does not stand in it does not, wherever else it may stand, and nothing changes. -/
  remains : ∀ lane x, x ∉ l.get lane →
    (l.leave? lane x).isSome = false ∧ l.act (.leave lane x) = l
  /-- A test is asked about everyone in the lane once, in turn. Those with a yes are taken out in
  their order, and the others stay in theirs. -/
  extracts : ∀ {σ : Type} lane (select : σ → α → Bool × σ) (memory : σ),
    let t := l.extractAsking lane select memory
    let answers := answered select memory (l.get lane)
    t.1 = (answers.filter fun a => a.2).map Prod.fst ∧
      (∀ other, t.2.1.get other =
        if lane = other then (answers.filter fun a => ! a.2).map Prod.fst else l.get other) ∧
      t.2.2 = remembered select memory (l.get lane)
  /-- A test that keeps a list of whom it has been asked about, and answers as it likes, has the
  lane on its list. -/
  asks : ∀ lane (answer : List α → α → Bool),
    (l.extractAsking lane (fun asked x => (answer asked x, asked ++ [x])) []).2.2 = l.get lane
  /-- A test that remembers nothing takes out those whom it selects. -/
  selects : ∀ lane (select : α → Bool),
    let t := l.extractAsking lane (fun _ x => (select x, ())) ()
    l.extract lane select = (t.1, t.2.1)

theorem lawful_of_nodup (once : l.toList.Nodup) : l.Lawful where
  once := once
  found _ _ := laneOf?_eq_some_iff once
  alone _ _ _ h h' := lane_unique once h h'
  joins lane x habsent := by
    have hjoin := join?_eq_some habsent lane
    refine ⟨by rw [hjoin]; rfl, fun other => ?_⟩
    rw [act, hjoin]
    exact get_joined l lane other x
  stays lane other x hmem := by
    have hnone := join?_eq_none hmem lane
    exact ⟨by rw [hnone]; rfl, by rw [act, hnone]; rfl⟩
  serves x rest hmain := by
    have htake := takeNext?_eq hmain
    have hget : l.get .main = x :: rest := hmain
    refine ⟨by rw [htake]; rfl, fun other => ?_⟩
    rw [act, htake]
    refine (get_parted l .main other x).trans ?_
    rw [hget, List.erase_cons_head]
  leaves lane x hmem := by
    have hleave := leave?_eq_some hmem
    have herase : (l.get lane).erase x = (l.get lane).filter (· ≠ x) := by
      rw [(nodup_get once lane).erase_eq_filter x]
      exact List.filter_congr fun y _ => by by_cases hy : y = x <;> simp [hy]
    refine ⟨by rw [hleave]; rfl, fun other => ?_⟩
    rw [act, hleave, ← herase]
    exact get_parted l lane other x
  remains lane x hmem := by
    have hnone := leave?_eq_none hmem
    exact ⟨by rw [hnone]; rfl, by rw [act, hnone]; rfl⟩
  extracts lane select memory := by
    intro t answers
    have hask := ask_eq select memory (l.get lane)
    have ht : t = ((ask select memory (l.get lane)).1,
      l.set lane (ask select memory (l.get lane)).2.1,
      (ask select memory (l.get lane)).2.2) := rfl
    rw [ht, hask]
    exact ⟨rfl, fun other => get_set l lane other _, rfl⟩
  asks lane answer := by
    have hask := ask_eq (fun asked x => (answer asked x, asked ++ [x])) [] (l.get lane)
    have hlog := remembered_log answer [] (l.get lane)
    rw [List.nil_append] at hlog
    rw [extractAsking, hask]
    exact hlog
  selects lane select := by
    intro t
    have ht : t = _ := extractAsking_of_pure l lane select
    rw [ht]

/-- Whatever is done to four empty lanes, nobody ever stands in two places, and so every act does
what it should. All who have joined stand in a lane or have gone, each once. So the lengths of the
lanes add up to the number of those who have joined less those who have been served, who have left
and who have been taken out, and the lanes are empty exactly when that is none. -/
theorem lawful_in_use (acts : List (LaneAct α)) :
    let l : Lanes α := empty.actAll acts
    let t := (empty : Lanes α).trafficAll acts
    let standing := l.length .main + l.length .choice + l.length .starting + l.length .sent
    l.Lawful ∧ (l.toList ++ t.served ++ t.left ++ t.extracted).Perm t.joined ∧
      standing = t.joined.length - t.served.length - t.left.length - t.extracted.length ∧
      t.served.length + t.left.length + t.extracted.length ≤ t.joined.length ∧
      (l.isEmpty = true ↔ standing = 0) := by
  intro l t standing
  have honce : l.toList.Nodup := nodup_actAll (l := empty) List.nodup_nil acts
  have hperm : (l.toList ++ t.served ++ t.left ++ t.extracted).Perm t.joined := by
    have hall := actAll_perm (empty : Lanes α) acts
    rwa [Traffic.gone, ← List.append_assoc, ← List.append_assoc] at hall
  have hlength := hperm.length_eq
  have hstanding : l.toList.length = standing := length_toList l
  simp only [List.length_append] at hlength
  refine ⟨lawful_of_nodup honce, hperm, by omega, by omega, ?_⟩
  rw [isEmpty_iff, hstanding]

end Lanes

/-- The act that a call of lanes is, if it is one that may change them. -/
def LaneCall.act? : LaneCall → Option (LaneAct Nat)
  | .join lane member => some (.join lane member)
  | .next => some .next
  | .leave lane member => some (.leave lane member)
  | .extractListed lane members =>
    some (.extract lane (fun asked m => (members.contains m, asked ++ [m])) [])
  | .holds .. | .laneOf _ => none

/-- Calls of lanes make of them what the acts do that they are. -/
theorem Lanes.performAll_eq_actAll (calls : List LaneCall) (l : Lanes Nat) :
    (calls.foldl (fun l call => (l.perform call).2) l) =
      l.actAll (calls.filterMap LaneCall.act?) := by
  induction calls generalizing l with
  | nil => rfl
  | cons call calls ih =>
    rw [List.foldl_cons, ih]
    cases call with
    | next =>
      rw [List.filterMap_cons, perform, LaneCall.act?, actAll, actAll, List.foldl_cons, act]
      cases l.takeNext? <;> rfl
    | _ => rfl

end IntentRouter
