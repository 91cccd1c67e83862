import Mathlib.Data.List.Nodup
import Mathlib.Tactic.Tauto
import IntentRouter.Lanes

/-!
# Who stands in which lane

Joining and leaving are seen through membership: who stands in a lane
afterwards, and when either is refused. Everything that is proved about lanes
elsewhere goes through these facts.
-/

namespace IntentRouter.Lanes

variable {α : Type} {l : Lanes α} {x y : α} {lane other : Lane}

/-- Changing a lane shows in that lane and in no other. -/
theorem get_set (l : Lanes α) (lane other : Lane) (content : List α) :
    (l.set lane content).get other = if lane = other then content else l.get other := by
  by_cases h : lane = other
  · subst h
    rw [if_pos rfl, get_set_self]
  · rw [if_neg h, get_set_of_ne l h]

/-- Everyone stands in some lane. -/
theorem mem_toList : x ∈ l.toList ↔ ∃ lane, x ∈ l.get lane := by
  simp only [toList, List.mem_flatMap]
  constructor
  · rintro ⟨lane, _, h⟩
    exact ⟨lane, h⟩
  · rintro ⟨lane, h⟩
    exact ⟨lane, by cases lane <;> decide, h⟩

/-- Nobody occurs twice in the lanes together when nobody occurs twice in any
lane or stands in two of them. -/
theorem nodup_toList (once : ∀ lane, (l.get lane).Nodup)
    (apart : ∀ lane other x, x ∈ l.get lane → x ∈ l.get other → lane = other) :
    l.toList.Nodup := by
  rw [toList, List.nodup_flatMap]
  refine ⟨fun lane _ => once lane, ?_⟩
  have hlanes : Lane.all.Pairwise (· ≠ ·) := by decide
  refine hlanes.imp fun {a b} hne => ?_
  intro x ha hb
  exact hne (apart a b x ha hb)

/-- No lane holds anyone in four empty lanes. -/
@[simp]
theorem get_empty (lane : Lane) : (empty : Lanes α).get lane = [] := by
  cases lane <;> rfl

/-- Nobody is next in an empty main lane. -/
theorem takeNext?_eq_none (h : l.main = []) : l.takeNext? = none := by
  rw [takeNext?, h]

/-- The lanes after someone has joined one at the back. -/
def joined (l : Lanes α) (lane : Lane) (x : α) : Lanes α := l.set lane (l.get lane ++ [x])

/-- Joining a lane changes that lane at the back. -/
theorem get_joined (l : Lanes α) (lane other : Lane) (x : α) :
    (l.joined lane x).get other = if lane = other then l.get lane ++ [x] else l.get other :=
  get_set l lane other _

/-- After joining, the newcomer stands in the lane besides everyone else. -/
theorem mem_joined :
    y ∈ (l.joined lane x).get other ↔ y ∈ l.get other ∨ (y = x ∧ lane = other) := by
  rw [get_joined]
  by_cases h : lane = other
  · subst h
    simp
  · simp [h]

/-- Nobody is twice in a lane joined by someone who was not there. -/
theorem nodup_joined (once : (l.get other).Nodup) (absent : x ∉ l.get lane) :
    ((l.joined lane x).get other).Nodup := by
  rw [get_joined]
  by_cases h : lane = other
  · subst h
    rw [if_pos rfl]
    exact List.nodup_append.mpr ⟨once, by simp, by
      intro a ha b hb hab
      rw [List.mem_singleton.mp hb] at hab
      exact absent (hab ▸ ha)⟩
  · rwa [if_neg h]

variable [DecidableEq α]

/-- Whoever joins a lane, the others stand where they stood, in their order. -/
theorem filter_joined (l : Lanes α) (lane other : Lane) (x : α) :
    ((l.joined lane x).get other).filter (· ≠ x) = (l.get other).filter (· ≠ x) := by
  rw [get_joined]
  by_cases h : lane = other
  · subst h
    simp
  · rw [if_neg h]

/-- The lanes after someone has left one. -/
def parted (l : Lanes α) (lane : Lane) (x : α) : Lanes α := l.set lane ((l.get lane).erase x)

/-- Leaving a lane changes that lane only. -/
theorem get_parted (l : Lanes α) (lane other : Lane) (x : α) :
    (l.parted lane x).get other = if lane = other then (l.get lane).erase x else l.get other :=
  get_set l lane other _

/-- After leaving, everyone but the one who left stands where they stood. -/
theorem mem_parted (once : (l.get lane).Nodup) :
    y ∈ (l.parted lane x).get other ↔ y ∈ l.get other ∧ ¬ (y = x ∧ lane = other) := by
  rw [get_parted]
  by_cases h : lane = other
  · subst h
    rw [if_pos rfl, once.mem_erase_iff]
    tauto
  · simp [h]

/-- Nobody is twice in a lane that someone has left. -/
theorem nodup_parted (once : ∀ lane, (l.get lane).Nodup) :
    ((l.parted lane x).get other).Nodup := by
  rw [get_parted]
  split
  · exact (once lane).erase x
  · exact once other

/-- Whoever leaves a lane, the others stand where they stood, in their order. -/
theorem filter_parted (once : ∀ lane, (l.get lane).Nodup) (lane other : Lane) (x : α) :
    ((l.parted lane x).get other).filter (· ≠ x) = (l.get other).filter (· ≠ x) := by
  rw [get_parted]
  by_cases h : lane = other
  · subst h
    rw [if_pos rfl, (once lane).erase_eq_filter, List.filter_filter]
    refine List.filter_congr fun y _ => ?_
    by_cases hy : y = x <;> simp [hy]
  · rw [if_neg h]

/-- A lane holds exactly those who stand in it. -/
theorem holds_iff : l.holds lane x = true ↔ x ∈ l.get lane := by
  rw [holds, List.contains_iff_mem]

/-- Nobody finds a lane for one who stands in none. -/
theorem laneOf?_eq_none_iff : l.laneOf? x = none ↔ ∀ lane, x ∉ l.get lane := by
  rw [laneOf?, List.find?_eq_none]
  constructor
  · intro h lane hx
    exact h lane (by cases lane <;> decide) (holds_iff.mpr hx)
  · intro h lane _ hx
    exact h lane (holds_iff.mp hx)

/-- Whoever stands in the same lanes is found in the same lane. -/
theorem laneOf?_congr {l' : Lanes α} (h : ∀ lane, x ∈ l.get lane ↔ x ∈ l'.get lane) :
    l.laneOf? x = l'.laneOf? x := by
  have hholds : ∀ lane, l.holds lane x = l'.holds lane x := by
    intro lane
    rw [Bool.eq_iff_iff, holds_iff, holds_iff]
    exact h lane
  rw [laneOf?, laneOf?, funext hholds]

/-- Whoever stands in no lane may join any. -/
theorem join?_eq_some (absent : ∀ other, x ∉ l.get other) (lane : Lane) :
    l.join? lane x = some (l.joined lane x) := by
  rw [join?, laneOf?_eq_none_iff.mpr absent]
  rfl

/-- Whoever stands in a lane may leave it. -/
theorem leave?_eq_some (h : x ∈ l.get lane) : l.leave? lane x = some (l.parted lane x) := by
  rw [leave?, if_pos (holds_iff.mpr h)]
  rfl

/-- Nobody leaves a lane without standing in it. -/
theorem leave?_eq_none (h : x ∉ l.get lane) : l.leave? lane x = none := by
  rw [leave?, if_neg fun hh => h (holds_iff.mp hh)]

/-- The next in line leaves the main lane. -/
theorem takeNext?_eq {rest : List α} (h : l.main = x :: rest) :
    l.takeNext? = some (x, l.parted .main x) := by
  have hrest : l.parted .main x = { l with main := rest } := by
    simp only [parted, get, h, List.erase_cons_head]
    rfl
  rw [takeNext?, h, hrest]

end IntentRouter.Lanes
