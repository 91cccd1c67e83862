/-!
# Lists in ascending order of a text key

Sets of names and tables from names to values are kept as lists whose keys
strictly ascend, so that two collections with the same contents are the same
list. Insertion replaces the element that has the same key. The order is the
order of the code points.
-/

namespace IntentRouter.Ascending

variable {α : Type}

/-- The keys strictly ascend, so no key occurs twice. -/
def Ordered (key : α → String) (xs : List α) : Prop :=
  (xs.map key).Pairwise (· < ·)

instance (key : α → String) (xs : List α) : Decidable (Ordered key xs) :=
  inferInstanceAs (Decidable ((xs.map key).Pairwise (· < ·)))

/-- Puts an element at the place of its key, over any element with that key. -/
def insert (key : α → String) (x : α) : List α → List α
  | [] => [x]
  | y :: ys =>
    if key x < key y then x :: y :: ys
    else if key x = key y then x :: ys
    else y :: insert key x ys

/-- The element with the given key, if there is one. -/
def find? (key : α → String) (k : String) (xs : List α) : Option α :=
  xs.find? fun x => key x = k

/-- Drops the element with the given key. -/
def erase (key : α → String) (k : String) (xs : List α) : List α :=
  xs.filter fun x => key x ≠ k

/-- Inserts the elements one after another, so a later one replaces an earlier. -/
def insertAll (key : α → String) (xs : List α) (into : List α) : List α :=
  xs.foldl (fun ys x => insert key x ys) into

/-- What an insertion leaves is the new element and elements that were there. -/
theorem mem_insert {key : α → String} {x y : α} {xs : List α}
    (h : y ∈ insert key x xs) : y = x ∨ y ∈ xs := by
  induction xs with
  | nil => simpa [insert] using h
  | cons z zs ih =>
    simp only [insert] at h
    split at h
    · simpa using h
    · split at h
      · rcases List.mem_cons.1 h with rfl | h
        · exact .inl rfl
        · exact .inr (List.mem_cons_of_mem _ h)
      · rcases List.mem_cons.1 h with rfl | h
        · exact .inr (List.mem_cons_self ..)
        · rcases ih h with rfl | h
          · exact .inl rfl
          · exact .inr (List.mem_cons_of_mem _ h)

/-- Where elements are their own keys, an insertion adds one and loses none. -/
theorem mem_insert_id (y x : String) (xs : List String) :
    y ∈ insert id x xs ↔ y = x ∨ y ∈ xs := by
  induction xs with
  | nil => simp [insert]
  | cons z zs ih =>
    simp only [insert, id_eq]
    split
    · simp
    · split
      · next heq => simp [heq]
      · simp only [List.mem_cons, ih]
        exact or_left_comm

/-- An insertion keeps the order. -/
theorem ordered_insert {key : α → String} {x : α} {xs : List α}
    (h : Ordered key xs) : Ordered key (insert key x xs) := by
  induction xs with
  | nil => simp [insert, Ordered]
  | cons z zs ih =>
    simp only [Ordered, List.map_cons, List.pairwise_cons] at h
    simp only [insert]
    split
    · next hlt =>
      simp only [Ordered, List.map_cons, List.pairwise_cons]
      refine ⟨fun k hk => ?_, h⟩
      rcases List.mem_cons.1 hk with rfl | hk
      · exact hlt
      · exact String.lt_trans hlt (h.1 k hk)
    · next hlt =>
      split
      · next heq =>
        simp only [Ordered, List.map_cons, List.pairwise_cons]
        exact ⟨fun k hk => heq ▸ h.1 k hk, h.2⟩
      · next hne =>
        have hgt : key z < key x := by grind
        simp only [Ordered, List.map_cons, List.pairwise_cons]
        refine ⟨fun k hk => ?_, ih h.2⟩
        obtain ⟨y, hy, rfl⟩ := List.mem_map.1 hk
        rcases mem_insert hy with rfl | hy
        · exact hgt
        · exact h.1 _ (List.mem_map_of_mem hy)

/-- Inserting many elements keeps the order. -/
theorem ordered_insertAll {key : α → String} {xs into : List α}
    (h : Ordered key into) : Ordered key (insertAll key xs into) := by
  induction xs generalizing into with
  | nil => exact h
  | cons x xs ih => exact ih (ordered_insert h)

/-- An inserted element is found under its key. -/
theorem find?_insert_self (key : α → String) (x : α) (xs : List α) :
    find? key (key x) (insert key x xs) = some x := by
  induction xs with
  | nil => simp [insert, find?]
  | cons y ys ih =>
    simp only [insert]
    split
    · simp [find?]
    · split
      · simp [find?]
      · next hne =>
        rw [find?, List.find?_cons_of_neg (by simpa using Ne.symm hne)]
        exact ih

/-- An insertion does not change what is found under another key. -/
theorem find?_insert_of_ne {key : α → String} {k : String} {x : α} (h : key x ≠ k)
    (xs : List α) : find? key k (insert key x xs) = find? key k xs := by
  induction xs with
  | nil => simp [insert, find?, h]
  | cons y ys ih =>
    simp only [insert]
    split
    · simp [find?, h]
    · split
      · next heq => simp [find?, h, ← heq]
      · simp only [find?, List.find?_cons] at ih ⊢
        rw [ih]

/-- Nothing is found under a key that has been dropped. -/
theorem find?_erase_self (key : α → String) (k : String) (xs : List α) :
    find? key k (erase key k xs) = none := by
  simp [find?, erase]

/-- Dropping a key does not change what is found under another one. -/
theorem find?_erase_of_ne {key : α → String} {j k : String} (h : j ≠ k) (xs : List α) :
    find? key k (erase key j xs) = find? key k xs := by
  rw [find?, erase, List.find?_filter, find?]
  congr 1
  funext x
  by_cases hx : key x = k
  · simp [hx, Ne.symm h]
  · simp [hx]

end IntentRouter.Ascending
