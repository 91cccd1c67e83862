import IntentRouter.Json.Value
import IntentRouter.NameSet
import IntentRouter.Proofs.Reordering

/-!
# Values are read back

A value without floating-point numbers is read back from its document in whatever order the members
of objects are written, because reading puts them in their order again. The same is true of
parameters, and of the members of a set of names.
-/

namespace IntentRouter

/-! ## Putting members in order -/

namespace Ascending

variable {α : Type} {key : α → String} {x : α} {xs ys into : List α}

/-- An element of a new key is put among the others. -/
theorem insert_perm (h : key x ∉ xs.map key) : (insert key x xs).Perm (x :: xs) := by
  induction xs with
  | nil => exact .refl _
  | cons y ys ih =>
    rw [List.map_cons, List.mem_cons, not_or] at h
    obtain ⟨hne, hys⟩ := h
    by_cases hlt : key x < key y
    · rw [insert, if_pos hlt]
    · rw [insert, if_neg hlt, if_neg hne]
      exact ((ih hys).cons y).trans (.swap x y ys)

/-- Elements of different keys are all put among the others. -/
theorem insertAll_perm (h : ((xs ++ into).map key).Nodup) :
    (insertAll key xs into).Perm (xs ++ into) := by
  induction xs generalizing into with
  | nil => exact .refl _
  | cons x xs ih =>
    have hx : key x ∉ into.map key := by
      rw [List.cons_append, List.map_cons, List.nodup_cons, List.map_append, List.mem_append,
        not_or] at h
      exact h.1.2
    have hperm : (xs ++ insert key x into).Perm (x :: xs ++ into) :=
      ((insert_perm hx).append_left xs).trans List.perm_middle
    exact (ih ((hperm.map key).nodup_iff.mpr h)).trans hperm

theorem Ordered.nodup_map (h : Ordered key xs) : (xs.map key).Nodup := h.imp String.ne_of_lt

/-- Elements that ascend are told by which they are. -/
theorem Ordered.ext (hxs : Ordered key xs) (hys : Ordered key ys) (h : ∀ x, x ∈ xs ↔ x ∈ ys) :
    xs = ys := by
  have hperm : xs.Perm ys := (List.perm_ext_iff_of_nodup (hxs.nodup_map.of_map key)
    (hys.nodup_map.of_map key)).mpr h
  have hanti : ∀ x y : α, key x < key y → key y < key x → x = y := fun _ _ hlt hgt =>
    absurd hgt (String.lt_asymm hlt)
  exact hperm.eq_of_pairwise (fun x y _ _ => hanti x y) (List.pairwise_map.mp hxs)
    (List.pairwise_map.mp hys)

/-- Elements that ascend come out as they are in whatever order they are put in. -/
theorem insertAll_of_perm (h : Ordered key ys) (hperm : xs.Perm ys) : insertAll key xs [] = ys := by
  have honce : ((xs ++ []).map key).Nodup := by
    rw [List.append_nil, (hperm.map key).nodup_iff]
    exact h.nodup_map
  have hall : (insertAll key xs []).Perm ys := by
    have hinsert := insertAll_perm honce
    rw [List.append_nil] at hinsert
    exact hinsert.trans hperm
  have hordered : Ordered key (insertAll key xs []) := ordered_insertAll .nil
  exact hordered.ext h fun _ => hall.mem_iff

end Ascending

/-- A set is made of its members. -/
theorem NameSet.ofList_members (s : NameSet) : ofList s.members = s := by
  obtain ⟨members, hascending⟩ := s
  rw [ofList, insertAll, NameSet.mk.injEq]
  exact Ascending.insertAll_of_perm hascending (.refl _)

namespace Json

/-! ## Values -/

namespace Value

mutual

/-- There are no floating-point numbers in the value, and all integers in it fit 64 bits, with a
sign or without. -/
def Exact : Value → Prop
  | .int i => -9223372036854775808 ≤ i ∧ i ≤ 18446744073709551615
  | .float _ => False
  | .arr items => ExactItems items
  | .obj fields => ExactFields fields
  | _ => True

/-- All items are exact. -/
def ExactItems : List Value → Prop
  | [] => True
  | v :: vs => Exact v ∧ ExactItems vs

/-- All members have an exact value. -/
def ExactFields : List (String × Value) → Prop
  | [] => True
  | (_, v) :: rest => Exact v ∧ ExactFields rest

end

theorem toFields_eq_map (fields : List (String × Value)) :
    toFields fields = fields.map fun (k, v) => (some k, v.toNode) := by
  induction fields with
  | nil => rfl
  | cons field rest ih =>
    obtain ⟨k, v⟩ := field
    rw [toFields, ih, List.map_cons]

mutual

theorem Exact.printable {v : Value} (h : v.Exact) : v.toNode.Printable := by
  cases v with
  | int i => exact Numeral.plain_ofInt i
  | float x => cases h
  | arr items => exact ExactItems.printable h
  | obj fields => exact ExactFields.printable h
  | _ => trivial

theorem ExactItems.printable {vs : List Value} (h : ExactItems vs) :
    Node.PrintableItems (toItems vs) := by
  cases vs with
  | nil => trivial
  | cons v rest => exact ⟨h.1.printable, ExactItems.printable h.2⟩

theorem ExactFields.printable {fields : List (String × Value)} (h : ExactFields fields) :
    Node.PrintableMembers (toFields fields) := by
  cases fields with
  | nil => trivial
  | cons field rest =>
    obtain ⟨k, v⟩ := field
    exact ⟨rfl, h.1.printable, ExactFields.printable h.2⟩

end

/-- Members are put in one after another as they are read. -/
theorem ofFields?_of_reads {ys read : List (String × Value)}
    {given : List (Option String × Node)} {depth : Nat}
    (heach : List.Forall₂ (fun y => Node.ReorderedMember (some y.1, y.2.toNode)) ys given)
    (hreads : ∀ y ∈ ys, Node.Reads ofNode? y.2.toNode y.2)
    (hnesting : ∀ g ∈ given, g.2.nesting ≤ depth) :
    ofFields? depth read given = some (Ascending.insertAll Prod.fst ys read) := by
  induction heach generalizing read with
  | nil => rfl
  | @cons y g ys given hmember _ ih =>
    obtain ⟨hy, hys⟩ := List.forall_mem_cons.mp hreads
    obtain ⟨hg, hgiven⟩ := List.forall_mem_cons.mp hnesting
    obtain ⟨k, v⟩ := y
    cases hmember with
    | @mk _ _ n hvalue =>
      have hread : ofNode? depth n = some v := hy n depth hvalue hg
      simp only [ofFields?, hread]
      exact ih hys hgiven

mutual

/-- A value is read from its document, in whatever order members are written. -/
theorem Exact.reads {v : Value} (h : v.Exact) (hnormal : v.Normal) :
    Node.Reads ofNode? v.toNode v := by
  intro n depth hn hdepth
  cases v with
  | null =>
    cases hn
    rw [ofNode?]
  | bool b =>
    cases hn
    rw [ofNode?]
  | int i =>
    cases hn
    rw [ofNode?, ofNumeral?, Numeral.int?_ofInt h.1 h.2]
  | float x => cases h
  | str s =>
    cases hn
    rw [ofNode?]
    rfl
  | arr items =>
    obtain ⟨ns, heach, rfl⟩ := Node.Reordered.of_list hn
    obtain ⟨depth, rfl, hinner⟩ := Node.exists_inner hdepth
    have hread := ExactItems.reads h hnormal heach hinner
    rw [ofNode?, hread, Option.map_some]
  | obj fields =>
    obtain ⟨hordered, hfields⟩ := hnormal
    rw [toNode, toFields_eq_map] at hn
    obtain ⟨ys, given, hperm, heach, rfl⟩ := Node.Reordered.of_members hn
    obtain ⟨depth, rfl, hinner⟩ := Node.exists_inner hdepth
    have hreads := ExactFields.reads h hfields
    have hnesting : ∀ g ∈ given, g.2.nesting ≤ depth := fun g hg =>
      Nat.le_trans (Node.nesting_le_members hg) hinner
    have hread : ofFields? depth [] given = some (Ascending.insertAll Prod.fst ys []) :=
      ofFields?_of_reads heach (fun y hy => hreads y (hperm.mem_iff.mpr hy)) hnesting
    -- The members may have been put in in another order, but they ascend again.
    rw [ofNode?, hread, Ascending.insertAll_of_perm hordered hperm.symm, Option.map_some]

/-- Items are read one after another. -/
theorem ExactItems.reads {vs : List Value} {ns : List Node} {depth : Nat} (h : ExactItems vs)
    (hnormal : NormalItems vs) (heach : List.Forall₂ Node.Reordered (toItems vs) ns)
    (hdepth : Node.nestingItems ns ≤ depth) : ofItems? depth ns = some vs := by
  cases vs with
  | nil =>
    cases heach
    rfl
  | cons v rest =>
    cases heach with
    | @cons _ n _ ns hn hrest =>
      obtain ⟨hnesting, hnestings⟩ := Nat.max_le.mp hdepth
      have hv := h.1.reads hnormal.1 n depth hn hnesting
      rw [ofItems?, hv, ExactItems.reads h.2 hnormal.2 hrest hnestings]
      rfl

/-- Every member has a value that is read. -/
theorem ExactFields.reads {fields : List (String × Value)} (h : ExactFields fields)
    (hnormal : NormalFields fields) :
    ∀ field ∈ fields, Node.Reads ofNode? field.2.toNode field.2 := by
  cases fields with
  | nil => exact fun _ => nofun
  | cons field rest =>
    obtain ⟨k, v⟩ := field
    exact List.forall_mem_cons.mpr ⟨h.1.reads hnormal.1, ExactFields.reads h.2 hnormal.2⟩

end

end Value

/-! ## Parameters -/

namespace Parameters

variable {p : Parameters}

/-- All values are exact. -/
def Exact (p : Parameters) : Prop := Value.ExactFields p.entries

theorem Exact.printable (h : p.Exact) : p.toNode.Printable := Value.ExactFields.printable h

/-- Parameters are read from their document, in whatever order members are written. -/
theorem Exact.reads (h : p.Exact) : Node.Reads ofNode? p.toNode p := by
  intro n depth hn hdepth
  have hobject : (Value.obj p.entries).Exact := h
  have hread : Value.ofNode? depth n = some (.obj p.entries) :=
    hobject.reads p.normal n depth hn hdepth
  rw [ofNode?]
  split
  · next fields hfields =>
    rw [hread] at hfields
    cases hfields
    rfl
  · next hother => exact absurd hread (hother _)

end Parameters

end Json

end IntentRouter
