import IntentRouter.Proofs.Values

/-!
# What documents say of values

A document says a value of which it may write the members in any order, and several times: then the
last time counts. A number says an integer if it is one of 64 bits, and a floating-point number
otherwise. What is read from a document is what it says, as long as it is not nested too deeply. It
is the same with parameters, and with sets of names, which may be written in any order and with
repetitions.
-/

namespace IntentRouter

/-! ## Collections of the same contents -/

namespace Ascending

variable {α : Type} {key : α → String} {k : String} {x : α} {xs ys into : List α}

/-- An element is found under its key, and nothing else is. -/
theorem Ordered.find?_eq_some_iff (h : Ordered key xs) :
    find? key k xs = some x ↔ x ∈ xs ∧ key x = k := by
  constructor
  · intro hfind
    have hkey := List.find?_some hfind
    exact ⟨List.mem_of_find?_eq_some hfind, of_decide_eq_true hkey⟩
  · rintro ⟨hmem, rfl⟩
    obtain ⟨before, after, rfl⟩ := List.append_of_mem hmem
    have honce := h.nodup_map
    rw [List.map_append, List.map_cons, List.nodup_middle, List.nodup_cons] at honce
    refine List.find?_eq_some_iff_append.mpr
      ⟨decide_eq_true rfl, before, after, rfl, fun y hy => ?_⟩
    rw [Bool.not_eq_true', decide_eq_false_iff_not]
    exact fun hkey => honce.1 (List.mem_append_left _ (List.mem_map.mpr ⟨y, hy, hkey⟩))

/-- Elements that ascend are told by what is found under which key. -/
theorem Ordered.ext_find? (hxs : Ordered key xs) (hys : Ordered key ys)
    (h : ∀ k, find? key k xs = find? key k ys) : xs = ys := by
  refine hxs.ext hys fun x => ?_
  have hx := hxs.find?_eq_some_iff (k := key x) (x := x)
  have hy := hys.find?_eq_some_iff (k := key x) (x := x)
  rw [h, hy] at hx
  simpa only [and_true] using hx.symm

/-- The element that was put in last is found, or else what was there before. -/
theorem find?_insertAll (k : String) (xs into : List α) :
    find? key k (insertAll key xs into) =
      (find? key k xs.reverse).or (find? key k into) := by
  induction xs generalizing into with
  | nil => rfl
  | cons x xs ih =>
    have hstep : find? key k (insertAll key (x :: xs) into) =
        (find? key k xs.reverse).or (find? key k (insert key x into)) := ih _
    have hlast : find? key k (x :: xs).reverse =
        (find? key k xs.reverse).or (find? key k [x]) := by
      rw [List.reverse_cons, find?, List.find?_append]
      rfl
    have hput : find? key k (insert key x into) = (find? key k [x]).or (find? key k into) := by
      by_cases hx : key x = k
      · subst hx
        have hone : find? key (key x) [x] = some x := find?_insert_self key x []
        rw [find?_insert_self, hone, Option.some_or]
      · have hone : find? key k [x] = none := find?_insert_of_ne hx []
        rw [find?_insert_of_ne hx, hone, Option.none_or]
    rw [hstep, hlast, Option.or_assoc, hput]

theorem mem_insertAll_id {name : String} {names before : List String} :
    name ∈ insertAll id names before ↔ name ∈ names ∨ name ∈ before := by
  induction names generalizing before with
  | nil => simp [insertAll]
  | cons n names ih =>
    have hstep : name ∈ insertAll id (n :: names) before ↔
        name ∈ names ∨ name ∈ insert id n before := ih
    rw [hstep, mem_insert_id, List.mem_cons]
    tauto

end Ascending

/-- A set of names is read from a list with the same members. -/
theorem NameSet.ofList_eq_iff {names : List String} {s : NameSet} :
    ofList names = s ↔ ∀ name, name ∈ names ↔ name ∈ s.members := by
  have hmem : ∀ name, name ∈ (ofList names).members ↔ name ∈ names := fun name =>
    Ascending.mem_insertAll_id.trans (or_iff_left List.not_mem_nil)
  constructor
  · rintro rfl name
    exact (hmem name).symm
  · intro h
    have hmembers := (ofList names).ascending.ext s.ascending fun name => (hmem name).trans (h name)
    cases s
    cases hmembers
    rfl

namespace Json

/-! ## Values -/

namespace Value

mutual

/-- The document says the value. -/
inductive SaidBy : Value → Node → Prop where
  /-- The empty value. -/
  | null : SaidBy .null .null
  /-- A truth value. -/
  | bool (b : Bool) : SaidBy (.bool b) (.bool b)
  /-- An integer of 64 bits, without a point or an exponent. -/
  | int {i : Int} {m : Numeral} (h : m.int? = some i) : SaidBy (.int i) (.number m)
  /-- Any other number. -/
  | float {x : Double} {m : Numeral} (inexact : m.int? = none) (h : Double.ofNumeral? m = some x) :
    SaidBy (.float x) (.number m)
  /-- A readable text. -/
  | str (s : String) : SaidBy (.str s) (.ofString s)
  /-- An array, item by item. -/
  | arr {vs : List Value} {ns : List Node} (each : ItemsSaidBy vs ns) : SaidBy (.arr vs) (.list ns)
  /-- An object: under each key it has what was written for it last. -/
  | obj {written fields : List (String × Value)} {given : List (Option String × Node)}
    (each : MembersSaidBy written given) (ordered : Ascending.Ordered Prod.fst fields)
    (last : ∀ k, Ascending.find? Prod.fst k fields = Ascending.find? Prod.fst k written.reverse) :
    SaidBy (.obj fields) (.members given)

/-- The documents say the values, one by one. -/
inductive ItemsSaidBy : List Value → List Node → Prop where
  /-- There are none. -/
  | nil : ItemsSaidBy [] []
  /-- There is one, and others. -/
  | cons {v : Value} {n : Node} {vs : List Value} {ns : List Node} (first : SaidBy v n)
    (rest : ItemsSaidBy vs ns) : ItemsSaidBy (v :: vs) (n :: ns)

/-- The members say the named values, one by one. -/
inductive MembersSaidBy : List (String × Value) → List (Option String × Node) → Prop where
  /-- There are none. -/
  | nil : MembersSaidBy [] []
  /-- There is one with a readable key, and others. -/
  | cons {k : String} {v : Value} {n : Node} {written : List (String × Value)}
    {given : List (Option String × Node)} (first : SaidBy v n)
    (rest : MembersSaidBy written given) : MembersSaidBy ((k, v) :: written) ((some k, n) :: given)

end

/-- Members that are put in one after another leave, under each key, the last one. -/
theorem insertAll_eq_iff {written fields : List (String × Value)} :
    Ascending.insertAll Prod.fst written [] = fields ↔
      Ascending.Ordered Prod.fst fields ∧
        ∀ k, Ascending.find? Prod.fst k fields = Ascending.find? Prod.fst k written.reverse := by
  have hordered : Ascending.Ordered Prod.fst (Ascending.insertAll Prod.fst written []) :=
    Ascending.ordered_insertAll .nil
  have hfind : ∀ k, Ascending.find? Prod.fst k (Ascending.insertAll Prod.fst written []) =
      Ascending.find? Prod.fst k written.reverse := fun k =>
    (Ascending.find?_insertAll k written []).trans (Option.or_none)
  constructor
  · rintro rfl
    exact ⟨hordered, hfind⟩
  · rintro ⟨hfields, hlast⟩
    exact hordered.ext_find? hfields fun k => (hfind k).trans (hlast k).symm

theorem ofNumeral?_eq_some_iff {m : Numeral} {v : Value} :
    ofNumeral? m = some v ↔ v.SaidBy (.number m) := by
  unfold ofNumeral?
  cases hint : m.int? with
  | some i =>
    constructor
    · rintro ⟨⟩
      exact .int hint
    · intro h
      cases h with
      | int h =>
        cases hint.symm.trans h
        rfl
      | float inexact _ => cases hint.symm.trans inexact
  | none =>
    constructor
    · intro h
      obtain ⟨x, hx, rfl⟩ := Option.map_eq_some_iff.mp h
      exact .float hint hx
    · intro h
      cases h with
      | int h => cases hint.symm.trans h
      | float _ hx => exact Option.map_eq_some_iff.mpr ⟨_, hx, rfl⟩

mutual

/-- What is read is what the document says, if it is not nested too deeply. -/
theorem ofNode?_eq_some_iff {depth : Nat} {n : Node} {v : Value} :
    ofNode? depth n = some v ↔ v.SaidBy n ∧ n.nesting ≤ depth := by
  cases n with
  | null =>
    rw [ofNode?]
    constructor
    · rintro ⟨⟩
      exact ⟨.null, Nat.zero_le _⟩
    · rintro ⟨⟨⟩, -⟩
      rfl
  | bool b =>
    rw [ofNode?]
    constructor
    · rintro ⟨⟩
      exact ⟨.bool b, Nat.zero_le _⟩
    · rintro ⟨⟨⟩, -⟩
      rfl
  | number m =>
    rw [ofNode?, ofNumeral?_eq_some_iff]
    exact (and_iff_left (Nat.zero_le _)).symm
  | text s =>
    rw [ofNode?, Option.map_eq_some_iff]
    constructor
    · rintro ⟨s, rfl, rfl⟩
      exact ⟨.str s, Nat.zero_le _⟩
    · rintro ⟨⟨⟩, -⟩
      exact ⟨_, rfl, rfl⟩
  | list items =>
    cases depth with
    | zero =>
      rw [ofNode?]
      exact ⟨nofun, fun h => absurd h.2 (Nat.not_succ_le_zero _)⟩
    | succ depth =>
      rw [ofNode?, Option.map_eq_some_iff]
      constructor
      · rintro ⟨vs, hvs, rfl⟩
        obtain ⟨each, hnesting⟩ := ofItems?_eq_some_iff.mp hvs
        exact ⟨.arr each, Nat.succ_le_succ hnesting⟩
      · rintro ⟨h, hnesting⟩
        cases h with
        | arr each =>
          exact ⟨_, ofItems?_eq_some_iff.mpr ⟨each, Nat.le_of_succ_le_succ hnesting⟩, rfl⟩
  | members given =>
    cases depth with
    | zero =>
      rw [ofNode?]
      exact ⟨nofun, fun h => absurd h.2 (Nat.not_succ_le_zero _)⟩
    | succ depth =>
      rw [ofNode?, Option.map_eq_some_iff]
      constructor
      · rintro ⟨fields, hfields, rfl⟩
        obtain ⟨written, each, hinsert, hnesting⟩ := ofFields?_eq_some_iff.mp hfields
        obtain ⟨hordered, hlast⟩ := insertAll_eq_iff.mp hinsert
        exact ⟨.obj each hordered hlast, Nat.succ_le_succ hnesting⟩
      · rintro ⟨h, hnesting⟩
        cases h with
        | obj each ordered last =>
          exact ⟨_, ofFields?_eq_some_iff.mpr ⟨_, each, insertAll_eq_iff.mpr ⟨ordered, last⟩,
            Nat.le_of_succ_le_succ hnesting⟩, rfl⟩

theorem ofItems?_eq_some_iff {depth : Nat} {ns : List Node} {vs : List Value} :
    ofItems? depth ns = some vs ↔ ItemsSaidBy vs ns ∧ Node.nestingItems ns ≤ depth := by
  cases ns with
  | nil =>
    rw [ofItems?]
    constructor
    · rintro ⟨⟩
      exact ⟨.nil, Nat.zero_le _⟩
    · rintro ⟨⟨⟩, -⟩
      rfl
  | cons n ns =>
    rw [ofItems?]
    constructor
    · intro h
      split at h
      · cases h
      · next v hv =>
        obtain ⟨rest, hrest, rfl⟩ := Option.map_eq_some_iff.mp h
        obtain ⟨hfirst, hn⟩ := ofNode?_eq_some_iff.mp hv
        obtain ⟨hothers, hns⟩ := ofItems?_eq_some_iff.mp hrest
        exact ⟨.cons hfirst hothers, Nat.max_le.mpr ⟨hn, hns⟩⟩
    · rintro ⟨h, hnesting⟩
      obtain ⟨hn, hns⟩ := Nat.max_le.mp hnesting
      cases h with
      | cons first rest =>
        rw [ofNode?_eq_some_iff.mpr ⟨first, hn⟩]
        exact Option.map_eq_some_iff.mpr ⟨_, ofItems?_eq_some_iff.mpr ⟨rest, hns⟩, rfl⟩

/-- Members are read one after another and put in among those before. -/
theorem ofFields?_eq_some_iff {depth : Nat} {before fields : List (String × Value)}
    {given : List (Option String × Node)} :
    ofFields? depth before given = some fields ↔
      ∃ written, MembersSaidBy written given ∧
        Ascending.insertAll Prod.fst written before = fields ∧
        Node.nestingMembers given ≤ depth := by
  cases given with
  | nil =>
    rw [ofFields?]
    constructor
    · rintro ⟨⟩
      exact ⟨[], .nil, rfl, Nat.zero_le _⟩
    · rintro ⟨_, ⟨⟩, rfl, -⟩
      rfl
  | cons member given =>
    obtain ⟨key, n⟩ := member
    constructor
    · intro h
      simp only [ofFields?] at h
      split at h
      · next k v hv =>
        obtain ⟨written, heach, hinsert, hgiven⟩ := ofFields?_eq_some_iff.mp h
        obtain ⟨hfirst, hn⟩ := ofNode?_eq_some_iff.mp hv
        exact ⟨(k, v) :: written, .cons hfirst heach, hinsert, Nat.max_le.mpr ⟨hn, hgiven⟩⟩
      · cases h
    · rintro ⟨_, heach, hinsert, hnesting⟩
      obtain ⟨hn, hgiven⟩ := Nat.max_le.mp hnesting
      cases heach with
      | cons first rest =>
        have hread := ofNode?_eq_some_iff.mpr ⟨first, hn⟩
        simp only [ofFields?, hread]
        exact ofFields?_eq_some_iff.mpr ⟨_, rest, hinsert, hgiven⟩

end

end Value

/-! ## Parameters -/

namespace Parameters

/-- The document says the parameters, and at most so many containers are nested in it. -/
structure SaidBy (depth : Nat) (p : Parameters) (n : Node) : Prop where
  /-- It says them as an object. -/
  said : Value.SaidBy (.obj p.entries) n
  /-- It is not nested too deeply. -/
  nesting : n.nesting ≤ depth

theorem ofNode?_eq_some_iff {depth : Nat} {n : Node} {p : Parameters} :
    ofNode? depth n = some p ↔ p.SaidBy depth n := by
  have hread : ofNode? depth n = some p ↔ Value.ofNode? depth n = some (.obj p.entries) := by
    unfold ofNode?
    split
    · next fields hfields =>
      refine ⟨fun h => ?_, fun h => ?_⟩
      · cases h
        exact hfields
      · obtain ⟨entries, normal⟩ := p
        cases hfields.symm.trans h
        rfl
    · next hother => exact ⟨nofun, fun h => absurd h (hother _)⟩
  rw [hread, Value.ofNode?_eq_some_iff]
  exact ⟨fun h => ⟨h.1, h.2⟩, fun h => ⟨h.said, h.nesting⟩⟩

end Parameters

end Json

end IntentRouter
