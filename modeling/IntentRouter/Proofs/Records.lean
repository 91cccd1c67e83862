import IntentRouter.Json.Record
import Mathlib.Data.List.Count
import Mathlib.Data.List.Nodup

/-!
# What is written for a record

An object writes a field of a record where it has a member of that name, wherever that stands and
whatever other members there are; an array writes the first fields. What is read is what has been
written, so neither the order of the members nor the unknown ones among them, nor which of the two
forms is used, make a difference. A field that is written twice, or an item that belongs to no
field, makes the document unreadable.
-/

namespace IntentRouter.Json

/-! ## Looking up fields -/

namespace Fields

variable {fields fields' : Fields} {name : String} {n : Node}

theorem lookup_eq_some_iff_mem (h : (fields.map Prod.fst).Nodup) :
    fields.lookup name = some n ↔ (name, n) ∈ fields := by
  rw [List.lookup_eq_some_iff]
  constructor
  · rintro ⟨before, after, rfl, -⟩
    exact List.mem_append_right _ List.mem_cons_self
  · intro hmem
    obtain ⟨before, after, rfl⟩ := List.append_of_mem hmem
    refine ⟨before, after, rfl, fun p hp => ?_⟩
    rw [List.map_append, List.map_cons, List.nodup_middle, List.nodup_cons] at h
    refine bne_iff_ne.mpr fun he => h.1 ?_
    exact List.mem_append_left _ (List.mem_map.mpr ⟨p, hp, he.symm⟩)

/-- The order of fields does not matter when they are looked up. -/
theorem lookup_perm (hperm : fields.Perm fields') (h : (fields.map Prod.fst).Nodup)
    (name : String) : fields.lookup name = fields'.lookup name := by
  have h' : (fields'.map Prod.fst).Nodup := (hperm.map Prod.fst).nodup_iff.mp h
  refine Option.ext fun n => ?_
  rw [lookup_eq_some_iff_mem h, lookup_eq_some_iff_mem h', hperm.mem_iff]

/-- A field that has a default is read as what is said by what is written, or else is the
default. -/
theorem defaulted?_eq_some_iff_map {α β : Type} {read : Node → Option α} {default a : α}
    {Says : Node → β → Prop} {f : β → α}
    (hread : ∀ n a, read n = some a ↔ ∃ b, Says n b ∧ f b = a) :
    fields.defaulted? name read default = some a ↔
      ∃ said, Option.Rel Says (fields.lookup name) said ∧ (said.map f).getD default = a := by
  unfold defaulted?
  cases fields.lookup name with
  | none =>
    constructor
    · exact fun h => ⟨none, .none, Option.some.inj h⟩
    · rintro ⟨said, hsaid, rfl⟩
      cases hsaid
      rfl
  | some n =>
    constructor
    · intro h
      obtain ⟨b, hmeans, hb⟩ := (hread n a).mp h
      exact ⟨some b, .some hmeans, hb⟩
    · rintro ⟨said, hsaid, ha⟩
      cases hsaid with
      | some hmeans => exact (hread n a).mpr ⟨_, hmeans, ha⟩

/-- A field that has a default is read as what is written, or else is the default. -/
theorem defaulted?_eq_some_iff {α : Type} {read : Node → Option α} {default a : α}
    {Says : Node → α → Prop} (hread : ∀ n a, read n = some a ↔ Says n a) :
    fields.defaulted? name read default = some a ↔
      ∃ said, Option.Rel Says (fields.lookup name) said ∧ said.getD default = a := by
  rw [defaulted?_eq_some_iff_map (f := id) fun n a => (hread n a).trans exists_eq_right.symm]
  simp only [Option.map_id_fun, id]

end Fields

namespace Node

variable {names : List String} {completeness : Completeness} {n m : Node} {name : String}
  {given fields written : Fields}

/-! ## Objects -/

/-- Members can be looked at when all keys are readable. -/
theorem readable_eq_some_iff (members : List (Option String × Node)) (fields : Fields) :
    (members.mapM fun (key, n) => key.map (·, n)) = some fields ↔
      members = fields.map fun (key, n) => (some key, n) := by
  induction members generalizing fields with
  | nil =>
    rw [List.mapM_nil]
    constructor
    · intro h
      cases h
      rfl
    · intro h
      rw [List.map_eq_nil_iff.mp h.symm]
      rfl
  | cons member rest ih =>
    obtain ⟨key, n⟩ := member
    rw [List.mapM_cons, Option.bind_eq_bind, Option.bind_eq_some_iff]
    constructor
    · rintro ⟨field, hfield, h⟩
      obtain ⟨key', rfl, rfl⟩ := Option.map_eq_some_iff.mp hfield
      obtain ⟨fields', hrest, hfields⟩ := Option.bind_eq_some_iff.mp h
      cases hfields
      rw [List.map_cons, (ih fields').mp hrest]
    · intro h
      obtain ⟨⟨key', n'⟩, fields', rfl, hmember, hrest⟩ := List.map_eq_cons_iff.mp h.symm
      cases hmember
      refine ⟨(key', n), rfl, ?_⟩
      rw [(ih fields').mpr hrest.symm]
      rfl

/-- An object with readable keys is read by the members that are known, unless one is repeated. -/
theorem fields?_object (names : List String) (completeness : Completeness) (depth : Nat)
    (given : Fields) :
    (object given).fields? names completeness (depth + 1) =
      let known := given.filter fun field => names.contains field.1
      if (known.map Prod.fst).Nodup then some known else none := by
  have hreadable := (readable_eq_some_iff (given.map fun (key, n) => (some key, n)) given).mpr rfl
  rw [object, fields?, hreadable]
  rfl

/-- The names of which fields of an array are the values occur once each. -/
theorem nodup_zip (h : names.Nodup) (items : List Node) :
    ((names.zip items).map Prod.fst).Nodup := by
  induction names generalizing items with
  | nil => exact .nil
  | cons name names ih =>
    obtain ⟨hname, hnames⟩ := List.nodup_cons.mp h
    cases items with
    | nil => exact .nil
    | cons item items =>
      refine List.nodup_cons.mpr ⟨fun hmem => hname ?_, ih hnames items⟩
      obtain ⟨⟨name', item'⟩, hzip, rfl⟩ := List.mem_map.mp hmem
      exact (List.of_mem_zip hzip).1

/-- An array of not too many items is read as the object with the fields at their places. -/
theorem fields?_list (hnames : names.Nodup) {items : List Node}
    (hfew : items.length ≤ names.length) (depth : Nat) :
    (list items).fields? names .defaulted (depth + 1) =
      (object (names.zip items)).fields? names .defaulted (depth + 1) := by
  have hknown : (names.zip items).filter (fun field => names.contains field.1) =
      names.zip items := by
    refine List.filter_eq_self.mpr fun (name, item) hfield => ?_
    exact List.contains_iff_mem.mpr (List.of_mem_zip hfield).1
  have honce := nodup_zip hnames items
  have hallowed : items.length = names.length ∨
      (Completeness.defaulted = .defaulted ∧ items.length < names.length) :=
    (Nat.eq_or_lt_of_le hfew).imp_right fun h => ⟨rfl, h⟩
  rw [fields?_object, fields?, if_pos hallowed]
  dsimp only
  rw [hknown, if_pos honce]

/-! ## What is written -/

/-- The document writes these fields of a record with the given names, each once. -/
inductive Gives (names : List String) : Node → Fields → Prop where
  /-- An object has them among its members, in any order and mixed with any that are not known; all
  keys are readable. -/
  | object {given written unknown : Fields} (mixed : given.Perm (written ++ unknown))
    (once : (written.map Prod.fst).Nodup) (known : ∀ field ∈ written, field.1 ∈ names)
    (others : ∀ field ∈ unknown, field.1 ∉ names) : Gives names (.object given) written
  /-- An array has as many items as it writes fields, the first ones. -/
  | array {items : List Node} (few : items.length ≤ names.length) :
    Gives names (.list items) (names.zip items)

/-- The document writes a value for a name, perhaps among others. -/
inductive Writes (names : List String) : Node → String → Node → Prop where
  /-- An object has it as a member. -/
  | member {members : List (Option String × Node)} {name : String} {n : Node}
    (known : name ∈ names) (mem : (some name, n) ∈ members) : Writes names (.members members) name n
  /-- An array has it in the place of the name. -/
  | item {items : List Node} {name : String} {n : Node} (mem : (name, n) ∈ names.zip items) :
    Writes names (.list items) name n

/-- The document writes too much for a record with the given names. -/
inductive Overwrites (names : List String) : Node → Prop where
  /-- An object has two members of the same known name. -/
  | repeated {members : List (Option String × Node)} {name : String} (known : name ∈ names)
    (twice : 2 ≤ (members.map Prod.fst).count (some name)) : Overwrites names (.members members)
  /-- An array has more items than there are fields. -/
  | extra {items : List Node} (many : names.length < items.length) : Overwrites names (.list items)

/-- What is written is read. -/
theorem Gives.fields? (h : n.Gives names written) (depth : Nat) :
    ∃ fields, n.fields? names .defaulted (depth + 1) = some fields ∧
      ∀ name, fields.lookup name = written.lookup name := by
  cases h with
  | @object given _ unknown mixed once known others =>
    have hwritten : (given.filter fun field => names.contains field.1).Perm written := by
      have hfilter := mixed.filter fun field => names.contains field.1
      rw [List.filter_append, List.filter_eq_self.mpr fun field hfield =>
        List.contains_iff_mem.mpr (known field hfield),
        List.filter_eq_nil_iff.mpr fun field hfield =>
          mt List.contains_iff_mem.mp (others field hfield), List.append_nil] at hfilter
      exact hfilter
    have honce := (hwritten.map Prod.fst).nodup_iff.mpr once
    refine ⟨given.filter fun field => names.contains field.1, ?_,
      fun name => Fields.lookup_perm hwritten honce name⟩
    rw [fields?_object]
    exact if_pos honce
  | @array items few =>
    refine ⟨names.zip items, ?_, fun _ => rfl⟩
    exact if_pos ((Nat.eq_or_lt_of_le few).imp_right fun h => ⟨rfl, h⟩)

/-- What is read has been written. -/
theorem Gives.of_fields? {depth : Nat}
    (h : n.fields? names .defaulted depth = some fields) : n.Gives names fields := by
  cases depth with
  | zero => cases n <;> cases h
  | succ depth =>
    cases n with
    | list items =>
      rw [Node.fields?] at h
      split at h
      · next hallowed =>
        cases h
        exact .array (hallowed.elim Nat.le_of_eq fun hfew => Nat.le_of_lt hfew.2)
      · cases h
    | members members =>
      rw [Node.fields?, Option.bind_eq_bind, Option.bind_eq_some_iff] at h
      obtain ⟨given, hreadable, h⟩ := h
      rw [(readable_eq_some_iff members given).mp hreadable]
      dsimp only at h
      split at h
      · next honce =>
        cases h
        refine .object (List.filter_append_perm (fun field => names.contains field.1) given).symm
          honce (fun field hfield => ?_) fun field hfield => ?_
        · exact List.contains_iff_mem.mp (List.mem_filter.mp hfield).2
        · have hnot := (List.mem_filter.mp hfield).2
          rw [Bool.not_eq_true'] at hnot
          exact fun hmem => Bool.eq_false_iff.mp hnot (List.contains_iff_mem.mpr hmem)
      · cases h
    | _ => cases h

/-- Where fields are given, each that is written is the one of its name. -/
theorem Gives.lookup (hnames : names.Nodup) (h : n.Gives names written)
    (hwrites : n.Writes names name m) : written.lookup name = some m := by
  cases h with
  | object mixed once known others =>
    cases hwrites with
    | member hname hmem =>
      obtain ⟨⟨name', n'⟩, hgiven, hfield⟩ := List.mem_map.mp hmem
      cases hfield
      refine (Fields.lookup_eq_some_iff_mem once).mpr ?_
      rcases List.mem_append.mp (mixed.mem_iff.mp hgiven) with hwritten | hunknown
      · exact hwritten
      · exact absurd hname (others _ hunknown)
  | array few =>
    cases hwrites with
    | item hmem => exact (Fields.lookup_eq_some_iff_mem (nodup_zip hnames _)).mpr hmem

/-- A document that writes too much gives no fields. -/
theorem Overwrites.not_gives (h : n.Overwrites names) : ¬ n.Gives names written := by
  intro hgives
  cases h with
  | extra many =>
    cases hgives with
    | array few => exact Nat.not_le_of_lt many few
  | @repeated members name known twice =>
    generalize hn : Node.members members = n at hgives
    cases hgives with
    | array few => cases hn
    | @object given _ unknown mixed once _ others =>
      cases hn
      have hkeys : (given.map Prod.fst).count name =
          ((given.map fun (key, n) => (some key, n)).map Prod.fst).count (some name) := by
        rw [← List.count_map_of_injective _ some fun _ _ => Option.some.inj, List.map_map,
          List.map_map]
        rfl
      have htwice := Nat.le_trans twice (Nat.le_of_eq hkeys.symm)
      have hmixed := (mixed.map Prod.fst).count_eq name
      have honce := List.nodup_iff_count_le_one.mp once name
      have hunknown : (unknown.map Prod.fst).count name = 0 := by
        refine List.count_eq_zero_of_not_mem fun hmem => ?_
        obtain ⟨field, hfield, rfl⟩ := List.mem_map.mp hmem
        exact others field hfield known
      rw [List.map_append, List.count_append] at hmixed
      omega

end Node

end IntentRouter.Json
