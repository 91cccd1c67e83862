import IntentRouter.Proofs.Notation
import IntentRouter.Proofs.Overlay

/-!
# Records of which every field counts

Where fields have no defaults, an array has to give all of them, and an object may leave out only
those that are optional. What is read of such a record is told field by field. It cannot be read if
a known field is written twice or one that is needed is not written, or if an array has another
length.
-/

namespace IntentRouter

open Json

/-! ## Fields -/

/-- What is written for an optional field says what it is: it may be left out or empty. -/
inductive Json.Optionally {α : Type} (Says : Node → α → Prop) : Option Node → Option α → Prop where
  /-- Nothing is written for it. -/
  | omitted : Optionally Says none none
  /-- The empty value is written for it. -/
  | empty : Optionally Says (some .null) none
  /-- Something is. -/
  | given {n : Node} {a : α} (h : Says n a) : Optionally Says (some n) (some a)

namespace Json.Fields

variable {α : Type} {fields : Fields} {name : String} {read : Node → Option α}
  {Says : Node → α → Prop}

theorem required?_eq_some_iff {a : α} (hread : ∀ n a, read n = some a ↔ Says n a) :
    fields.required? name read = some a ↔ Option.Rel Says (fields.lookup name) (some a) := by
  rw [required?, Option.bind_eq_some_iff]
  constructor
  · rintro ⟨n, hn, ha⟩
    rw [hn]
    exact .some ((hread n a).mp ha)
  · intro h
    generalize hn : fields.lookup name = said at h
    cases h with
    | some h => exact ⟨_, rfl, (hread _ a).mpr h⟩

theorem optional?_eq_some_iff {o : Option α} (hread : ∀ n a, read n = some a ↔ Says n a)
    (hnull : read .null = none) :
    fields.optional? name read = some o ↔ Optionally Says (fields.lookup name) o := by
  unfold optional?
  cases fields.lookup name with
  | none =>
    constructor
    · rintro ⟨⟩
      exact .omitted
    · rintro ⟨⟩
      rfl
  | some n =>
    constructor
    · intro h
      dsimp only at h
      unfold Node.optional? at h
      split at h
      · cases h
        exact .empty
      · obtain ⟨a, ha, rfl⟩ := Option.map_eq_some_iff.mp h
        exact .given ((hread _ a).mp ha)
    · intro h
      cases h with
      | empty => rfl
      | @given _ a h =>
        have ha := (hread n a).mpr h
        dsimp only
        rw [Node.optional?, ha, Option.map_some]
        rintro rfl
        cases hnull.symm.trans ha

end Json.Fields

namespace Json.Node

variable {names optional : List String} {n : Node} {fields written : Fields}

/-- The document gives the fields of a record of which every field counts: an array has all. -/
structure GivesAll (names : List String) (n : Node) (written : Fields) : Prop where
  /-- It gives them. -/
  gives : n.Gives names written
  /-- An array leaves none out. -/
  all : ∀ items, n = .list items → items.length = names.length

theorem fields?_complete (h : ∀ items, n = .list items → items.length = names.length)
    (depth : Nat) : n.fields? names .complete depth = n.fields? names .defaulted depth := by
  cases depth with
  | zero => cases n <;> rfl
  | succ depth =>
    cases n with
    | list items =>
      have hall := h items rfl
      rw [Node.fields?, Node.fields?, if_pos (.inl hall), if_pos (.inl hall)]
    | _ => rfl

theorem length_of_object_eq {given : Fields} {items : List Node}
    (h : object given = .list items) : items.length = names.length := Node.noConfusion h

/-- Of an object it is enough what it gives. -/
theorem GivesAll.of_object {given : Fields} (h : (object given).Gives names written) :
    (object given).GivesAll names written := ⟨h, fun _ => length_of_object_eq⟩

theorem GivesAll.of_fields? {depth : Nat} (h : n.fields? names .complete depth = some fields) :
    n.GivesAll names fields := by
  have hall : ∀ items, n = .list items → items.length = names.length := by
    rintro items rfl
    cases depth with
    | zero => cases h
    | succ depth =>
      rw [Node.fields?] at h
      split at h
      · next hallowed => exact hallowed.resolve_right fun hfew => Completeness.noConfusion hfew.1
      · cases h
  rw [fields?_complete hall] at h
  exact ⟨.of_fields? h, hall⟩

/-- A record of which every field counts is read from the fields that are written. -/
theorem fields?_bind_eq_some_iff {α : Type} {a : α} {read : Fields → Option α} {depth : Nat}
    {Written : (String → Option Node) → Prop}
    (hread : ∀ fields, read fields = some a ↔ Written fun name => fields.lookup name) :
    (n.fields? names .complete (depth + 1)).bind read = some a ↔
      ∃ fields, n.GivesAll names fields ∧ Written fun name => fields.lookup name := by
  rw [Option.bind_eq_some_iff]
  constructor
  · rintro ⟨fields, hfields, h⟩
    exact ⟨fields, .of_fields? hfields, (hread fields).mp h⟩
  · rintro ⟨written, hwritten, h⟩
    obtain ⟨fields, hfields, hlookup⟩ := hwritten.gives.fields? depth
    rw [← fields?_complete hwritten.all] at hfields
    rw [← funext hlookup] at h
    exact ⟨fields, hfields, (hread fields).mpr h⟩

/-- An array of all fields is read as the object with the fields at their places. -/
theorem fields?_list_complete (hnames : names.Nodup) {items : List Node}
    (h : items.length = names.length) (depth : Nat) :
    (list items).fields? names .complete depth =
      (object (names.zip items)).fields? names .complete depth := by
  have hlist : ∀ items', Node.list items = .list items' → items'.length = names.length := by
    rintro _ ⟨⟩
    exact h
  cases depth with
  | zero => rfl
  | succ depth =>
    rw [fields?_complete hlist, fields?_complete fun _ => length_of_object_eq,
      fields?_list hnames (Nat.le_of_eq h)]

/-- The document cannot be read as a record with these fields, some of them optional. -/
inductive Garbles (names optional : List String) : Node → Prop where
  /-- An object has two members of the same known name. -/
  | repeated {members : List (Option String × Node)} {name : String} (known : name ∈ names)
    (twice : 2 ≤ (members.map Prod.fst).count (some name)) :
    Garbles names optional (.members members)
  /-- An object has no member of a name that is needed. -/
  | missing {members : List (Option String × Node)} {name : String} (known : name ∈ names)
    (needed : name ∉ optional) (absent : some name ∉ members.map Prod.fst) :
    Garbles names optional (.members members)
  /-- An array has another length. -/
  | length {items : List Node} (h : items.length ≠ names.length) :
    Garbles names optional (.list items)

/-- If a garbled document gives fields, one that is needed is not among them. -/
theorem Garbles.exists_missing (h : n.Garbles names optional) (hgives : n.GivesAll names written) :
    ∃ name ∈ names, name ∉ optional ∧ written.lookup name = none := by
  obtain ⟨hgives, hall⟩ := hgives
  cases h with
  | repeated known twice => exact absurd hgives (Overwrites.repeated known twice).not_gives
  | length h => exact absurd (hall _ rfl) h
  | @missing members name known needed absent =>
    refine ⟨name, known, needed, Option.eq_none_iff_forall_ne_some.mpr fun m hm => absent ?_⟩
    generalize hn : Node.members members = n at hgives
    cases hgives with
    | array few => cases hn
    | @object given _ unknown mixed _ _ _ =>
      cases hn
      have hmem : (name, m) ∈ written := by
        obtain ⟨before, after, rfl, -⟩ := List.lookup_eq_some_iff.mp hm
        exact List.mem_append_right _ List.mem_cons_self
      have hgiven : (name, m) ∈ given := mixed.mem_iff.mpr (List.mem_append_left _ hmem)
      exact List.mem_map.mpr ⟨(some name, m), List.mem_map.mpr ⟨_, hgiven, rfl⟩, rfl⟩

/-- A garbled document says nothing of which all needed fields are written. -/
theorem Garbles.not_said {Written : (String → Option Node) → Prop}
    (h : n.Garbles names optional)
    (hneeded : ∀ field, Written field → ∀ name ∈ names, name ∉ optional → field name ≠ none) :
    ¬ ∃ fields, n.GivesAll names fields ∧ Written fun name => fields.lookup name := by
  rintro ⟨fields, hgives, hwritten⟩
  obtain ⟨name, hname, hoptional, hnone⟩ := h.exists_missing hgives
  exact hneeded _ hwritten name hname hoptional hnone

/-- What is said has been written. -/
theorem ne_none_of_rel {α : Type} {Says : Node → α → Prop} {said : Option Node} {a : α}
    (h : Option.Rel Says said (some a)) : said ≠ none := by
  rintro rfl
  cases h

/-! ## Parts of records -/

/-- The document says a text. -/
def Tells (n : Node) (s : String) : Prop := n = .ofString s

/-- The document says something by a text of it. -/
def TellsBy {α : Type} (ofText? : String → Option α) (n : Node) (a : α) : Prop :=
  ∃ s, n.Tells s ∧ ofText? s = some a

/-- The document is an array that says things one by one. -/
inductive Lists {α : Type} (Says : Node → α → Prop) : Node → List α → Prop where
  /-- They are said by the items. -/
  | mk {ns : List Node} {as : List α} (each : List.Forall₂ Says ns as) : Lists Says (.list ns) as

theorem Lists.exists_of_mem {α : Type} {Says : Node → α → Prop} {ns : List Node} {as : List α}
    (h : (list ns).Lists Says as) (hn : n ∈ ns) : ∃ a, Says n a := by
  obtain ⟨each⟩ := h
  induction each with
  | nil => cases hn
  | cons hfirst _ ih =>
    rcases List.mem_cons.mp hn with rfl | hn
    · exact ⟨_, hfirst⟩
    · exact ih hn

/-- The document says the names in a set, in any order and perhaps several times. -/
def TellsSet (n : Node) (s : NameSet) : Prop :=
  ∃ names, n.Lists Tells names ∧ ∀ name, name ∈ names ↔ name ∈ s.members

theorem string?_eq_some_iff {s : String} : n.string? = some s ↔ n.Tells s := by
  cases n <;> simp [string?, Tells, ofString]

theorem string?_bind_eq_some_iff {α : Type} {ofText? : String → Option α} {a : α} :
    n.string?.bind ofText? = some a ↔ n.TellsBy ofText? a := by
  simp only [Option.bind_eq_some_iff, string?_eq_some_iff, TellsBy]

theorem mapM_eq_some_iff {α : Type} {read : Node → Option α} {ns : List Node} {as : List α} :
    ns.mapM read = some as ↔ List.Forall₂ (fun n a => read n = some a) ns as := by
  induction ns generalizing as with
  | nil =>
    rw [List.mapM_nil]
    constructor
    · rintro ⟨⟩
      exact .nil
    · rintro ⟨⟩
      rfl
  | cons n ns ih =>
    rw [List.mapM_cons, Option.bind_eq_bind, Option.bind_eq_some_iff]
    constructor
    · rintro ⟨a, ha, h⟩
      obtain ⟨as, has, h⟩ := Option.bind_eq_some_iff.mp h
      cases h
      exact .cons ha (ih.mp has)
    · rintro (_ | ⟨ha, has⟩)
      exact ⟨_, ha, Option.bind_eq_some_iff.mpr ⟨_, ih.mpr has, rfl⟩⟩

theorem items?_eq_some_iff {α : Type} {read : Nat → Node → Option α} {Says : Node → α → Prop}
    {depth : Nat} {as : List α} (hread : ∀ n a, read depth n = some a ↔ Says n a) :
    n.items? read (depth + 1) = some as ↔ n.Lists Says as := by
  have hsame : (fun n a => read depth n = some a) = Says := by
    funext n a
    exact propext (hread n a)
  constructor
  · intro h
    cases n with
    | list items => exact .mk (hsame ▸ mapM_eq_some_iff.mp h)
    | _ => cases h
  · rintro ⟨each⟩
    exact mapM_eq_some_iff.mpr (hsame ▸ each)

theorem strings?_eq_some_iff {depth : Nat} {names : List String} :
    n.strings? (depth + 1) = some names ↔ n.Lists Tells names :=
  items?_eq_some_iff fun _ _ => string?_eq_some_iff

theorem case?_eq_some_iff {depth : Nat} {name : String} {content : Node} :
    n.case? (depth + 1) = some (name, content) ↔ n = .object [(name, content)] := by
  constructor
  · intro h
    unfold case? at h
    split at h
    · next key content' hdepth =>
      obtain ⟨key, rfl, hcase⟩ := Option.map_eq_some_iff.mp h
      cases hcase
      rfl
    · cases h
  · rintro rfl
    rfl

end Json.Node

theorem Visibility.ofNode?_eq_some_iff {depth : Nat} {n : Node} {v : Visibility} :
    ofNode? (depth + 1) n = some v ↔ n.Names v.caseName :=
  Node.caseName?_bind_eq_some_iff [everyone, owner]
    (fun a b => by cases a <;> cases b <;> decide) fun a => by cases a <;> decide

theorem RequestState.ofNode?_eq_some_iff {depth : Nat} {n : Node} {s : RequestState} :
    ofNode? (depth + 1) n = some s ↔ n.Names s.text :=
  Node.caseName?_bind_eq_some_iff all (fun a b => by cases a <;> cases b <;> decide)
    fun a => by cases a <;> decide

/-- A field whose text is told is read. -/
theorem Json.Fields.text_eq_some_iff {fields : Fields} {name s : String} :
    fields.required? name (·.string?) = some s ↔
      Option.Rel Node.Tells (fields.lookup name) (some s) :=
  Fields.required?_eq_some_iff fun _ _ => Node.string?_eq_some_iff

/-- So is a field of which the text stands for something else. -/
theorem Json.Fields.textBy_eq_some_iff {α : Type} {ofText? : String → Option α} {fields : Fields}
    {name : String} {a : α} :
    (fields.required? name fun n => n.string?.bind ofText?) = some a ↔
      Option.Rel (Node.TellsBy ofText?) (fields.lookup name) (some a) :=
  Fields.required?_eq_some_iff fun _ _ => Node.string?_bind_eq_some_iff

/-- An optional field of which the text is told is read. -/
theorem Json.Fields.optionalText_eq_some_iff {fields : Fields} {name : String} {o : Option String} :
    fields.optional? name (·.string?) = some o ↔
      Optionally Node.Tells (fields.lookup name) o :=
  Fields.optional?_eq_some_iff (fun _ _ => Node.string?_eq_some_iff) rfl

/-- Parameters are read from a field that says them. -/
theorem Json.Fields.parameters_eq_some_iff {fields : Fields} {name : String} {depth : Nat}
    {p : Parameters} :
    fields.required? name (Parameters.ofNode? depth) = some p ↔
      Option.Rel (fun n p => Parameters.SaidBy depth p n) (fields.lookup name) (some p) :=
  Fields.required?_eq_some_iff fun _ _ => Parameters.ofNode?_eq_some_iff

/-- A set of names is told by a list of its members, whatever the order. -/
theorem Json.Node.exists_lists_iff {said : Option Node} {s : NameSet} :
    (∃ names, Option.Rel (Lists Tells) said (some names) ∧ NameSet.ofList names = s) ↔
      Option.Rel TellsSet said (some s) := by
  constructor
  · rintro ⟨names, ⟨hlists⟩, hset⟩
    exact .some ⟨names, hlists, NameSet.ofList_eq_iff.mp hset⟩
  · rintro ⟨names, hlists, hmem⟩
    exact ⟨names, .some hlists, NameSet.ofList_eq_iff.mpr hmem⟩

end IntentRouter
