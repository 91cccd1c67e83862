import IntentRouter.Proofs.Records
import IntentRouter.Proofs.Spelling
import Mathlib.Data.List.Perm.Basic

/-!
# Reading in any order

The members of an object may be written in any order. What a reader makes of a document is then a
matter of the values of the members alone: a record is read field by field, and every field is found
where it is. A document may also be nested as deeply as its reader goes.
-/

namespace IntentRouter.Json

namespace Node

mutual

/-- The second document is the first one, but for the order of the members of objects in it. -/
inductive Reordered : Node → Node → Prop where
  /-- The empty value. -/
  | null : Reordered .null .null
  /-- A truth value. -/
  | bool (b : Bool) : Reordered (.bool b) (.bool b)
  /-- A number. -/
  | number (n : Numeral) : Reordered (.number n) (.number n)
  /-- A text. -/
  | text (s : Option String) : Reordered (.text s) (.text s)
  /-- An array keeps the order of its items. -/
  | list {items items' : List Node} (each : List.Forall₂ Reordered items items') :
    Reordered (.list items) (.list items')
  /-- An object keeps its members, but not their order. -/
  | members {fields given given' : List (Option String × Node)}
    (each : List.Forall₂ ReorderedMember fields given) (perm : given.Perm given') :
    Reordered (.members fields) (.members given')

/-- A member keeps its key. -/
inductive ReorderedMember : Option String × Node → Option String × Node → Prop where
  /-- The value may be reordered. -/
  | mk (key : Option String) {n n' : Node} (value : Reordered n n') :
    ReorderedMember (key, n) (key, n')

end

mutual

/-- How many containers are nested in the document. -/
def nesting : Node → Nat
  | .list items => nestingItems items + 1
  | .members fields => nestingMembers fields + 1
  | _ => 0

/-- The deepest nesting among items. -/
def nestingItems : List Node → Nat
  | [] => 0
  | n :: rest => max (nesting n) (nestingItems rest)

/-- The deepest nesting among the values of members. -/
def nestingMembers : List (Option String × Node) → Nat
  | [] => 0
  | (_, n) :: rest => max (nesting n) (nestingMembers rest)

end

theorem nesting_le_items {n : Node} {items : List Node} (h : n ∈ items) :
    n.nesting ≤ nestingItems items := by
  induction items with
  | nil => cases h
  | cons m rest ih =>
    rcases List.mem_cons.mp h with rfl | hrest
    · exact Nat.le_max_left _ _
    · exact Nat.le_trans (ih hrest) (Nat.le_max_right _ _)

theorem nesting_le_members {field : Option String × Node} {fields : List (Option String × Node)}
    (h : field ∈ fields) : field.2.nesting ≤ nestingMembers fields := by
  induction fields with
  | nil => cases h
  | cons m rest ih =>
    rcases List.mem_cons.mp h with rfl | hrest
    · exact Nat.le_max_left _ _
    · exact Nat.le_trans (ih hrest) (Nat.le_max_right _ _)

/-- A reader that opens a container may open one container less inside. -/
theorem exists_inner {k depth : Nat} (h : k + 1 ≤ depth) : ∃ inner, depth = inner + 1 ∧ k ≤ inner :=
  ⟨depth - 1, by omega, by omega⟩

/-! ## What stays the same -/

theorem printableMembers_iff {fields : List (Option String × Node)} :
    PrintableMembers fields ↔ ∀ field ∈ fields, field.1.isSome ∧ field.2.Printable := by
  induction fields with
  | nil => exact ⟨fun _ _ => nofun, fun _ => trivial⟩
  | cons field rest ih =>
    obtain ⟨key, n⟩ := field
    rw [PrintableMembers, ih, List.forall_mem_cons, and_assoc]

theorem printableItems_iff {items : List Node} :
    PrintableItems items ↔ ∀ n ∈ items, n.Printable := by
  induction items with
  | nil => exact ⟨fun _ _ => nofun, fun _ => trivial⟩
  | cons n rest ih => rw [PrintableItems, ih, List.forall_mem_cons]

/-- An object with readable keys is printable if its values are. -/
theorem printable_object {fields : Fields} (h : ∀ field ∈ fields, field.2.Printable) :
    (object fields).Printable := by
  refine printableMembers_iff.mpr fun member hmember => ?_
  obtain ⟨field, hfield, rfl⟩ := List.mem_map.mp hmember
  exact ⟨rfl, h field hfield⟩

/-- An array is printable if its items are. -/
theorem printable_map {α : Type} {write : α → Node} {as : List α}
    (h : ∀ a ∈ as, (write a).Printable) : (list (as.map write)).Printable := by
  refine printableItems_iff.mpr fun n hn => ?_
  obtain ⟨a, ha, rfl⟩ := List.mem_map.mp hn
  exact h a ha

mutual

theorem Reordered.refl (n : Node) : n.Reordered n := by
  cases n with
  | null => exact .null
  | bool b => exact .bool b
  | number m => exact .number m
  | text s => exact .text s
  | list items => exact .list (refl_items items)
  | members fields => exact .members (refl_members fields) (.refl _)

theorem Reordered.refl_items (items : List Node) : List.Forall₂ Reordered items items := by
  cases items with
  | nil => exact .nil
  | cons n rest => exact .cons (refl n) (refl_items rest)

theorem Reordered.refl_members (fields : List (Option String × Node)) :
    List.Forall₂ ReorderedMember fields fields := by
  cases fields with
  | nil => exact .nil
  | cons field rest =>
    obtain ⟨key, n⟩ := field
    exact .cons (.mk key (refl n)) (refl_members rest)

end

mutual

/-- What can be printed can be printed in any order. -/
theorem Reordered.printable {n n' : Node} (h : n.Reordered n') (hn : n.Printable) :
    n'.Printable := by
  cases n with
  | list items =>
    cases h with
    | list each => exact printable_items each hn
  | members fields =>
    cases h with
    | members each perm =>
      refine printableMembers_iff.mpr fun field hfield => ?_
      exact printableMembers_iff.mp (printable_members each hn) field (perm.mem_iff.mpr hfield)
  | _ =>
    cases h
    exact hn

theorem Reordered.printable_items {items items' : List Node}
    (h : List.Forall₂ Reordered items items') (hitems : PrintableItems items) :
    PrintableItems items' := by
  cases items with
  | nil =>
    cases h
    exact hitems
  | cons n rest =>
    cases h with
    | cons hn hrest => exact ⟨hn.printable hitems.1, printable_items hrest hitems.2⟩

theorem Reordered.printable_members {fields given : List (Option String × Node)}
    (h : List.Forall₂ ReorderedMember fields given) (hfields : PrintableMembers fields) :
    PrintableMembers given := by
  cases fields with
  | nil =>
    cases h
    exact hfields
  | cons field rest =>
    obtain ⟨key, n⟩ := field
    cases h with
    | cons hfield hrest =>
      obtain ⟨_, hvalue⟩ := hfield
      obtain ⟨hkey, hn, hfields⟩ := hfields
      exact ⟨hkey, hvalue.printable hn, printable_members hrest hfields⟩

end

theorem nestingMembers_perm {fields given : List (Option String × Node)} (h : fields.Perm given) :
    nestingMembers fields = nestingMembers given := by
  induction h with
  | nil => rfl
  | cons field _ ih => rw [nestingMembers, nestingMembers, ih]
  | swap => rw [nestingMembers, nestingMembers, nestingMembers, nestingMembers, Nat.max_left_comm]
  | trans _ _ ih ih' => exact ih.trans ih'

mutual

/-- A document is nested as deeply in one order as in another. -/
theorem Reordered.nesting_eq {n n' : Node} (h : n.Reordered n') : n.nesting = n'.nesting := by
  cases n with
  | list items =>
    cases h with
    | list each => rw [nesting, nesting, nestingItems_eq each]
  | members fields =>
    cases h with
    | members each perm =>
      rw [nesting, nesting, nestingMembers_eq each, nestingMembers_perm perm]
  | _ =>
    cases h
    rfl

theorem Reordered.nestingItems_eq {items items' : List Node}
    (h : List.Forall₂ Reordered items items') : nestingItems items = nestingItems items' := by
  cases items with
  | nil =>
    cases h
    rfl
  | cons n rest =>
    cases h with
    | cons hn hrest => rw [nestingItems, nestingItems, hn.nesting_eq, nestingItems_eq hrest]

theorem Reordered.nestingMembers_eq {fields given : List (Option String × Node)}
    (h : List.Forall₂ ReorderedMember fields given) :
    nestingMembers fields = nestingMembers given := by
  cases fields with
  | nil =>
    cases h
    rfl
  | cons field rest =>
    obtain ⟨key, n⟩ := field
    cases h with
    | cons hfield hrest =>
      obtain ⟨_, hvalue⟩ := hfield
      rw [nestingMembers, nestingMembers, hvalue.nesting_eq, nestingMembers_eq hrest]

end

/-- An array is reordered item by item. -/
theorem Reordered.of_list {items : List Node} {n : Node} (h : (Node.list items).Reordered n) :
    ∃ items', List.Forall₂ Reordered items items' ∧ n = .list items' := by
  cases h with
  | list each => exact ⟨_, each, rfl⟩

/-- An object is reordered member by member, in some order. -/
theorem Reordered.of_members {α : Type} {field : α → Option String × Node} {xs : List α} {n : Node}
    (h : (Node.members (xs.map field)).Reordered n) :
    ∃ ys given, xs.Perm ys ∧ List.Forall₂ (fun y => ReorderedMember (field y)) ys given ∧
      n = .members given := by
  cases h with
  | @members _ given given' each perm =>
    have hback : List.Forall₂ (fun g x => ReorderedMember (field x) g) given xs :=
      (List.forall₂_map_left_iff.mp each).flip
    obtain ⟨ys, heach, hperm⟩ := List.perm_comp_forall₂ perm.symm hback
    exact ⟨ys, given', hperm.symm, heach.flip, rfl⟩

/-! ## Reading a record -/

section Records

variable {α : Type} {fields found : Fields} {name : String} {n : Node} {depth : Nat} {a : α}
  {read : Nat → Node → Option α}

/-- The field is found with what is written for it, in some order. -/
def Stands (found : Fields) (depth : Nat) (field : String × Node) : Prop :=
  ∃ n, found.lookup field.1 = some n ∧ field.2.Reordered n ∧ n.nesting ≤ depth

/-- The keys of reordered fields are readable, and each field is there with its value. -/
theorem exists_fields {ys : Fields} {given : List (Option String × Node)}
    (h : List.Forall₂ (fun y => ReorderedMember (some y.1, y.2)) ys given) :
    ∃ found : Fields, given = found.map (fun field => (some field.1, field.2)) ∧
      found.map Prod.fst = ys.map Prod.fst ∧
      ∀ name m, (name, m) ∈ ys → ∃ m', (name, m') ∈ found ∧ m.Reordered m' := by
  induction h with
  | nil => exact ⟨[], rfl, rfl, fun _ _ => nofun⟩
  | @cons y _ ys _ hmember _ ih =>
    obtain ⟨found, rfl, hkeys, hvalues⟩ := ih
    cases hmember with
    | @mk _ _ m' hvalue =>
      refine ⟨(y.1, m') :: found, rfl, congrArg (y.1 :: ·) hkeys, fun name n hn => ?_⟩
      rcases List.mem_cons.mp hn with rfl | hn
      · exact ⟨m', List.mem_cons_self, hvalue⟩
      · obtain ⟨n', hn', hreordered⟩ := hvalues name n hn
        exact ⟨n', List.mem_cons_of_mem _ hn', hreordered⟩

/-- In whatever order the fields of a record are written, they are found. -/
theorem Reordered.fields? (h : (object fields).Reordered n) (names : List String)
    (completeness : Completeness) (hnames : fields.map Prod.fst = names) (honce : names.Nodup)
    (hdepth : n.nesting ≤ depth) :
    ∃ found, n.fields? names completeness depth = some found ∧
      ∀ field ∈ fields, Stands found (depth - 1) field := by
  obtain ⟨ys, given, hperm, heach, rfl⟩ := h.of_members
  obtain ⟨found, rfl, hkeys, hvalues⟩ := exists_fields heach
  obtain ⟨depth, rfl, hinner⟩ := exists_inner hdepth
  have hsame : (found.map Prod.fst).Perm names := by
    rw [hkeys, ← hnames]
    exact (hperm.map Prod.fst).symm
  have honce' : (found.map Prod.fst).Nodup := hsame.nodup_iff.mpr honce
  have hknown : found.filter (fun field => names.contains field.1) = found := by
    refine List.filter_eq_self.mpr fun field hfield => List.contains_iff_mem.mpr ?_
    exact hsame.mem_iff.mp (List.mem_map_of_mem hfield)
  refine ⟨found, ?_, fun field hfield => ?_⟩
  · have hread := fields?_object names completeness depth found
    dsimp only at hread
    rwa [hknown, if_pos honce'] at hread
  · obtain ⟨m, hm, hreordered⟩ := hvalues field.1 field.2 (hperm.mem_iff.mp hfield)
    refine ⟨m, (Fields.lookup_eq_some_iff_mem honce').mpr hm, hreordered, ?_⟩
    have hmember : (some field.1, m) ∈ found.map fun field => (some field.1, field.2) :=
      List.mem_map.mpr ⟨(field.1, m), hm, rfl⟩
    exact Nat.le_trans (nesting_le_members hmember) hinner

/-- The only member of an object is the name and the content of a case. -/
theorem Reordered.case? {content : Node} (h : (object [(name, content)]).Reordered n)
    (hdepth : n.nesting ≤ depth) :
    ∃ content', n.case? depth = some (name, content') ∧ content.Reordered content' ∧
      content'.nesting ≤ depth - 1 := by
  cases h with
  | members each perm =>
    obtain ⟨depth, rfl, hinner⟩ := exists_inner hdepth
    cases each with
    | cons hmember hrest =>
      cases hrest
      cases hmember with
      | @mk _ _ content' hcontent =>
        cases List.singleton_perm.mp perm
        exact ⟨content', rfl, hcontent, Nat.le_trans (Nat.le_max_left _ _) hinner⟩

/-- The reader makes the value of the document in any order, if it is not nested too deeply. -/
def Reads (read : Nat → Node → Option α) (n : Node) (a : α) : Prop :=
  ∀ n' depth, n.Reordered n' → n'.nesting ≤ depth → read depth n' = some a

theorem Stands.required? (h : Stands found depth (name, n)) (hn : Reads read n a) :
    found.required? name (read depth) = some a := by
  obtain ⟨n', hlookup, hreordered, hnesting⟩ := h
  rw [Fields.required?, hlookup]
  exact hn n' depth hreordered hnesting

theorem Stands.defaulted? (h : Stands found depth (name, n)) (hn : Reads read n a) (default : α) :
    found.defaulted? name (read depth) default = some a := by
  obtain ⟨n', hlookup, hreordered, hnesting⟩ := h
  rw [Fields.defaulted?, hlookup]
  exact hn n' depth hreordered hnesting

/-- Nothing is written as the empty value, and anything else as what it is. -/
theorem Stands.optional? {write : α → Node} {o : Option α}
    (h : Stands found depth (name, o.elim .null write)) (hwrite : ∀ a, write a ≠ .null)
    (hread : ∀ a, o = some a → Reads read (write a) a) :
    found.optional? name (read depth) = some o := by
  obtain ⟨n', hlookup, hreordered, hnesting⟩ := h
  rw [Fields.optional?, hlookup]
  cases o with
  | none =>
    cases hreordered
    rfl
  | some a =>
    have hread' := hread a rfl n' depth hreordered hnesting
    have hnull : n' ≠ .null := by
      rintro rfl
      change (write a).Reordered .null at hreordered
      generalize hm : write a = m at hreordered
      cases hreordered
      exact hwrite a hm
    cases n' with
    | null => exact absurd rfl hnull
    | _ => exact congrArg (Option.map some) hread'

end Records

/-! ## Reading other documents -/

section Others

variable {α : Type}

theorem reads_string (s : String) : Reads (fun _ => string?) (ofString s) s := by
  rintro n' depth h -
  cases h
  rfl

/-- What is named by a text is read from it. -/
theorem reads_text {ofText? : String → Option α} {text : String} {a : α}
    (h : ofText? text = some a) :
    Reads (fun _ n => n.string?.bind ofText?) (ofString text) a := by
  rintro n' depth hn' -
  cases hn'
  exact h

theorem reads_bool (b : Bool) : Reads (fun _ => bool?) (.bool b) b := by
  rintro n' depth h -
  cases h
  rfl

theorem reads_count {m : Nat} (hm : m ≤ Numeral.largest) : Reads (fun _ => count?) (ofNat m) m := by
  rintro n' depth h -
  cases h
  exact Numeral.count?_ofNat hm

/-- An array is read item by item. -/
theorem reads_items {read : Nat → Node → Option α} {write : α → Node} {as : List α}
    (h : ∀ a ∈ as, Reads read (write a) a) : Reads (items? read) (.list (as.map write)) as := by
  intro n' depth hn' hdepth
  obtain ⟨items, heach, rfl⟩ := hn'.of_list
  obtain ⟨depth, rfl, hinner⟩ := exists_inner hdepth
  have hitems : ∀ n ∈ items, n.nesting ≤ depth := fun n hn =>
    Nat.le_trans (nesting_le_items hn) hinner
  rw [items?]
  clear hn' hdepth hinner
  induction as generalizing items with
  | nil =>
    cases heach
    rfl
  | cons a as ih =>
    cases heach with
    | @cons _ n _ rest hn hrest =>
      obtain ⟨ha, has⟩ := List.forall_mem_cons.mp h
      obtain ⟨hnesting, hnestings⟩ := List.forall_mem_cons.mp hitems
      rw [List.mapM_cons, ha n depth hn hnesting, ih has rest hrest hnestings]
      rfl

theorem reads_strings (ss : List String) : Reads strings? (ofStrings ss) ss :=
  reads_items fun s _ => reads_string s

/-- A case without content is read from its name. -/
theorem reads_caseName {ofText? : String → Option α} {text : String} {a : α}
    (h : ofText? text = some a) :
    Reads (fun depth n => (n.caseName? depth).bind ofText?) (ofString text) a := by
  rintro n' depth hn' -
  cases hn'
  exact h

end Others

/-- The text of the document is read as the value, in whatever order the members of objects are
written. -/
def Decodes {α : Type} (read : Nat → Node → Option α) (n : Node) (a : α) : Prop :=
  ∀ n', n.Reordered n' → (parse? n'.render).bind (read nestingLimit) = some a

theorem Reads.decodes {α : Type} {read : Nat → Node → Option α} {n : Node} {a : α}
    (h : Reads read n a) (hn : n.Printable) (hnesting : n.nesting ≤ nestingLimit) :
    n.Decodes read a := by
  intro n' hn'
  rw [(hn'.printable hn).parse?, Option.bind_some]
  exact h n' nestingLimit hn' (hn'.nesting_eq ▸ hnesting)

end Node

end IntentRouter.Json
