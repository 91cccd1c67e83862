import IntentRouter.Ascending
import IntentRouter.Json.Shortest
import IntentRouter.Json.Node

/-!
# Parameter values

The values that requests, replies and parameter matches carry. An integer is
exact and never equal to a floating-point number; the members of an object have
no order, so they are kept ascending by key, and a repeated key keeps its last
value. `Normal` says that this holds at every depth, and `Parameters` are the
named values for which it does.
-/

namespace IntentRouter.Json

/-- A readable JSON value. -/
inductive Value where
  /-- The empty value. -/
  | null
  /-- A truth value. -/
  | bool (b : Bool)
  /-- An exact integer. -/
  | int (i : Int)
  /-- A floating-point number. -/
  | float (x : Double)
  /-- A text. -/
  | str (s : String)
  /-- An array. -/
  | arr (items : List Value)
  /-- An object, its members ascending by key. -/
  | obj (fields : List (String × Value))
deriving Inhabited, Repr

namespace Value

mutual

/-- Equality of values: integers exactly, floating-point numbers by their
numeric value, arrays in order, objects by their members. -/
def same : Value → Value → Bool
  | .null, .null => true
  | .bool a, .bool b => a = b
  | .int a, .int b => a = b
  | .float a, .float b => a.same b
  | .str a, .str b => a = b
  | .arr xs, .arr ys => sameItems xs ys
  | .obj xs, .obj ys => sameFields xs ys
  | _, _ => false

/-- Equality of arrays. -/
def sameItems : List Value → List Value → Bool
  | [], [] => true
  | x :: xs, y :: ys => same x y && sameItems xs ys
  | _, _ => false

/-- Equality of members. -/
def sameFields : List (String × Value) → List (String × Value) → Bool
  | [], [] => true
  | (j, x) :: xs, (k, y) :: ys => (j = k && same x y) && sameFields xs ys
  | _, _ => false

end

instance : BEq Value := ⟨same⟩

mutual

/-- At every depth the members of an object ascend by key. -/
def Normal : Value → Prop
  | .arr items => NormalItems items
  | .obj fields => Ascending.Ordered Prod.fst fields ∧ NormalFields fields
  | _ => True

/-- All items are normal. -/
def NormalItems : List Value → Prop
  | [] => True
  | v :: vs => Normal v ∧ NormalItems vs

/-- All members have a normal value. -/
def NormalFields : List (String × Value) → Prop
  | [] => True
  | (_, v) :: vs => Normal v ∧ NormalFields vs

end

/-- The value of a number literal: an exact integer where its spelling and size
allow, a floating-point number otherwise; `none` when that is too large. -/
def ofNumeral? (n : Numeral) : Option Value :=
  match n.int? with
  | some i => some (.int i)
  | none => (Double.ofNumeral? n).map .float

mutual

/-- Reads a value in which at most `depth` containers are nested. Every text and
key in it has to be readable. -/
def ofNode? : Nat → Node → Option Value
  | _, .null => some .null
  | _, .bool b => some (.bool b)
  | _, .number n => ofNumeral? n
  | _, .text s => s.map .str
  | 0, .list _ => none
  | depth + 1, .list items => (ofItems? depth items).map .arr
  | 0, .members _ => none
  | depth + 1, .members fields => (ofFields? depth [] fields).map .obj

/-- Reads the items of an array. -/
def ofItems? : Nat → List Node → Option (List Value)
  | _, [] => some []
  | depth, n :: ns =>
    match ofNode? depth n with
    | none => none
    | some v => (ofItems? depth ns).map (v :: ·)

/-- Reads members one after another into those read before. -/
def ofFields? :
    Nat → List (String × Value) → List (Option String × Node) → Option (List (String × Value))
  | _, read, [] => some read
  | depth, read, (key, n) :: rest =>
    match key, ofNode? depth n with
    | some k, some v => ofFields? depth (Ascending.insert Prod.fst (k, v) read) rest
    | _, _ => none

end

/-- The number literal of a double: its shortest text read back as a literal. -/
def numeralOfDouble (x : Double) : Numeral :=
  (Numeral.ofChars? x.text.toList).getD (.ofNat 0)

mutual

/-- The value as a document, members ascending by key. -/
def toNode : Value → Node
  | .null => .null
  | .bool b => .bool b
  | .int i => .ofInt i
  | .float x => .number (numeralOfDouble x)
  | .str s => .ofString s
  | .arr items => .list (toItems items)
  | .obj fields => .members (toFields fields)

/-- The items as documents. -/
def toItems : List Value → List Node
  | [] => []
  | v :: vs => toNode v :: toItems vs

/-- The members as documents. -/
def toFields : List (String × Value) → List (Option String × Node)
  | [] => []
  | (k, v) :: rest => (some k, toNode v) :: toFields rest

end

/-- The text of a value that is a text. -/
def str? : Value → Option String
  | .str s => some s
  | _ => none

/-- Inserting a normal value keeps all members normal. -/
theorem normalFields_insert {k : String} {v : Value} {fields : List (String × Value)}
    (hv : v.Normal) (h : NormalFields fields) :
    NormalFields (Ascending.insert Prod.fst (k, v) fields) := by
  induction fields with
  | nil => exact ⟨hv, trivial⟩
  | cons f fs ih =>
    obtain ⟨j, w⟩ := f
    obtain ⟨hw, hfs⟩ := h
    simp only [Ascending.insert]
    split
    · exact ⟨hv, hw, hfs⟩
    · split
      · exact ⟨hv, hfs⟩
      · exact ⟨hw, ih hfs⟩

mutual

/-- Whatever is read is normal. -/
theorem normal_ofNode? {depth : Nat} {n : Node} {v : Value}
    (h : ofNode? depth n = some v) : v.Normal := by
  cases n with
  | null => simp [ofNode?] at h; subst h; exact trivial
  | bool b => simp [ofNode?] at h; subst h; exact trivial
  | number m =>
    simp only [ofNode?, ofNumeral?] at h
    split at h
    · cases h; exact trivial
    · obtain ⟨x, _, rfl⟩ := Option.map_eq_some_iff.1 h
      exact trivial
  | text s =>
    obtain ⟨x, _, rfl⟩ := Option.map_eq_some_iff.1 (by simpa [ofNode?] using h)
    exact trivial
  | list items =>
    cases depth with
    | zero => simp [ofNode?] at h
    | succ depth =>
      obtain ⟨vs, hvs, rfl⟩ := Option.map_eq_some_iff.1 (by simpa only [ofNode?] using h)
      exact normal_ofItems? hvs
  | members fields =>
    cases depth with
    | zero => simp [ofNode?] at h
    | succ depth =>
      obtain ⟨vs, hvs, rfl⟩ := Option.map_eq_some_iff.1 (by simpa only [ofNode?] using h)
      exact @normal_ofFields? depth [] fields vs (by simp [Ascending.Ordered]) trivial hvs

/-- Whatever items are read are normal. -/
theorem normal_ofItems? {depth : Nat} {ns : List Node} {vs : List Value}
    (h : ofItems? depth ns = some vs) : NormalItems vs := by
  cases ns with
  | nil => simp [ofItems?] at h; subst h; exact trivial
  | cons n ns =>
    simp only [ofItems?] at h
    split at h
    · simp at h
    · next v hv =>
      obtain ⟨ws, hws, rfl⟩ := Option.map_eq_some_iff.1 h
      exact ⟨normal_ofNode? hv, normal_ofItems? hws⟩

/-- Reading members keeps those read before ordered and normal. -/
theorem normal_ofFields? {depth : Nat} {read : List (String × Value)}
    {fields : List (Option String × Node)} {vs : List (String × Value)}
    (ho : Ascending.Ordered Prod.fst read) (hn : NormalFields read)
    (h : ofFields? depth read fields = some vs) :
    Ascending.Ordered Prod.fst vs ∧ NormalFields vs := by
  cases fields with
  | nil => simp [ofFields?] at h; subst h; exact ⟨ho, hn⟩
  | cons f fs =>
    obtain ⟨key, n⟩ := f
    simp only [ofFields?] at h
    split at h
    · next v hv =>
      exact normal_ofFields? (Ascending.ordered_insert ho)
        (normalFields_insert (normal_ofNode? hv) hn) h
    · simp at h

end

end Value

/-- Named values: ascending by name, and normal at every depth. -/
structure Parameters where
  /-- The names with their values. -/
  entries : List (String × Value)
  /-- Names ascend, here and in every object inside. -/
  normal : Ascending.Ordered Prod.fst entries ∧ Value.NormalFields entries

namespace Parameters

/-- No parameters. -/
def empty : Parameters := ⟨[], by simp [Ascending.Ordered], trivial⟩

instance : Inhabited Parameters := ⟨empty⟩

/-- The value with the given name. -/
def get? (p : Parameters) (name : String) : Option Value :=
  (Ascending.find? Prod.fst name p.entries).map Prod.snd

/-- Equality by the equality of values. -/
def same (p q : Parameters) : Bool := Value.sameFields p.entries q.entries

instance : BEq Parameters := ⟨same⟩

/-- Reads parameters from an object in which at most `depth` containers are
nested, itself included. -/
def ofNode? (depth : Nat) (n : Node) : Option Parameters :=
  match h : Value.ofNode? depth n with
  | some (.obj fields) => some ⟨fields, Value.normal_ofNode? h⟩
  | _ => none

/-- The parameters as a document. -/
def toNode (p : Parameters) : Node := .members (Value.toFields p.entries)

end Parameters

end IntentRouter.Json
