import IntentRouter.Json.Value

/-!
# Reading records

A record is read from an object, whose unknown members are not looked at, or
from an array of its fields in declaration order. A known member must not occur
twice. Where every field has a default, any field may be missing and an array
may stop early; elsewhere an array has to be complete.

Readers take the number of containers that may still be opened, so that a text
nested too deeply is refused.
-/

namespace IntentRouter.Json

/-- How many containers may be nested in a text that is read as a record. -/
def nestingLimit : Nat := 127

/-- Whether fields of a record may be left out. -/
inductive Completeness where
  /-- An array has to give every field. -/
  | complete
  /-- Every field has a default, and an array may give the first fields only. -/
  | defaulted
deriving DecidableEq

/-- The fields that were given for a record. -/
abbrev Fields := List (String × Node)

namespace Node

/-- A text. -/
def string? : Node → Option String
  | .text s => s
  | _ => none

/-- A truth value. -/
def bool? : Node → Option Bool
  | .bool b => some b
  | _ => none

/-- A count that fits 64 bits. -/
def count? : Node → Option Nat
  | .number n => n.count?
  | _ => none

/-- The empty value, or what the reader accepts. -/
def optional? {α : Type} (read : Node → Option α) : Node → Option (Option α)
  | .null => some none
  | n => (read n).map some

/-- An array of what the reader accepts one level further down. -/
def items? {α : Type} (read : Nat → Node → Option α) : Nat → Node → Option (List α)
  | depth + 1, .list items => items.mapM (read depth)
  | _, _ => none

/-- An array of texts. -/
def strings? : Nat → Node → Option (List String) := items? fun _ => string?

/-- The name of a case without content: a text, or an object that gives the
empty value to the name and has no other member. -/
def caseName? (depth : Nat) : Node → Option String
  | .text s => s
  | .members [(key, .null)] => if 0 < depth then key else none
  | _ => none

/-- The name and the content of a case: an object with one member. -/
def case? : Nat → Node → Option (String × Node)
  | _ + 1, .members [(key, content)] => key.map (·, content)
  | _, _ => none

/-- The fields of a record with the given names. -/
def fields? (names : List String) (completeness : Completeness) :
    Nat → Node → Option Fields
  | _ + 1, .list items =>
    if items.length = names.length ∨
        (completeness = .defaulted ∧ items.length < names.length) then
      some (names.zip items)
    else none
  | _ + 1, .members given => do
    let readable ← given.mapM fun (key, n) => key.map (·, n)
    let known := readable.filter fun field => names.contains field.1
    if (known.map Prod.fst).Nodup then some known else none
  | _, _ => none

end Node

namespace Fields

/-- A field that has to be given. -/
def required? {α : Type} (fields : Fields) (name : String) (read : Node → Option α) : Option α :=
  (fields.lookup name).bind read

/-- A field that may be missing or empty. -/
def optional? {α : Type} (fields : Fields) (name : String) (read : Node → Option α) :
    Option (Option α) :=
  match fields.lookup name with
  | none => some none
  | some n => n.optional? read

/-- A field that has a default. -/
def defaulted? {α : Type} (fields : Fields) (name : String) (read : Node → Option α)
    (default : α) : Option α :=
  match fields.lookup name with
  | none => some default
  | some n => read n

end Fields

end IntentRouter.Json
