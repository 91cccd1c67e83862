import IntentRouter.Ascending

/-!
# Sets of names

A set of names is its members in ascending order, so that equal sets are equal
values. Capabilities, required and granted, are such sets.
-/

namespace IntentRouter

/-- A finite set of names. -/
structure NameSet where
  /-- The members, ascending and without repetition. -/
  members : List String
  /-- The members ascend. -/
  ascending : Ascending.Ordered id members
deriving DecidableEq

namespace NameSet

/-- The set without members. -/
def empty : NameSet := ⟨[], by simp [Ascending.Ordered]⟩

instance : Inhabited NameSet := ⟨empty⟩

/-- The set with all the names of a list added; adding a member twice changes nothing. -/
def insertAll (names : List String) (s : NameSet) : NameSet :=
  ⟨Ascending.insertAll id names s.members, Ascending.ordered_insertAll s.ascending⟩

/-- The set of the names in a list, which may repeat and be in any order. -/
def ofList (names : List String) : NameSet := empty.insertAll names

/-- Whether a name is a member. -/
def contains (s : NameSet) (name : String) : Bool := s.members.contains name

/-- Whether every member of the first set is a member of the second. -/
def subset (s t : NameSet) : Bool := s.members.all t.contains

/-- Whether the set has no member. -/
def isEmpty (s : NameSet) : Bool := s.members.isEmpty

end NameSet

end IntentRouter
