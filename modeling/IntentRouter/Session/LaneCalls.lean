import IntentRouter.Lanes

/-!
# Calls of lanes

What can be asked of a set of lanes whose members are numbers.
-/

namespace IntentRouter

/-- What can be asked of lanes. -/
inductive LaneCall where
  /-- Join a lane. -/
  | join (lane : Lane) (member : Nat)
  /-- Take the next in line of the main lane. -/
  | next
  /-- Leave a lane. -/
  | leave (lane : Lane) (member : Nat)
  /-- Take out the members of a lane that are in a list. -/
  | extractListed (lane : Lane) (members : List Nat)
  /-- Whether a member stands in a lane. -/
  | holds (lane : Lane) (member : Nat)
  /-- The lane in which a member stands. -/
  | laneOf (member : Nat)
deriving DecidableEq, Repr

/-- What lanes answer. -/
inductive LaneAnswer where
  /-- Yes or no. -/
  | flag (b : Bool)
  /-- A member, or none. -/
  | member (m : Option Nat)
  /-- The members taken out, and those asked about in turn. -/
  | taken (members asked : List Nat)
  /-- A lane, or none. -/
  | lane (l : Option Lane)
deriving DecidableEq, Repr

/-- Carries out a change that may be refused. -/
def Lanes.attempt (l : Lanes Nat) (changed : Option (Lanes Nat)) : LaneAnswer × Lanes Nat :=
  (.flag changed.isSome, changed.getD l)

/-- Carries out a call. -/
def Lanes.perform (l : Lanes Nat) : LaneCall → LaneAnswer × Lanes Nat
  | .join lane member => l.attempt (l.join? lane member)
  | .next =>
    match l.takeNext? with
    | some (member, rest) => (.member (some member), rest)
    | none => (.member none, l)
  | .leave lane member => l.attempt (l.leave? lane member)
  | .extractListed lane members =>
    let (taken, l, asked) :=
      l.extractAsking lane (fun asked m => (members.contains m, asked ++ [m])) []
    (.taken taken asked, l)
  | .holds lane member => (.flag (l.holds lane member), l)
  | .laneOf member => (.lane (l.laneOf? member), l)

end IntentRouter
