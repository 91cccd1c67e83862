import IntentRouter.Stage

/-!
# The four lanes

Each request in flight stands in exactly one lane. A lane is served from the
front and joined at the back; joining one is refused to whoever stands in any.
-/

namespace IntentRouter

/-- Who stands in which lane, the next in line first. -/
structure Lanes (α : Type) where
  /-- The main lane. -/
  main : List α
  /-- Those waiting for the choice of a handler. -/
  choice : List α
  /-- Those waiting for their handler to start. -/
  starting : List α
  /-- Those waiting for a reply. -/
  sent : List α
deriving DecidableEq, Repr

namespace Lanes

variable {α : Type}

/-- Four empty lanes. -/
def empty : Lanes α := ⟨[], [], [], []⟩

/-- Those who stand in a lane. -/
def get (l : Lanes α) : Lane → List α
  | .main => l.main
  | .choice => l.choice
  | .starting => l.starting
  | .sent => l.sent

/-- The lanes with another content of one of them. -/
def set (l : Lanes α) (lane : Lane) (content : List α) : Lanes α :=
  match lane with
  | .main => { l with main := content }
  | .choice => { l with choice := content }
  | .starting => { l with starting := content }
  | .sent => { l with sent := content }

/-- A lane holds what it has been given. -/
@[simp]
theorem get_set_self (l : Lanes α) (lane : Lane) (content : List α) :
    (l.set lane content).get lane = content := by
  cases lane <;> rfl

/-- Changing a lane leaves the others as they are. -/
theorem get_set_of_ne (l : Lanes α) {lane other : Lane} (h : lane ≠ other) (content : List α) :
    (l.set lane content).get other = l.get other := by
  cases lane <;> cases other <;> first | rfl | exact absurd rfl h

/-- Everyone, lane after lane. -/
def toList (l : Lanes α) : List α := Lane.all.flatMap l.get

/-- How many stand in a lane. -/
def length (l : Lanes α) (lane : Lane) : Nat := (l.get lane).length

/-- Nobody stands in any lane. -/
def isEmpty (l : Lanes α) : Bool := Lane.all.all fun lane => (l.get lane).isEmpty

/-- Takes the next in line of the main lane. -/
def takeNext? (l : Lanes α) : Option (α × Lanes α) :=
  match l.main with
  | [] => none
  | x :: rest => some (x, { l with main := rest })

/-- Takes out everyone in a lane whom the test selects. Gives them in their order. -/
def extract (l : Lanes α) (lane : Lane) (select : α → Bool) : List α × Lanes α :=
  ((l.get lane).filter select, l.set lane ((l.get lane).filter fun x => ! select x))

/-- Asks about everyone in turn, each answer seeing what the earlier ones left behind.
Gives those selected, the others, and what is left behind in the end. -/
def ask {σ : Type} (select : σ → α → Bool × σ) : σ → List α → List α × List α × σ
  | memory, [] => ([], [], memory)
  | memory, x :: rest =>
    let (selected, memory) := select memory x
    let (taken, kept, memory) := ask select memory rest
    if selected then (x :: taken, kept, memory) else (taken, x :: kept, memory)

/-- Takes out everyone in a lane whom a test with a memory selects. -/
def extractAsking {σ : Type} (l : Lanes α) (lane : Lane) (select : σ → α → Bool × σ) (memory : σ) :
    List α × Lanes α × σ :=
  let (taken, kept, memory) := ask select memory (l.get lane)
  (taken, l.set lane kept, memory)

variable [DecidableEq α]

/-- Whether someone stands in a lane. -/
def holds (l : Lanes α) (lane : Lane) (x : α) : Bool := (l.get lane).contains x

/-- The lane in which someone stands. -/
def laneOf? (l : Lanes α) (x : α) : Option Lane := Lane.all.find? fun lane => l.holds lane x

/-- Joins a lane at the back; `none` for one who stands in a lane already. -/
def join? (l : Lanes α) (lane : Lane) (x : α) : Option (Lanes α) :=
  match l.laneOf? x with
  | some _ => none
  | none => some (l.set lane (l.get lane ++ [x]))

/-- Leaves a lane; `none` for one who does not stand in it. -/
def leave? (l : Lanes α) (lane : Lane) (x : α) : Option (Lanes α) :=
  if l.holds lane x then some (l.set lane ((l.get lane).erase x)) else none

end Lanes

end IntentRouter
