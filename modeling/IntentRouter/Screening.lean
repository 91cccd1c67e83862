import IntentRouter.Host

/-!
# Which intents a requester may see

An owner sees its own intents. Everyone else sees those that are open to
everyone and whose required capabilities it holds. The capabilities are looked
up only when the first intent asks for them, and then once.
-/

namespace IntentRouter

/-- What became of a list of intents. -/
structure Screening where
  /-- The intents that may be seen, in their order. -/
  visible : List Intent
  /-- The reports made on the way. -/
  report : List Entry
  /-- How often the capabilities were looked up. -/
  lookUps : Nat

namespace Screening

/-- One more intent in front, which may be seen. -/
def keep (i : Intent) (s : Screening) : Screening := { s with visible := i :: s.visible }

/-- Reports made before. -/
def reporting (entries : List Entry) (s : Screening) : Screening :=
  { s with report := entries ++ s.report }

/-- Screens intents for a requester. What it holds is passed along once it has
been looked up. -/
def run (h : Host) (requester : String) : Option NameSet → List Intent → Screening
  | _, [] => ⟨[], [], 0⟩
  | held, i :: rest =>
    if i.owner = requester then (run h requester held rest).keep i
    else if i.visibility = .owner then
      (run h requester held rest).reporting [.hiddenIntent i.name]
    else if i.requiredCapabilities.isEmpty then (run h requester held rest).keep i
    else
      let (granted, report, lookUps) := match held with
        | some granted => (granted, [], 0)
        | none => (h.capabilities requester, h.lookReport, 1)
      let others := run h requester (some granted) rest
      let others := { others with lookUps := lookUps + others.lookUps }
      if i.satisfiedBy granted then (others.keep i).reporting report
      else others.reporting (report ++ [.guardedIntent i.name])

end Screening

/-- Screens intents for a requester. -/
def Host.screen (h : Host) (requester : String) (intents : List Intent) : Screening :=
  Screening.run h requester none intents

/-- The requester owns the intent, or it is open to everyone and the requester
holds what it requires. -/
def Host.mayUse (h : Host) (requester : String) (i : Intent) : Bool :=
  i.owner = requester ||
    (i.visibility = .everyone && i.satisfiedBy (h.capabilities requester))

end IntentRouter
