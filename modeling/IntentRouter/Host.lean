import IntentRouter.Effect

/-!
# The host

The host knows which applications run, on which channel they can be reached and
which capabilities they hold, and it takes commands as long as somebody is
there to carry them out. A grant that breaks off in the middle keeps what was
granted before; from then on every look at the capabilities is reported, and
nothing else changes.
-/

namespace IntentRouter

/-- What the host knows. -/
structure Host where
  /-- The running applications, each with its channel if it has one. -/
  running : List (String × Option Connection)
  /-- The capabilities granted to applications. -/
  granted : List (String × NameSet)
  /-- A grant has broken off in the middle. -/
  doubtful : Bool
  /-- Somebody carries out commands. -/
  attended : Bool
deriving DecidableEq

namespace Host

/-- A host with nothing running and nothing granted. -/
def fresh : Host := ⟨[], [], false, true⟩

/-- An application runs, with or without a channel. -/
def run (h : Host) (application : String) (channel : Option Connection) : Host :=
  { h with running := Ascending.insert Prod.fst (application, channel) h.running }

/-- An application does not run any more. -/
def stop (h : Host) (application : String) : Host :=
  { h with running := Ascending.erase Prod.fst application h.running }

/-- Whether an application runs. -/
def isRunning (h : Host) (application : String) : Bool :=
  (Ascending.find? Prod.fst application h.running).isSome

/-- The channel of a running application. -/
def connection? (h : Host) (application : String) : Option Connection :=
  (Ascending.find? Prod.fst application h.running).bind Prod.snd

/-- The capabilities an application holds. -/
def capabilities (h : Host) (application : String) : NameSet :=
  ((Ascending.find? Prod.fst application h.granted).map Prod.snd).getD .empty

/-- What a look at the capabilities reports. -/
def lookReport (h : Host) : List Entry := if h.doubtful then [.capabilitiesRecovered] else []

/-- Grants capabilities on top of those held. -/
def grant (h : Host) (application : String) (names : List String) : Host :=
  { h with granted :=
      Ascending.insert Prod.fst (application, (h.capabilities application).insertAll names) h.granted }

/-- A grant that breaks off after the given capabilities. -/
def grantBroken (h : Host) (application : String) (names : List String) : Host :=
  { h.grant application names with doubtful := true }

/-- Takes all capabilities from an application. -/
def revoke (h : Host) (application : String) : Host :=
  { h with granted := Ascending.erase Prod.fst application h.granted }

/-- Nobody carries out commands any more. -/
def leave (h : Host) : Host := { h with attended := false }

/-- Hands a command over; without anybody to carry it out it is dropped and reported. -/
def issue (h : Host) (command : Command) : Effect :=
  if h.attended then .command command else .note .commandDiscarded

end Host

end IntentRouter
