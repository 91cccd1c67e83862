import IntentRouter.Effect

/-!
# The catalog of intents

The catalog knows the applications, their background handlers and the intents
they declare, each in the order of registration. An intent is identified by its
id and its owner. Every change of the intents is announced by two events, one
that says what changed and one that says that the list did.
-/

namespace IntentRouter

/-- What has been registered. -/
structure Catalog where
  /-- The known applications in the order of registration. -/
  applications : List String
  /-- The background handlers of applications, each list in the order of registration. -/
  handlers : List (String × List String)
  /-- The registered intents in the order of registration. -/
  intents : List Intent

namespace Catalog

/-- Nothing is registered. -/
def empty : Catalog := ⟨[], [], []⟩

/-- Whether an application is known. -/
def isKnown (c : Catalog) (application : String) : Bool := c.applications.contains application

/-- Makes an application known. Answers whether it was new. -/
def addApplication (c : Catalog) (application : String) : Bool × Catalog :=
  if c.isKnown application then (false, c)
  else (true, { c with applications := c.applications ++ [application] })

/-- Forgets an application and its background handlers. Its intents stay. -/
def removeApplication (c : Catalog) (application : String) : Catalog :=
  { c with
    applications := c.applications.filter fun a => a ≠ application
    handlers := Ascending.erase Prod.fst application c.handlers }

/-- The background handlers of an application. -/
def handlersOf (c : Catalog) (application : String) : List String :=
  ((Ascending.find? Prod.fst application c.handlers).map Prod.snd).getD []

/-- The catalog with other background handlers for an application. -/
def withHandlers (c : Catalog) (application : String) (handlers : List String) : Catalog :=
  { c with handlers := Ascending.insert Prod.fst (application, handlers) c.handlers }

/-- Registers a background handler of a known application. Answers whether it was new. -/
def addHandler (c : Catalog) (application handler : String) : Bool × Catalog :=
  let known := c.handlersOf application
  if ¬ c.isKnown application ∨ known.contains handler then (false, c)
  else (true, c.withHandlers application (known ++ [handler]))

/-- Forgets a background handler. -/
def removeHandler (c : Catalog) (application handler : String) : Catalog :=
  let known := c.handlersOf application
  if known.contains handler then
    c.withHandlers application (known.filter fun h => h ≠ handler)
  else c

/-- The first reason against registering an intent. -/
def fault? (c : Catalog) (i : Intent) : Option Refusal :=
  if i.intentId = "" then some (.invalidIntent .emptyId)
  else if ¬ c.isKnown i.owner then some (.unknownApplication i.owner)
  else if c.intents.any fun j => j.hasKey i.intentId i.owner then
    some (.invalidIntent (.alreadyRegistered i.name))
  else match i.backgroundHandler with
    | some handler =>
      if (c.handlersOf i.owner).contains handler then none
      else some (.invalidIntent (.missingHandler handler i.owner))
    | none => none

/-- Registers an intent, unless there is a reason against it. -/
def add (c : Catalog) (i : Intent) : Turn Catalog (Except Refusal Intent) :=
  match c.fault? i with
  | some reason => .quiet (.error reason) c
  | none =>
    ⟨.ok i, { c with intents := c.intents ++ [i] },
      [.note (.intentAdded i.name), .publish (.added i), .publish .listChanged]⟩

/-- Removes the intent with the id and the owner of the given one. -/
def remove (c : Catalog) (i : Intent) : Turn Catalog (Option Intent) :=
  match c.intents.find? fun j => j.hasKey i.intentId i.owner with
  | none => .quiet none c
  | some removed =>
    ⟨some removed,
      { c with intents := c.intents.eraseP fun j => j.hasKey i.intentId i.owner },
      [.note (.intentRemoved removed.name), .publish (.removed removed), .publish .listChanged]⟩

/-- The intent with the given id and owner, if it accepts the parameters. -/
def find? (c : Catalog) (intentId owner : String) (parameters : Json.Parameters) : Option Intent :=
  c.intents.find? fun i => i.hasKey intentId owner && i.accepts parameters

/-- The intents with the given id that accept the parameters. -/
def withId (intents : List Intent) (intentId : String) (parameters : Json.Parameters) :
    List Intent :=
  intents.filter fun i => i.intentId = intentId && i.accepts parameters

/-- The intents of the given owner that accept the parameters. -/
def ownedBy (intents : List Intent) (owner : String) (parameters : Json.Parameters) :
    List Intent :=
  intents.filter fun i => i.owner = owner && i.accepts parameters

end Catalog

end IntentRouter
