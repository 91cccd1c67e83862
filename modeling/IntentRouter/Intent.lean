import IntentRouter.NameSet
import IntentRouter.Json.Record

/-!
# Intents

An intent is the declaration of an application that it handles a kind of
request. It is identified by its id together with its owner, and may restrict
who sees it and which parameters it accepts.
-/

namespace IntentRouter

/-- Who may see an intent besides its owner. -/
inductive Visibility where
  /-- Every application that holds the required capabilities. -/
  | everyone
  /-- Nobody else. -/
  | owner
deriving DecidableEq, Repr

namespace Visibility

/-- The name of the case in documents. -/
def caseName : Visibility → String
  | .everyone => "Public"
  | .owner => "Private"

/-- The word shown to people. -/
def text : Visibility → String
  | .everyone => "public"
  | .owner => "private"

/-- The case with the given name. -/
def ofCaseName? (name : String) : Option Visibility :=
  [everyone, owner].find? fun v => v.caseName = name

/-- Reads a visibility. -/
def ofNode? (depth : Nat) (n : Json.Node) : Option Visibility :=
  (n.caseName? depth).bind ofCaseName?

/-- The visibility as a document. -/
def toNode (v : Visibility) : Json.Node := .ofString v.caseName

end Visibility

/-- What an application declares that it handles. -/
structure Intent where
  /-- The id, shared by all applications that handle this kind of request. -/
  intentId : String
  /-- The application that declares the intent. -/
  owner : String
  /-- The background handler of the owner that requests go to, if any. -/
  backgroundHandler : Option String
  /-- The capabilities that a requester other than the owner must hold. -/
  requiredCapabilities : NameSet
  /-- Who may see the intent besides its owner. -/
  visibility : Visibility
  /-- The parameters that a request must carry with equal values. -/
  constraints : Json.Parameters

namespace Intent

/-- An intent that everyone may request with any parameters. -/
def plain (intentId owner : String) : Intent :=
  ⟨intentId, owner, none, .empty, .everyone, .empty⟩

instance : Inhabited Intent := ⟨plain "" ""⟩

/-- Equality of all six fields, values being compared as values. -/
def same (i j : Intent) : Bool :=
  i.intentId = j.intentId && i.owner = j.owner && i.backgroundHandler = j.backgroundHandler &&
    i.requiredCapabilities = j.requiredCapabilities && i.visibility = j.visibility &&
    i.constraints.same j.constraints

instance : BEq Intent := ⟨same⟩

/-- The intent has the given id and owner. -/
def hasKey (i : Intent) (intentId owner : String) : Bool := i.intentId = intentId && i.owner = owner

/-- Every constrained parameter is present with an equal value; others do not matter. -/
def accepts (i : Intent) (parameters : Json.Parameters) : Bool :=
  i.constraints.entries.all fun (name, expected) =>
    match parameters.get? name with
    | some value => value.same expected
    | none => false

/-- The given capabilities cover every required one. -/
def satisfiedBy (i : Intent) (granted : NameSet) : Bool := i.requiredCapabilities.subset granted

/-- The name by which people know the intent: its id and its owner. -/
def name (i : Intent) : String := i.intentId ++ "/" ++ i.owner

/-- The fields of an intent in declaration order. -/
def fieldNames : List String :=
  ["intent_id", "application_id", "background_handler_id", "required_capabilities", "visibility",
    "parameter_match"]

/-- Reads an intent. -/
def ofNode? (depth : Nat) (n : Json.Node) : Option Intent := do
  let fields ← n.fields? fieldNames .complete depth
  let inner := depth - 1
  let intentId ← fields.required? "intent_id" (·.string?)
  let owner ← fields.required? "application_id" (·.string?)
  let backgroundHandler ← fields.optional? "background_handler_id" (·.string?)
  let capabilities ← fields.required? "required_capabilities" (·.strings? inner)
  let visibility ← fields.required? "visibility" (Visibility.ofNode? inner)
  let constraints ← fields.required? "parameter_match" (Json.Parameters.ofNode? inner)
  some ⟨intentId, owner, backgroundHandler, .ofList capabilities, visibility, constraints⟩

/-- The intent as a document, its fields in declaration order. -/
def toNode (i : Intent) : Json.Node :=
  .object [
    ("intent_id", .ofString i.intentId),
    ("application_id", .ofString i.owner),
    ("background_handler_id", .ofString? i.backgroundHandler),
    ("required_capabilities", .ofStrings i.requiredCapabilities.members),
    ("visibility", i.visibility.toNode),
    ("parameter_match", i.constraints.toNode)]

end Intent

end IntentRouter
