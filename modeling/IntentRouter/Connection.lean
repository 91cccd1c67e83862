import IntentRouter.Json.Record

/-!
# Channels to applications

A channel is a connection on which messages reach an application. What it
consists of is the host's business.
-/

namespace IntentRouter

/-- A connection to an application. -/
structure Connection where
  /-- The application at the other end. -/
  application : String
  /-- The host's name for the connection. -/
  connection : String
deriving DecidableEq, Repr

namespace Connection

/-- The fields in declaration order. -/
def fieldNames : List String := ["application_id", "connection_id"]

/-- Reads a channel. -/
def ofNode? (depth : Nat) (n : Json.Node) : Option Connection := do
  let fields ← n.fields? fieldNames .complete depth
  let application ← fields.required? "application_id" (·.string?)
  let connection ← fields.required? "connection_id" (·.string?)
  some ⟨application, connection⟩

/-- The channel as a document. -/
def toNode (c : Connection) : Json.Node :=
  .object [("application_id", .ofString c.application), ("connection_id", .ofString c.connection)]

end Connection

end IntentRouter
