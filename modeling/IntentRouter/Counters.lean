import IntentRouter.Json.Record

/-!
# Counters

What has become of the requests so far.
-/

namespace IntentRouter

/-- The counters of a router. -/
structure Counters where
  /-- Requests that were admitted. -/
  submitted : Nat
  /-- Requests that were refused. -/
  rejected : Nat
  /-- Requests that ended with a success. -/
  succeeded : Nat
  /-- Requests that ended with a failure. -/
  failed : Nat
  /-- Outcomes that were dropped because the requester had no channel. -/
  undeliverable : Nat
deriving DecidableEq, Repr

namespace Counters

/-- Nothing has happened. -/
def zero : Counters := ⟨0, 0, 0, 0, 0⟩

/-- The counters in declaration order. -/
def toList (m : Counters) : List Nat :=
  [m.submitted, m.rejected, m.succeeded, m.failed, m.undeliverable]

/-- The fields in declaration order. -/
def fieldNames : List String :=
  ["submitted_requests", "rejected_requests", "succeeded_requests", "failed_requests",
    "undeliverable_replies"]

/-- Reads counters. -/
def ofNode? (depth : Nat) (n : Json.Node) : Option Counters := do
  let fields ← n.fields? fieldNames .complete depth
  let submitted ← fields.required? "submitted_requests" (·.count?)
  let rejected ← fields.required? "rejected_requests" (·.count?)
  let succeeded ← fields.required? "succeeded_requests" (·.count?)
  let failed ← fields.required? "failed_requests" (·.count?)
  let undeliverable ← fields.required? "undeliverable_replies" (·.count?)
  some ⟨submitted, rejected, succeeded, failed, undeliverable⟩

/-- The counters as a document. -/
def toNode (m : Counters) : Json.Node :=
  .object (fieldNames.zip (m.toList.map .ofNat))

end Counters

end IntentRouter
