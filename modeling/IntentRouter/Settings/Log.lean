import IntentRouter.Json.Record

/-!
# Logging settings

Levels are ordered from the most verbose to the most severe. Every setting has
a default.
-/

namespace IntentRouter

/-- How severe a log line is. -/
inductive LogLevel where
  /-- Finest detail. -/
  | trace
  /-- Detail for finding faults. -/
  | debug
  /-- Normal operation. -/
  | info
  /-- Something unexpected. -/
  | warn
  /-- Something failed. -/
  | error
deriving DecidableEq, Repr

namespace LogLevel

/-- All levels, least severe first. -/
def all : List LogLevel := [.trace, .debug, .info, .warn, .error]

/-- The position among the levels. -/
def rank : LogLevel → Nat
  | .trace => 0
  | .debug => 1
  | .info => 2
  | .warn => 3
  | .error => 4

/-- The order of two levels. -/
def compare (a b : LogLevel) : Ordering := Ord.compare a.rank b.rank

/-- The name of a level, in documents and for people. -/
def text : LogLevel → String
  | .trace => "trace"
  | .debug => "debug"
  | .info => "info"
  | .warn => "warn"
  | .error => "error"

/-- The level with the given name. -/
def ofText? (name : String) : Option LogLevel := all.find? fun l => l.text = name

/-- Reads a level. -/
def ofNode? (depth : Nat) (n : Json.Node) : Option LogLevel := (n.caseName? depth).bind ofText?

/-- The level as a document. -/
def toNode (l : LogLevel) : Json.Node := .ofString l.text

end LogLevel

/-- How log lines are written. -/
inductive LogFormat where
  /-- Plain text. -/
  | plain
  /-- One JSON object a line. -/
  | json
deriving DecidableEq, Repr

namespace LogFormat

/-- The name of a format. -/
def text : LogFormat → String
  | .plain => "text"
  | .json => "json"

/-- The format with the given name. -/
def ofText? (name : String) : Option LogFormat := [plain, json].find? fun f => f.text = name

/-- Reads a format. -/
def ofNode? (depth : Nat) (n : Json.Node) : Option LogFormat := (n.caseName? depth).bind ofText?

/-- The format as a document. -/
def toNode (f : LogFormat) : Json.Node := .ofString f.text

end LogFormat

/-- What is logged, and how. -/
structure Logging where
  /-- The least severe level that is written. -/
  level : LogLevel
  /-- How lines are written. -/
  format : LogFormat
  /-- Whether a line names the module it comes from. -/
  withTarget : Bool
deriving DecidableEq, Repr

namespace Logging

/-- The settings that hold where none are given. -/
def standard : Logging := ⟨.info, .plain, true⟩

/-- The fields in declaration order. -/
def fieldNames : List String := ["level", "format", "with_target"]

/-- Reads settings; what is missing has its default. -/
def ofNode? (depth : Nat) (n : Json.Node) : Option Logging := do
  let fields ← n.fields? fieldNames .defaulted depth
  let inner := depth - 1
  let level ← fields.defaulted? "level" (LogLevel.ofNode? inner) standard.level
  let format ← fields.defaulted? "format" (LogFormat.ofNode? inner) standard.format
  let withTarget ← fields.defaulted? "with_target" (·.bool?) standard.withTarget
  some ⟨level, format, withTarget⟩

/-- The settings as a document. -/
def toNode (l : Logging) : Json.Node :=
  .object [
    ("level", l.level.toNode),
    ("format", l.format.toNode),
    ("with_target", .bool l.withTarget)]

end Logging

end IntentRouter
