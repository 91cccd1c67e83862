import IntentRouter.Settings.Log
import IntentRouter.Refusal
import IntentRouter.Stage

/-!
# Settings

Each stage has a timeout in whole milliseconds, positive and at most 64 bits
wide. What a text says is laid over the defaults; it is checked only after it
has been read as a whole.
-/

namespace IntentRouter

/-- A length of time as whole seconds and nanoseconds. -/
structure Duration where
  /-- The whole seconds. -/
  seconds : Nat
  /-- The nanoseconds on top; a second's worth or more carries over. -/
  nanos : Nat
deriving DecidableEq, Repr

namespace Duration

/-- The length in whole milliseconds, the rest being cut off. -/
def millis (d : Duration) : Nat := 1000 * d.seconds + d.nanos / 1000000

/-- The length of a number of milliseconds. -/
def ofMillis (millis : Nat) : Duration := ⟨millis / 1000, millis % 1000 * 1000000⟩

end Duration

/-- How long requests may wait, and what is logged. -/
structure Settings where
  /-- How long the listener may take to choose, in milliseconds. -/
  choiceMillis : Nat
  /-- How long a handler may take to start, in milliseconds. -/
  startMillis : Nat
  /-- How long a handler may take to reply, in milliseconds. -/
  replyMillis : Nat
  /-- What is logged. -/
  logging : Logging
deriving DecidableEq, Repr

namespace Settings

/-- The settings that hold where none are given. -/
def standard : Settings := ⟨10000, 3000, 5000, .standard⟩

/-- The timeout of a stage in milliseconds. -/
def timeout (c : Settings) : Stage → Nat
  | .choice => c.choiceMillis
  | .start => c.startMillis
  | .reply => c.replyMillis

/-- The settings with another timeout for a stage. -/
def withTimeout (c : Settings) (stage : Stage) (millis : Nat) : Settings :=
  match stage with
  | .choice => { c with choiceMillis := millis }
  | .start => { c with startMillis := millis }
  | .reply => { c with replyMillis := millis }

/-- Changes the timeout of a stage, unless it would be zero or too large. -/
def setTimeout (c : Settings) (stage : Stage) (d : Duration) : Except Refusal Settings :=
  if d.millis = 0 then .error (.invalidSetting (.zero stage.settingText))
  else if Json.Numeral.largest < d.millis then
    .error (.invalidSetting (.tooLarge stage.settingText))
  else .ok (c.withTimeout stage d.millis)

/-- The first stage whose timeout is zero. -/
def zeroStage? (c : Settings) : Option Stage :=
  [.choice, .start, .reply].find? fun stage => c.timeout stage = 0

/-- Accepts settings whose timeouts are positive, and names the first that is not. -/
def check (c : Settings) : Except Refusal Settings :=
  match c.zeroStage? with
  | some stage => .error (.invalidSetting (.zero stage.fieldName))
  | none => .ok c

/-- The fields in declaration order. -/
def fieldNames : List String :=
  [Stage.choice.fieldName, Stage.start.fieldName, Stage.reply.fieldName, "logging"]

/-- Reads settings; what is missing has its default. -/
def ofNode? (depth : Nat) (n : Json.Node) : Option Settings := do
  let fields ← n.fields? fieldNames .defaulted depth
  let inner := depth - 1
  let choice ← fields.defaulted? Stage.choice.fieldName (·.count?) standard.choiceMillis
  let start ← fields.defaulted? Stage.start.fieldName (·.count?) standard.startMillis
  let reply ← fields.defaulted? Stage.reply.fieldName (·.count?) standard.replyMillis
  let logging ← fields.defaulted? "logging" (Logging.ofNode? inner) standard.logging
  some ⟨choice, start, reply, logging⟩

/-- The settings as a document, its fields in declaration order. -/
def toNode (c : Settings) : Json.Node :=
  .object [
    (Stage.choice.fieldName, .ofNat c.choiceMillis),
    (Stage.start.fieldName, .ofNat c.startMillis),
    (Stage.reply.fieldName, .ofNat c.replyMillis),
    ("logging", c.logging.toNode)]

/-- Reads settings from a text and checks what it says. -/
def ofText (text : String) : Except Refusal Settings :=
  match (Json.Node.parse? text).bind (ofNode? Json.nestingLimit) with
  | some c => c.check
  | none => .error .unreadable

/-- Reads settings from a file with the given bytes; `none` when there is no file. -/
def ofFile (content : Option ByteArray) : Except Refusal Settings :=
  match content.bind String.fromUTF8? with
  | some text => ofText text
  | none => .error .noFile

end Settings

end IntentRouter
