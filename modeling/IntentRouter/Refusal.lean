import IntentRouter.RequestId

/-!
# Refusals

Why an operation is refused. A refusal names its cause; the wording follows
from it. Requests are named in the wording by whoever shows it.
-/

namespace IntentRouter

/-- What is wrong with an intent that is to be registered. -/
inductive IntentFault where
  /-- Its id is empty. -/
  | emptyId
  /-- An intent of this name is registered. -/
  | alreadyRegistered (name : String)
  /-- Its background handler is not registered for its owner. -/
  | missingHandler (handler owner : String)
deriving DecidableEq, Repr

/-- What is wrong with a setting. -/
inductive SettingFault where
  /-- It is zero. -/
  | zero (setting : String)
  /-- It does not fit 64 bits. -/
  | tooLarge (setting : String)
deriving DecidableEq, Repr

/-- Why an operation is refused. -/
inductive Refusal where
  /-- The intent cannot be registered. -/
  | invalidIntent (fault : IntentFault)
  /-- The owner of the intent is not known. -/
  | unknownApplication (application : String)
  /-- The requester is not running. -/
  | unknownRequester (intentId application : String)
  /-- No registered intent answers the request. -/
  | unknownIntent (intentId application : String)
  /-- The requester may not see any intent that answers the request. -/
  | inaccessibleIntent (intentId application : String)
  /-- The request does not wait for what was reported about it. -/
  | notPending (request : RequestId)
  /-- A setting is out of range. -/
  | invalidSetting (fault : SettingFault)
  /-- The service has stopped. -/
  | stopped
  /-- There is nothing to run timers on. -/
  | noTimers
  /-- The text is not a document of the expected form. -/
  | unreadable
  /-- The file is missing or is not text. -/
  | noFile
  /-- Logging has been set up before. -/
  | loggingInstalled
deriving DecidableEq, Repr

namespace IntentFault

/-- The wording of a fault. -/
def message : IntentFault → String
  | .emptyId => "intent id is empty"
  | .alreadyRegistered name => "intent " ++ name ++ " is already registered"
  | .missingHandler handler owner =>
    "background handler " ++ handler ++ " is not registered for application " ++ owner

end IntentFault

namespace SettingFault

/-- The wording of a fault. -/
def message : SettingFault → String
  | .zero setting => setting ++ " must be greater than 0"
  | .tooLarge setting => setting ++ " is too large"

end SettingFault

namespace Refusal

/-- The wording of a refusal that has a fixed one. -/
def message? (label : RequestId → String) : Refusal → Option String
  | .invalidIntent fault => some ("Invalid intent: " ++ fault.message)
  | .unknownApplication application => some ("Unknown application: " ++ application)
  | .unknownRequester intentId application =>
    some ("Intent " ++ intentId ++ " was requested from unknown application " ++ application)
  | .unknownIntent intentId application =>
    some ("Unknown intent " ++ intentId ++ " was requested from application " ++ application)
  | .inaccessibleIntent intentId application =>
    some ("Inaccessible intent " ++ intentId ++ " was requested from application " ++ application)
  | .notPending request => some ("Request " ++ label request ++ " is not pending at this stage")
  | .invalidSetting fault => some ("Invalid configuration: " ++ fault.message)
  | .stopped => some "Intent server stopped"
  | _ => none

end Refusal

end IntentRouter
