import IntentRouter.Session.LaneCalls
import IntentRouter.Session.Service
import IntentRouter.Proofs.Lanes
import IntentRouter.Proofs.Lifecycle
import IntentRouter.Proofs.Coupling
import IntentRouter.Proofs.Output
import IntentRouter.Proofs.Passage
import IntentRouter.Proofs.Change
import IntentRouter.Proofs.Move
import IntentRouter.Proofs.Fate
import IntentRouter.Proofs.Run
import IntentRouter.Proofs.History
import IntentRouter.Proofs.Trace
import IntentRouter.Proofs.Load
import IntentRouter.Proofs.Agenda
import IntentRouter.Proofs.Drain
import IntentRouter.Proofs.Rivals
import IntentRouter.Proofs.Accounts
import IntentRouter.Proofs.Origin
import IntentRouter.Proofs.Authentic
import IntentRouter.Proofs.Access
import IntentRouter.Proofs.Isolation
import IntentRouter.Proofs.Keys
import IntentRouter.Proofs.Decision
import IntentRouter.Proofs.Remembered
import IntentRouter.Proofs.LateReplies
import IntentRouter.Proofs.LanesInUse
import IntentRouter.Proofs.Visit
import IntentRouter.Proofs.Spared
import IntentRouter.Proofs.Pump
import IntentRouter.Proofs.Commute
import IntentRouter.Proofs.Served
import IntentRouter.Proofs.Wake
import IntentRouter.Proofs.Schedule
import IntentRouter.Proofs.Strict
import IntentRouter.Proofs.KeyedList
import IntentRouter.Proofs.Broadcast
import IntentRouter.Proofs.Subscription
import IntentRouter.Proofs.Lagging
import IntentRouter.Proofs.Timeouts
import IntentRouter.Proofs.Disturbance
import IntentRouter.Proofs.Reading
import IntentRouter.Proofs.Overlay
import IntentRouter.Proofs.RoundTrip
import IntentRouter.Proofs.Course
import IntentRouter.Proofs.Settlement
import IntentRouter.Proofs.Release
import IntentRouter.Proofs.Agreement
import IntentRouter.Proofs.Visibility
import IntentRouter.Proofs.Grants
import IntentRouter.Proofs.Chosen
import IntentRouter.Proofs.Session
import IntentRouter.Proofs.Alarm
import IntentRouter.Proofs.Deadline
