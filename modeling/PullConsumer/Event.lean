import PullConsumer.Binding
import PullConsumer.Duration

/-!
# Events

What a supervisor and its parts report while they run. An event has a kind and, depending on it,
the names of the subscription it is about, the observer it is about, a reason, a number of attempts
and a time limit. Each name is present or absent on its own; a subscription has a name to show only
if stream and consumer are both there.
-/

namespace PullConsumer

/-- The kinds of events: the life of a subscription, the handling of messages, the shutdown, and the
health of observers. -/
inductive EventKind where
  | subscriberPanicked
  | subscriberOverflow
  | shutdownRequested
  | drained
  | graceExceeded
  | subscriptionStarting
  | subscriptionBound
  | bindFailed
  | fetchFailed
  | subscriptionStopped
  | handlerFailed
  | handlerFatal
  | handlerPanicked
  | messageNacked
  | ackFailed
  | nackFailed
  deriving DecidableEq, Inhabited

namespace EventKind

/-- Every kind, once. -/
def all : List EventKind := [
  subscriberPanicked, subscriberOverflow, shutdownRequested, drained, graceExceeded,
  subscriptionStarting, subscriptionBound, bindFailed, fetchFailed, subscriptionStopped,
  handlerFailed, handlerFatal, handlerPanicked, messageNacked, ackFailed, nackFailed]

def name : EventKind → String
  | subscriberPanicked => "SubscriberPanicked"
  | subscriberOverflow => "SubscriberOverflow"
  | shutdownRequested => "ShutdownRequested"
  | drained => "Drained"
  | graceExceeded => "GraceExceeded"
  | subscriptionStarting => "SubscriptionStarting"
  | subscriptionBound => "SubscriptionBound"
  | bindFailed => "BindFailed"
  | fetchFailed => "FetchFailed"
  | subscriptionStopped => "SubscriptionStopped"
  | handlerFailed => "HandlerFailed"
  | handlerFatal => "HandlerFatal"
  | handlerPanicked => "HandlerPanicked"
  | messageNacked => "MessageNacked"
  | ackFailed => "AckFailed"
  | nackFailed => "NackFailed"

/-- The kind of a given name. -/
def ofName? (s : String) : Option EventKind := all.find? (·.name = s)

end EventKind

/-- A report of something that happened. -/
structure Event where
  kind : EventKind
  subject : Option String := none
  stream : Option String := none
  consumer : Option String := none
  subscriber : Option String := none
  reason : Option String := none
  attempt : Option Nat := none
  timeoutMillis : Option Nat := none
  deriving DecidableEq, Inhabited

namespace Event

/-- An event of a kind, with nothing else set. -/
def of (kind : EventKind) : Event := { kind }

def withNames (e : Event) (subject stream consumer : String) : Event :=
  { e with subject := some subject, stream := some stream, consumer := some consumer }

def withBinding (e : Event) (b : Binding) : Event := e.withNames b.subject b.stream b.consumer

def withReason (e : Event) (r : String) : Event := { e with reason := some r }

def withAttempt (e : Event) (n : Nat) : Event := { e with attempt := some n }

/-- A time limit in whole milliseconds; one that is too long for 32 bits is cut to the largest
number that fits. -/
def withTimeout (e : Event) (d : Duration) : Event :=
  { e with timeoutMillis := some (min d.millis (Nat.pow 2 32 - 1)) }

/-- The report that an observer did not take an event. -/
def overflow (subscriber reason : String) : Event :=
  { kind := .subscriberOverflow, subscriber := some subscriber, reason := some reason }

/-- The report that an observer panicked while taking an event. -/
def panicked (subscriber reason : String) : Event :=
  { kind := .subscriberPanicked, subscriber := some subscriber, reason := some reason }

def isOverflow (e : Event) : Bool := e.kind = .subscriberOverflow

/-- The subscription that the event is about, where its consumer is fully named. -/
def subscription? (e : Event) : Option String :=
  match e.stream, e.consumer with
  | some s, some c => some (ConsumerId.text ⟨s, c⟩)
  | _, _ => none

end Event

end PullConsumer
