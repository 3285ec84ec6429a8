import PullConsumer.Event

/-!
# Log lines

Each kind of event has a level, a message and a choice of fields. Names and the reason are always
written, with a default where the event has none; the number of attempts, the grace period and the
observer are left out where they are absent.
-/

namespace PullConsumer.Event

/-- The value of a field of a log line. -/
inductive FieldValue where
  | text (s : String)
  | number (n : Nat)
  deriving DecidableEq, Inhabited

/-- A line of the log. -/
structure LogLine where
  level : String
  message : String
  fields : List (String × FieldValue)
  deriving DecidableEq, Inhabited

namespace LogLine

/-- The name under which the writer of the log takes events. -/
def writer : String := "LogWriter"

/-- The fields that name a subscription. -/
def names (e : Event) : List (String × FieldValue) := [
  ("stream", .text (e.stream.getD "-")),
  ("consumer", .text (e.consumer.getD "-")),
  ("subject", .text (e.subject.getD "-"))]

def reasonAs (field : String) (e : Event) : List (String × FieldValue) :=
  [(field, .text (e.reason.getD ""))]

def attempts (e : Event) : List (String × FieldValue) :=
  (e.attempt.map fun n => ("attempts", FieldValue.number n)).toList

def grace (e : Event) : List (String × FieldValue) :=
  (e.timeoutMillis.map fun n => ("grace_ms", FieldValue.number n)).toList

def observer (e : Event) : List (String × FieldValue) :=
  (e.subscriber.map fun s => ("subscriber", FieldValue.text s)).toList

/-- The line written for an event. -/
def ofEvent (e : Event) : LogLine :=
  match e.kind with
  | .subscriptionStarting => ⟨"INFO", "subscription starting", names e⟩
  | .subscriptionBound => ⟨"INFO", "subscription bound", names e ++ attempts e⟩
  | .subscriptionStopped => ⟨"INFO", "subscription stopped", names e⟩
  | .bindFailed => ⟨"ERROR", "bind failed", names e ++ attempts e ++ reasonAs "reason" e⟩
  | .fetchFailed =>
    ⟨"ERROR", "fetch failed, subscription stopping", names e ++ reasonAs "reason" e⟩
  | .handlerFailed => ⟨"WARN", "handler failed", names e ++ reasonAs "reason" e⟩
  | .handlerFatal =>
    ⟨"ERROR", "handler failed, message dropped", names e ++ reasonAs "reason" e⟩
  | .handlerPanicked => ⟨"ERROR", "handler panicked", names e ++ reasonAs "reason" e⟩
  | .messageNacked => ⟨"WARN", "message nacked", names e ++ reasonAs "reason" e⟩
  | .ackFailed => ⟨"ERROR", "ack failed", names e ++ reasonAs "reason" e⟩
  | .nackFailed => ⟨"WARN", "nack failed", names e ++ reasonAs "reason" e⟩
  | .shutdownRequested => ⟨"INFO", "shutdown requested", reasonAs "reason" e⟩
  | .drained => ⟨"INFO", "drained", []⟩
  | .graceExceeded => ⟨"ERROR", "grace exceeded", grace e ++ reasonAs "busy" e⟩
  | .subscriberOverflow => ⟨"WARN", "subscriber overflow", observer e ++ reasonAs "reason" e⟩
  | .subscriberPanicked => ⟨"ERROR", "subscriber panicked", observer e ++ reasonAs "reason" e⟩

end LogLine

end PullConsumer.Event
