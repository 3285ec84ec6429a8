import PullConsumer.Retry

/-!
# Settings of a supervisor

The times and sizes that all subscriptions of a supervisor share. The three times that the way from
fetch to acknowledgement rests on have to be positive; a grace period of zero means that a stop
waits without a limit.
-/

namespace PullConsumer

/-- The settings of a supervisor, with their defaults. -/
structure Settings where
  pollInterval : Duration := .ofMillis 10
  fetchTimeout : Duration := .ofSeconds 5
  ackTimeout : Duration := .ofSeconds 5
  grace : Duration := .zero
  busCapacity : Nat := 1024
  bindAttempts : Nat := 3
  bindDelay : Duration := .ofMillis 500
  deriving DecidableEq, Inhabited

namespace Settings

/-- The longest time a stop waits, if it is limited. -/
def graceLimit (s : Settings) : Option Duration := if s.grace.isZero then none else some s.grace

/-- The capacity of the event ring: at least one. -/
def ringCapacity (s : Settings) : Nat := max s.busCapacity 1

/-- How binding to a consumer is tried again. That a consumer is missing or has another filter does
not pass with time, so it is not tried again. -/
def bindRetry (s : Settings) : Except ConfigError (Retry.Policy BrokerError) :=
  match Retry.Policy.create s.bindAttempts with
  | .ok p => .ok ((p.withDelay s.bindDelay).deny [(BrokerError.binding "").label])
  | .error e => .error e

/-- The times that have to be positive, with their names, in the order of looking. -/
def required (s : Settings) : List (String × Duration) := [
  ("poll_interval", s.pollInterval),
  ("fetch_timeout", s.fetchTimeout),
  ("ack_timeout", s.ackTimeout)]

/-- Accepts settings with which a supervisor can work, or names the first fault. -/
def validate (s : Settings) : Except ConfigError Unit :=
  match s.required.find? fun field => field.2.isZero with
  | some field => .error (.zeroDuration field.1)
  | none =>
    match s.bindRetry with
    | .ok _ => .ok ()
    | .error e => .error e

/-- The settings spelled out. -/
def debug (s : Settings) : String :=
  Text.record "Config" [
    ("poll_interval", s.pollInterval.text),
    ("fetch_timeout", s.fetchTimeout.text),
    ("ack_timeout", s.ackTimeout.text),
    ("grace", s.grace.text),
    ("bus_capacity", toString s.busCapacity),
    ("bind_attempts", toString s.bindAttempts),
    ("bind_delay", s.bindDelay.text)]

end Settings

end PullConsumer
