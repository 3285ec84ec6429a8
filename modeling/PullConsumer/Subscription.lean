import PullConsumer.Failure
import PullConsumer.Handler
import PullConsumer.Text.Fields

/-!
# Subscriptions

A subscription says what a supervisor consumes: from which consumer, with which handler, and how
many messages at once. It may have a poll interval and a fetch timeout of its own. A draft holds
what was said so far; it becomes a subscription only if nothing is missing or zero, and otherwise
every fault is named at once.
-/

namespace PullConsumer

/-- A subscription that was checked. -/
structure Subscription where
  binding : Binding
  maxConcurrency : Nat
  pollInterval : Option Duration
  fetchTimeout : Option Duration
  handler : Handler
  deriving Inhabited

namespace Subscription

/-- The name of a subscription is that of its consumer. -/
def name (s : Subscription) : String := s.binding.toConsumerId.text

/-- The number of messages handled at once unless a draft says otherwise. -/
def defaultConcurrency : Nat := 250

/-- The subscription spelled out, without its handler. -/
def debug (s : Subscription) : String :=
  Text.openRecord "SubscriptionDefinition" [
    ("binding", Text.record "ConsumerBinding" [
      ("stream", Text.quoted s.binding.stream),
      ("consumer", Text.quoted s.binding.consumer),
      ("subject", Text.quoted s.binding.subject)]),
    ("max_concurrency", toString s.maxConcurrency),
    ("poll_interval", Text.optional (s.pollInterval.map Duration.text)),
    ("fetch_timeout", Text.optional (s.fetchTimeout.map Duration.text))]

/-- What was said about a subscription so far. -/
structure Draft where
  subject : Option String := none
  stream : Option String := none
  consumer : Option String := none
  maxConcurrency : Option Nat := none
  pollInterval : Option Duration := none
  fetchTimeout : Option Duration := none
  handler : Option Handler := none
  deriving Inhabited

namespace Draft

/-- A name that is given and is not all white space. -/
def named? (s : Option String) : Option String :=
  s.filter fun text => !(Text.trimmed text.toList).isEmpty

/-- A fault that is there or not. -/
def fault (isThere : Bool) (text : String) : List String := if isThere then [text] else []

/-- Every fault of a draft, in a fixed order. -/
def problems (d : Draft) : List String :=
  fault (named? d.stream).isNone "stream is missing" ++
  fault (named? d.subject).isNone "subject is missing" ++
  fault (named? d.consumer).isNone "consumer name is missing" ++
  fault d.handler.isNone "handler is missing" ++
  fault (d.maxConcurrency = some 0) "max concurrency must be greater than 0" ++
  fault (d.pollInterval.any Duration.isZero) "poll interval must be greater than 0" ++
  fault (d.fetchTimeout.any Duration.isZero) "fetch timeout must be greater than 0"

/-- The subscription that a draft describes, or all its faults. -/
def build (d : Draft) : Except ConfigError Subscription :=
  match named? d.stream, named? d.subject, named? d.consumer, d.handler, d.problems with
  | some stream, some subject, some consumer, some handler, [] =>
    .ok {
      binding := { stream, consumer, subject }
      maxConcurrency := d.maxConcurrency.getD defaultConcurrency
      pollInterval := d.pollInterval
      fetchTimeout := d.fetchTimeout
      handler }
  | _, _, _, _, problems => .error (.invalidSubscription problems)

/-- A draft that became a subscription had no fault, and its numbers were taken over. -/
theorem of_build {d : Draft} {x : Subscription} (h : d.build = .ok x) : d.problems = [] ∧
    x.maxConcurrency = d.maxConcurrency.getD defaultConcurrency ∧
    x.pollInterval = d.pollInterval ∧ x.fetchTimeout = d.fetchTimeout := by
  rw [build] at h
  split at h
  · next hproblems =>
    obtain rfl := Except.ok.inj h
    exact ⟨hproblems, rfl, rfl, rfl⟩
  · exact absurd h (by simp)

end Draft

end Subscription

end PullConsumer
