import PullConsumer.Binding
import PullConsumer.Duration
import PullConsumer.Text.Record

/-!
# Causes of failure

Four families, by who reports them: a faulty configuration, the broker, a message handler, and the
supervisor itself. Each cause has a stable label for counters and filters and one message for
people. A `Crash` is none of these: it is a request that ends the task that makes it.
-/

namespace PullConsumer

/-- An error that can be sorted by a category and shown as a text. -/
class Categorized (ε : Type) where
  category : ε → String
  text : ε → String

/-- Faults of a configuration, found before anything runs. -/
inductive ConfigError where
  | invalidSubscription (problems : List String)
  | zeroAttempts
  | zeroConcurrency
  | zeroDuration (field : String)
  | duplicateSubscription (consumer : ConsumerId)
  deriving DecidableEq, Inhabited

namespace ConfigError

def label : ConfigError → String
  | invalidSubscription _ => "config_invalid_subscription"
  | zeroAttempts => "config_zero_attempts"
  | zeroConcurrency => "config_zero_concurrency"
  | zeroDuration _ => "config_zero_duration"
  | duplicateSubscription _ => "config_duplicate_subscription"

def message : ConfigError → String
  | invalidSubscription problems => "invalid subscription: " ++ Text.joined "; " problems
  | zeroAttempts => "max attempts must be greater than 0"
  | zeroConcurrency => "max concurrency must be greater than 0"
  | zeroDuration field => field ++ " must be greater than 0"
  | duplicateSubscription c =>
    "duplicate subscription: stream=" ++ c.stream ++ " consumer=" ++ c.consumer

/-- The cause spelled out with its parts. -/
def debug : ConfigError → String
  | invalidSubscription problems =>
    Text.record "InvalidSubscription" [("problems", Text.listed (problems.map Text.quoted))]
  | zeroAttempts => "ZeroAttempts"
  | zeroConcurrency => "ZeroConcurrency"
  | zeroDuration field => Text.record "ZeroDuration" [("field", Text.quoted field)]
  | duplicateSubscription c =>
    Text.record "DuplicateSubscription"
      [("stream", Text.quoted c.stream), ("consumer", Text.quoted c.consumer)]

end ConfigError

/-- What a broker answers instead of doing what it is asked. -/
inductive BrokerError where
  | timeout (after : Duration)
  | unavailable (reason : String)
  | binding (reason : String)
  | ack (reason : String)
  | metadata (reason : String)
  | closed
  deriving DecidableEq, Inhabited

namespace BrokerError

def label : BrokerError → String
  | timeout _ => "broker_timeout"
  | unavailable _ => "broker_unavailable"
  | binding _ => "broker_binding"
  | ack _ => "broker_ack"
  | metadata _ => "broker_metadata"
  | closed => "broker_closed"

def message : BrokerError → String
  | timeout d => "fetch timed out after " ++ d.text
  | unavailable reason => "broker unavailable: " ++ reason
  | binding reason => "consumer binding failed: " ++ reason
  | ack reason => "acknowledgement failed: " ++ reason
  | metadata reason => "message metadata unavailable: " ++ reason
  | closed => "broker connection closed"

/-- The cause spelled out with its parts. -/
def debug : BrokerError → String
  | timeout d => Text.record "Timeout" [("timeout", d.text)]
  | unavailable reason => Text.record "Unavailable" [("reason", Text.quoted reason)]
  | binding reason => Text.record "Binding" [("reason", Text.quoted reason)]
  | ack reason => Text.record "Ack" [("reason", Text.quoted reason)]
  | metadata reason => Text.record "Metadata" [("reason", Text.quoted reason)]
  | closed => "Closed"

/-- A timeout only says that no message came; every other cause is an error of the broker. -/
def isTimeout : BrokerError → Bool
  | timeout _ => true
  | _ => false

instance : Categorized BrokerError := ⟨label, message⟩

end BrokerError

/-- Why a handler did not accept a message. -/
inductive HandlerError where
  | transient (reason : String)
  | fatal (reason : String)
  deriving DecidableEq, Inhabited

namespace HandlerError

def label : HandlerError → String
  | transient _ => "handler_transient"
  | fatal _ => "handler_fatal"

def reason : HandlerError → String
  | transient r => r
  | fatal r => r

def message : HandlerError → String
  | transient r => "transient failure: " ++ r
  | fatal r => "fatal failure: " ++ r

/-- The name of the cause, without its reason. -/
def kind : HandlerError → String
  | transient _ => "Transient"
  | fatal _ => "Fatal"

/-- The cause spelled out with its parts. -/
def debug (e : HandlerError) : String := Text.record e.kind [("reason", Text.quoted e.reason)]

/-- Only after a transient failure may the same message be tried again. -/
def isTransient : HandlerError → Bool
  | transient _ => true
  | fatal _ => false

instance : Categorized HandlerError := ⟨label, message⟩

end HandlerError

/-- Why a call to a supervisor did not succeed. -/
inductive RuntimeError where
  | alreadyStarted
  | graceExceeded (grace : Duration) (busy : List String)
  | subscriptionFailed (subscription : String) (cause : BrokerError)
  | signal (cause : String)
  deriving DecidableEq, Inhabited

namespace RuntimeError

def label : RuntimeError → String
  | alreadyStarted => "runtime_already_started"
  | graceExceeded .. => "runtime_grace_exceeded"
  | subscriptionFailed .. => "runtime_subscription_failed"
  | signal _ => "runtime_signal"

def message : RuntimeError → String
  | alreadyStarted => "consumer supervisor already started"
  | graceExceeded grace busy =>
    "drain timeout " ++ grace.text ++ " exceeded; busy: " ++ Text.listed (busy.map Text.quoted)
  | subscriptionFailed s cause => "subscription " ++ s ++ " failed: " ++ cause.message
  | signal cause => "signal listener failed: " ++ cause

end RuntimeError

/-- A request that no value can answer: it ends the task that makes it. -/
inductive Crash where
  | tooManyPermits
  | deadlineOverflow
  deriving DecidableEq, Inhabited

namespace Crash

def message : Crash → String
  | tooManyPermits =>
    "a semaphore may not have more than MAX_PERMITS permits (2305843009213693951)"
  | deadlineOverflow => "overflow when adding duration to instant"

end Crash

/-- Why something was not built: its configuration is refused, or building it crashed. -/
inductive Refusal where
  | invalid (cause : ConfigError)
  | crashed (cause : Crash)
  deriving DecidableEq, Inhabited

end PullConsumer
