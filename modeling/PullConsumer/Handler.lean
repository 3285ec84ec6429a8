import PullConsumer.Message.Trace
import PullConsumer.Outcome

/-!
# Handlers

A handler answers a call with a plan: what it does, act after act, until one of them ends it. A plan
that runs out ends well. Nothing about a plan is known to those who carry it out but its acts, so a
handler can take any time, heed or ignore the cancellation, and end in any way.
-/

namespace PullConsumer.Handler

/-- One thing that a handler does. -/
inductive Act where
  /-- Sleeps for a number of ticks. -/
  | sleep (ticks : Nat)
  /-- Waits until the subscription is cancelled. -/
  | awaitCancel
  /-- Ends with a result if the subscription is cancelled by now. -/
  | endIfCancelled (result : HandlerResult)
  /-- Ends with a result. -/
  | finish (result : HandlerResult)
  deriving DecidableEq, Inhabited

/-- What a handler is called with: the consumer, the message and its trace, and how often this text
has come to this subscription, this time included. -/
structure Call where
  consumer : String
  message : Message
  trace : Trace
  count : Nat
  deriving DecidableEq, Inhabited

end PullConsumer.Handler

namespace PullConsumer

/-- A message handler. -/
def Handler : Type := Handler.Call → List Handler.Act

instance : Inhabited Handler := ⟨fun _ => []⟩

end PullConsumer
