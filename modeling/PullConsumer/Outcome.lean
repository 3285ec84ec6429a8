import PullConsumer.Failure

/-!
# Outcomes of handling a message

A handler returns, fails or panics. Its result decides two things: how the delivery is settled and
what is reported. Only a transient failure is worth another try; everything else is acknowledged, a
panic included, so that no message can bring its handler down again and again.
-/

namespace PullConsumer

/-- What a handler panicked with. -/
inductive Panic where
  | text (message : String)
  | other
  deriving DecidableEq, Inhabited

/-- The text of a panic; a panic that carries no text has a fixed one. -/
def Panic.message : Panic → String
  | text m => m
  | other => "unknown panic"

/-- How a call of a handler ended. -/
inductive HandlerResult where
  | ok
  | failed (cause : HandlerError)
  | panicked (cause : Panic)
  deriving DecidableEq, Inhabited

/-- What is told to the broker about a delivery. -/
inductive Settlement where
  | ack
  | nack
  deriving DecidableEq, Inhabited

/-- A handler result as far as settling is concerned. -/
inductive Outcome where
  | success
  | transientFailure (detail : String)
  | fatalFailure (detail : String)
  deriving DecidableEq, Inhabited

namespace Outcome

/-- The detail given for a panic, whatever its payload. -/
def panicDetail : String := "handler panicked"

def ofResult : HandlerResult → Outcome
  | .ok => success
  | .failed (.transient reason) => transientFailure reason
  | .failed (.fatal reason) => fatalFailure reason
  | .panicked _ => fatalFailure panicDetail

def settlement : Outcome → Settlement
  | transientFailure _ => .nack
  | _ => .ack

def isFailure : Outcome → Bool
  | success => false
  | _ => true

def detail? : Outcome → Option String
  | success => none
  | transientFailure d => some d
  | fatalFailure d => some d

end Outcome

end PullConsumer
