/-!
# Names of consumers

A durable consumer is known by its stream and its own name; a binding adds the subject filter that
a subscription expects of it. The pair, not its text, identifies a consumer: `a.b` and `c` are not
`a` and `b.c`.
-/

namespace PullConsumer

/-- A durable consumer of a stream. -/
structure ConsumerId where
  stream : String
  consumer : String
  deriving DecidableEq, Inhabited

namespace ConsumerId

/-- The name shown to people: `stream/consumer`. -/
def text (c : ConsumerId) : String := c.stream ++ "/" ++ c.consumer

/-- The name used in delivery handles: `stream.consumer`. -/
def route (c : ConsumerId) : String := c.stream ++ "." ++ c.consumer

end ConsumerId

/-- What a subscription is attached to: a consumer and the subject filter it has to have. -/
structure Binding extends ConsumerId where
  subject : String
  deriving DecidableEq, Inhabited

end PullConsumer
