import PullConsumer.Message

/-!
# Trace context

A message may carry the identifiers of the trace it belongs to. The header `traceparent` holds
version, trace, parent span and flags in hexadecimal, with hyphens between; trace and span come
together or not at all. A malformed header is as good as none. The header `CorrelationId` is taken
as it stands.
-/

namespace PullConsumer

/-- The identifiers found in the headers of a message. -/
structure Trace where
  traceId : Option String
  parentSpanId : Option String
  correlationId : Option String
  deriving DecidableEq, Inhabited

namespace Trace

def isHexDigit (c : Char) : Bool :=
  c.isDigit || ('a' ≤ c && c ≤ 'f') || ('A' ≤ c && c ≤ 'F')

/-- A field of exactly `n` hexadecimal digits. -/
def isHexField (n : Nat) (cs : List Char) : Bool := cs.length = n && cs.all isHexDigit

/-- Reads `version-trace-span-flags`; fields after the fourth are ignored. The identifiers come
back in lower case, and neither may be all zeros. -/
def parseParent? (value : String) : Option (String × String) :=
  match Text.fields '-' (Text.trimmed value.toList) with
  | version :: trace :: span :: flags :: _ =>
    if isHexField 2 version && isHexField 32 trace && isHexField 16 span && isHexField 2 flags &&
        !trace.all (· == '0') && !span.all (· == '0') then
      some (String.ofList (Text.lowered trace), String.ofList (Text.lowered span))
    else none
  | _ => none

/-- The trace context of a message. -/
def ofMessage (m : Message) : Trace :=
  let parent := (m.header? "traceparent").bind parseParent?
  { traceId := parent.map (·.1)
    parentSpanId := parent.map (·.2)
    correlationId := m.header? "CorrelationId" }

end Trace

end PullConsumer
