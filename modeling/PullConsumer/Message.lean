import PullConsumer.Text.Fields
import PullConsumer.Text.Utf8

/-!
# Messages

A message has a subject, headers and a payload. A header name leads to several values, of which
the first one counts. Looking a name up prefers the name as it is written and falls back to a name
that differs in the case of ASCII letters only.
-/

namespace PullConsumer

/-- A published message. -/
structure Message where
  subject : String
  headers : List (String × List String)
  payload : List UInt8
  deriving DecidableEq, Inhabited

namespace Message

/-- The values of the header `name`. -/
def values? (m : Message) (name : String) : Option (List String) :=
  match m.headers.find? (·.1 = name) with
  | some entry => some entry.2
  | none => (m.headers.find? fun entry => Text.sameLetters entry.1 name).map (·.2)

/-- The first value of the header `name`. -/
def header? (m : Message) (name : String) : Option String :=
  (m.values? name).bind (·.head?)

/-- The payload read as text. -/
def text (m : Message) : String := Text.Utf8.decode m.payload

end Message

end PullConsumer
