import PullConsumer.Text.Fields
import PullConsumer.Text.Quoted

/-!
# Values spelled out

The text of a value in diagnostics: a record with its named fields, a list in square brackets, a
set in braces, an absent value as `None`. Texts inside are quoted.
-/

namespace PullConsumer.Text

/-- A list of texts in square brackets. -/
def listed (items : List String) : String := "[" ++ joined ", " items ++ "]"

/-- A set of texts in braces. -/
def gathered (items : List String) : String := "\x7b" ++ joined ", " items ++ "\x7d"

/-- A record: its name and, for each field, the name and the text of its value. -/
def record (name : String) (parts : List (String × String)) : String :=
  name ++ " \x7b " ++ joined ", " (parts.map fun p => p.1 ++ ": " ++ p.2) ++ " \x7d"

/-- A record that says that it has more fields than it shows. -/
def openRecord (name : String) (parts : List (String × String)) : String :=
  name ++ " \x7b " ++ joined ", " (parts.map fun p => p.1 ++ ": " ++ p.2) ++ ", .. \x7d"

/-- A value that may be absent. -/
def optional (v : Option String) : String :=
  match v with
  | some s => "Some(" ++ s ++ ")"
  | none => "None"

end PullConsumer.Text
