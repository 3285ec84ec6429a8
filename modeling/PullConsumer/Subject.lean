import PullConsumer.Text.Fields

/-!
# Subjects and subject filters

A subject is a list of tokens between points. A filter has the same form; there the token `*`
stands for any one token and the token `>`, as the last one, for one or more tokens. In a subject
both are plain text. A filter in which anything follows `>` selects nothing.
-/

namespace PullConsumer.Subject

/-- The tokens of a subject or of a filter. -/
def tokens (s : String) : List (List Char) := Text.fields '.' s.toList

/-- Whether the tokens of a filter select the tokens of a subject. -/
def selects : List (List Char) → List (List Char) → Bool
  | [], [] => true
  | f :: fs, s :: ss =>
    if f = ['>'] then fs.isEmpty
    else if f = ['*'] || f = s then selects fs ss
    else false
  | _, _ => false

/-- Whether `filter` selects `subject`. -/
def isSelected (filter subject : String) : Bool := selects (tokens filter) (tokens subject)

end PullConsumer.Subject
