import PullConsumer.Failure

/-!
# Retry policies

A policy says how often an operation may be tried, how long to wait in between, and after which
failures another try is worth while. Three filters decide the last point, in this order: an optional
condition on the error, a list of denied categories, and a list of allowed ones, which filters
nothing while it is empty.

A report lists the attempts that were made. Its text quotes the error texts, so that nothing in an
error can be taken for a part of the report.
-/

namespace PullConsumer.Retry

/-- When and how often to try again. The two category lists are sets: no entry occurs twice. -/
structure Policy (ε : Type) where
  maxAttempts : Nat := 1
  delay : Duration := .zero
  condition : Option (ε → Bool) := none
  denied : List String := []
  allowed : List String := []

/-- What to do after a failed attempt. -/
inductive Verdict where
  | giveUp
  | again
  deriving DecidableEq, Inhabited

namespace Policy

variable {ε : Type}

/-- A policy with a number of attempts, which has to be positive, and nothing else set. -/
def create (maxAttempts : Nat) : Except ConfigError (Policy ε) :=
  if maxAttempts = 0 then .error .zeroAttempts else .ok { maxAttempts }

def withDelay (p : Policy ε) (d : Duration) : Policy ε := { p with delay := d }

def withCondition (p : Policy ε) (c : ε → Bool) : Policy ε := { p with condition := some c }

/-- The members of `set`, then those of `more` that are not among them, each once. -/
def joinSets (set : List String) : List String → List String
  | [] => set
  | c :: more => joinSets (if set.contains c then set else set ++ [c]) more

/-- Adds categories that are never tried again. -/
def deny (p : Policy ε) (categories : List String) : Policy ε :=
  { p with denied := joinSets p.denied categories }

/-- Adds categories to those that further tries are restricted to. -/
def allow (p : Policy ε) (categories : List String) : Policy ε :=
  { p with allowed := joinSets p.allowed categories }

/-- Whether the three filters let an error pass to another attempt. -/
def isRetryable [Categorized ε] (p : Policy ε) (e : ε) : Bool :=
  (match p.condition with
    | some c => c e
    | none => true) &&
  !p.denied.contains (Categorized.category e) &&
  (p.allowed.isEmpty || p.allowed.contains (Categorized.category e))

/-- The verdict after attempt number `index`, counted from one, failed with `e`. -/
def verdict [Categorized ε] (p : Policy ε) (index : Nat) (e : ε) : Verdict :=
  if index ≥ p.maxAttempts then .giveUp else if p.isRetryable e then .again else .giveUp

/-- The policy spelled out; of a condition only its presence is shown. -/
def debug (p : Policy ε) : String :=
  Text.record "RetryPolicy" [
    ("max_attempts", toString p.maxAttempts),
    ("delay", p.delay.text),
    ("condition", if p.condition.isSome then "true" else "false"),
    ("deny", Text.gathered (p.denied.map Text.quoted)),
    ("allow", Text.gathered (p.allowed.map Text.quoted))]

end Policy

/-- One attempt: its number and the text of the error it ended with, if it did. -/
structure Attempt where
  index : Nat
  error : Option String
  deriving DecidableEq, Inhabited

/-- The attempts `1, 2, …` that ended with these errors, in order. -/
def failures (errors : List String) : List Attempt :=
  (errors.zipIdx 1).map fun (e, i) => ⟨i, some e⟩

/-- What was tried and how it ended. -/
structure Report where
  maxAttempts : Nat
  succeeded : Bool
  attempts : List Attempt
  deriving DecidableEq, Inhabited

namespace Report

def attemptText (a : Attempt) : String :=
  toString a.index ++ ":" ++
    match a.error with
    | some e => Text.quoted e
    | none => "ok"

/-- The report in one line. -/
def text (r : Report) : String :=
  "max_attempts=" ++ toString r.maxAttempts ++ " success=" ++
    (if r.succeeded then "true" else "false") ++ " attempts=" ++
    Text.listed (r.attempts.map attemptText)

end Report

end PullConsumer.Retry
