import PullConsumer.Duration

/-!
# Meters

One series of measurements per label, where a label is the subject filter and the consumer of a
subscription. A series holds the number of slots in use as last reported and at its highest, an
aggregate of the lags of messages, the number of messages processed, and a counter per kind of
error. Nothing is kept per message, so a series stays small however long it is fed.
-/

namespace PullConsumer

/-- What a series is kept for. -/
structure Label where
  subject : String
  consumer : String
  deriving DecidableEq, Inhabited

/-- The lags recorded so far, aggregated. The sum stops at the longest duration. -/
structure Lag where
  count : Nat := 0
  sum : Duration := .zero
  max : Duration := .zero
  last : Duration := .zero
  deriving DecidableEq, Inhabited

namespace Lag

def record (l : Lag) (d : Duration) : Lag where
  count := l.count + 1
  sum := l.sum.addCapped d
  max := l.max.max d
  last := d

/-- The mean lag, cut off at the nanosecond. The number of samples is a divisor of 32 bits: there
is no mean for none of them, and none for more than fit. -/
def mean (l : Lag) : Option Duration :=
  if l.count = 0 || l.count ≥ Nat.pow 2 32 then none else some (l.sum.dividedBy l.count)

end Lag

/-- The measurements kept for one label. -/
structure Series where
  concurrency : Nat := 0
  peak : Nat := 0
  lag : Lag := {}
  processed : Nat := 0
  errors : List (String × Nat) := []
  deriving DecidableEq, Inhabited

namespace Series

/-- Counters with the one for `kind` raised by one; a kind that is new goes to the end. -/
def raise (kind : String) : List (String × Nat) → List (String × Nat)
  | [] => [(kind, 1)]
  | (k, n) :: rest => if k = kind then (k, n + 1) :: rest else (k, n) :: raise kind rest

/-- The number of errors of one kind. -/
def errorsOf (s : Series) (kind : String) : Nat := (s.errors.lookup kind).getD 0

/-- The number of errors of all kinds. -/
def errorTotal (s : Series) : Nat := s.errors.foldr (fun entry n => entry.2 + n) 0

end Series

/-- Something to be measured. -/
inductive Measurement where
  | concurrency (inUse : Nat)
  | lag (d : Duration)
  | processed
  | error (kind : String)
  deriving DecidableEq, Inhabited

/-- A series with one more measurement in it. -/
def Series.record (s : Series) : Measurement → Series
  | .concurrency n => { s with concurrency := n, peak := max s.peak n }
  | .lag d => { s with lag := s.lag.record d }
  | .processed => { s with processed := s.processed + 1 }
  | .error kind => { s with errors := Series.raise kind s.errors }

/-- All series, by label, in the order in which their labels first came up. -/
structure Meters where
  entries : List (Label × Series) := []
  deriving DecidableEq, Inhabited

namespace Meters

/-- The entries with the series of `l` changed by `f`; a label that is new starts with an empty
series. -/
def change (l : Label) (f : Series → Series) : List (Label × Series) → List (Label × Series)
  | [] => [(l, f {})]
  | (k, s) :: rest => if k = l then (k, f s) :: rest else (k, s) :: change l f rest

/-- Records a measurement under a label. -/
def record (m : Meters) (l : Label) (x : Measurement) : Meters :=
  ⟨change l (·.record x) m.entries⟩

/-- The series of a label; it is empty while nothing was recorded under the label. -/
def series (m : Meters) (l : Label) : Series := (m.entries.lookup l).getD {}

/-- Every label that something was recorded under. -/
def labels (m : Meters) : List Label := m.entries.map (·.1)

end Meters

end PullConsumer
