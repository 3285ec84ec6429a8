import PullConsumer.Clock
import PullConsumer.Retry

/-!
# Retried operations in time

A run of an operation under a policy, laid out on a clock: each attempt takes its own time, and the
policy's delay lies between an attempt that failed and the next one. Attempts are never cut short
and never overlap.

A run may be tied to a cancellation. It then makes no attempt after the cancellation was seen, and a
delay ends at once when the cancellation comes. It is looked for only where an attempt has just
failed and another one is due, so the first attempt is always made and a success is always kept.
-/

namespace PullConsumer.Retry

/-- An operation, given by what its `n`-th attempt answers and how many ticks that takes, and the
clock on which it is retried. -/
structure Operation (ε τ : Type) where
  answer : Nat → Except ε τ
  ticks : Nat → Nat
  clock : Clock := .exact

/-- An error that is nothing but its category and its text. -/
structure Fault where
  category : String
  text : String
  deriving DecidableEq, Inhabited

instance : Categorized Fault := ⟨Fault.category, Fault.text⟩

/-- An operation that follows a script: attempt `n` fails with entry `n`, an entry `none` is a
success, and the last entry goes on for ever. A success answers the number of its attempt. -/
def Operation.scripted {ε : Type} (script : List (Option ε)) (ticks : Nat) : Operation ε Nat where
  answer n :=
    match (script[n - 1]? <|> script.getLast?).join with
    | some e => .error e
    | none => .ok n
  ticks _ := ticks

/-- What cancels a run: someone before it starts, a clock of its own at a tick, or one of its
attempts, given by its number. The first of them to come cancels; without any of them the run is
never cancelled. -/
structure Cancellation where
  before : Bool := false
  atTick : Option Nat := none
  byAttempt : Option Nat := none
  deriving DecidableEq, Inhabited

namespace Cancellation

/-- Whether an attempt that ended at a tick finds the run cancelled at its end. The clock of the run
rings before that of the cancellation when both ring in one tick. Attempts are numbered from one, so
a cancellation by attempt zero does not come. -/
def seenAfter (c : Cancellation) (attempt ended : Nat) : Bool :=
  c.before || c.atTick.any (· < ended) || c.byAttempt.any fun n => 1 ≤ n && n ≤ attempt

/-- The tick at which a pause after an attempt is cut off, if it is: a run that is cancelled already
does not begin to wait, and while it waits nobody but the clock can cancel it. -/
def cuts (c : Cancellation) (attempt began ended : Nat) : Option Nat :=
  if c.seenAfter attempt began then some began else c.atTick.filter (· < ended)

end Cancellation

/-- A call of the operation: the number of the attempt, and the ticks at which it began and
ended. -/
structure Call where
  index : Nat
  began : Nat
  ended : Nat
  deriving DecidableEq, Inhabited

/-- What a run left behind: the calls that it made, the attempts that it reports, the answer of the
last one, and the tick it ended at. -/
structure Trial (ε τ : Type) where
  calls : List Call
  attempts : List Attempt
  result : Except ε τ
  ended : Nat

/-- A run that makes one more attempt at its beginning. -/
def Trial.precede {ε τ : Type} (t : Trial ε τ) (call : Call) (attempt : Attempt) : Trial ε τ :=
  { t with calls := call :: t.calls, attempts := attempt :: t.attempts }

namespace Policy

variable {ε τ : Type} [Categorized ε]

/-- What follows a failed attempt when another one is allowed: the tick at which that one starts, or
the tick at which the run ends instead. Where there is no delay, a run that heeds a cancellation
only looks for it; where there is one, it waits for the delay and for the cancellation at once. -/
def pauseAfter (p : Policy ε) (k : Clock) (c : Option Cancellation) (attempt ended : Nat) :
    Except Nat Nat :=
  if p.delay.isZero then
    if c.any (·.seenAfter attempt ended) then .error ended else .ok ended
  else
    match c.bind (·.cuts attempt ended (k.wakes p.delay ended)) with
    | some t => .error t
    | none => .ok (k.wakes p.delay ended)

/-- The run from attempt number `index` on, which starts at tick `began`, with `left` attempts
allowed after it. -/
def runFrom (p : Policy ε) (op : Operation ε τ) (c : Option Cancellation) :
    (left index began : Nat) → Trial ε τ
  | left, index, began =>
    let call : Call := ⟨index, began, began + op.ticks index⟩
    match op.answer index with
    | .ok v => ⟨[call], [⟨index, none⟩], .ok v, call.ended⟩
    | .error e =>
      let failed : Attempt := ⟨index, some (Categorized.text e)⟩
      match left with
      | 0 => ⟨[call], [failed], .error e, call.ended⟩
      | left + 1 =>
        match p.verdict index e with
        | .giveUp => ⟨[call], [failed], .error e, call.ended⟩
        | .again =>
          match p.pauseAfter op.clock c index call.ended with
          | .error t => ⟨[call], [failed], .error e, t⟩
          | .ok next => (p.runFrom op c left (index + 1) next).precede call failed

/-- A run that heeds a cancellation. -/
def runCancellable (p : Policy ε) (op : Operation ε τ) (c : Cancellation) : Trial ε τ :=
  p.runFrom op (some c) (p.maxAttempts - 1) 1 0

/-- A run that nothing cuts short. -/
def run (p : Policy ε) (op : Operation ε τ) : Trial ε τ := p.runFrom op none (p.maxAttempts - 1) 1 0

end Policy

/-- The report of a run under a policy. -/
def Trial.report {ε τ : Type} (t : Trial ε τ) (p : Policy ε) : Report where
  maxAttempts := p.maxAttempts
  succeeded := t.result.isOk
  attempts := t.attempts

end PullConsumer.Retry
