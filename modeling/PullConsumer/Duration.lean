/-!
# Lengths of time

A `Duration` counts whole nanoseconds, a tick of the clock is a whole millisecond. Everything that
waits does so until a tick, so a duration that ends between two ticks ends at the later one.

Ticks themselves go on for ever, but an instant can only be written down up to a horizon. A duration
that begins at a tick therefore has an end or has none (`Duration.limit?`). What it means for a wait
that its end cannot be written down is not said here: who adds up instants fails, and the runtime
has a way out of its own for the waits that it carries out (`Clock`).

`Duration.text` writes the largest unit that leaves a whole part, then the fraction with its
trailing zeros dropped, so every duration has exactly one text and none is rounded.
-/

namespace PullConsumer

/-- A length of time in whole nanoseconds. -/
structure Duration where
  nanos : Nat
  deriving DecidableEq, Inhabited

namespace Duration

def zero : Duration := ⟨0⟩

def ofSeconds (s : Nat) : Duration := ⟨s * 1000000000⟩

def ofMillis (ms : Nat) : Duration := ⟨ms * 1000000⟩

/-- Whole seconds and the nanoseconds beyond them. -/
def ofParts (seconds nanos : Nat) : Duration := ⟨seconds * 1000000000 + nanos⟩

/-- The whole seconds of a duration. -/
def seconds (d : Duration) : Nat := d.nanos / 1000000000

/-- What is left of a duration after its whole seconds. -/
def subsecond (d : Duration) : Nat := d.nanos % 1000000000

/-- The whole milliseconds of a duration. -/
def millis (d : Duration) : Nat := d.nanos / 1000000

/-- The longest duration: one nanosecond less than `2 ^ 64` seconds. -/
def longest : Duration := ⟨Nat.pow 2 64 * 1000000000 - 1⟩

def isZero (d : Duration) : Bool := d.nanos = 0

/-- A sum that stops at the longest duration instead of passing it. -/
def addCapped (a b : Duration) : Duration := ⟨min (a.nanos + b.nanos) longest.nanos⟩

def max (a b : Duration) : Duration := ⟨Nat.max a.nanos b.nanos⟩

/-- Division by a count, cut off at the nanosecond. -/
def dividedBy (d : Duration) (n : Nat) : Duration := ⟨d.nanos / n⟩

/-! ### Waiting -/

/-- The time that deadlines can lie in ends here. -/
def horizon : Duration := ofSeconds (Nat.pow 2 63)

/-- Thirty years of 365 days. -/
def thirtyYears : Duration := ofSeconds (30 * 365 * 86400)

/-- The number of clock ticks that it takes for the duration to pass. -/
def ticks (d : Duration) : Nat := (d.nanos + 999999) / 1000000

/-- The tick at which a duration that begins at tick `now` is over, unless its end lies past the
horizon. A timeout without such a tick may still give up, when the clock says so
(`Clock.expires`). -/
def limit? (d : Duration) (now : Nat) : Option Nat :=
  if (ofMillis now).nanos + d.nanos < horizon.nanos then some (now + d.ticks) else none

theorem limit?_eq_some {d : Duration} {now due : Nat} (h : d.limit? now = some due) :
    due = now + d.ticks := by
  rw [limit?] at h
  split at h
  · exact (Option.some.inj h).symm
  · cases h

/-- A duration takes time unless it is none. -/
theorem ticks_pos {d : Duration} (h : d.isZero = false) : 0 < d.ticks := by
  have hnanos : d.nanos ≠ 0 := of_decide_eq_false h
  exact Nat.div_pos (by omega) (by decide)

theorem lt_of_limit? {d : Duration} {now due : Nat} (hd : d.isZero = false)
    (h : d.limit? now = some due) : now < due := by
  rw [limit?_eq_some h]
  exact Nat.lt_add_of_pos_right (ticks_pos hd)

/-! ### Text -/

/-- The digits of `n`, padded with zeros on the left to `width` places. -/
def padded (width n : Nat) : List Char :=
  let digits := Nat.toDigits 10 n
  List.replicate (width - digits.length) '0' ++ digits

/-- A fraction of `places` decimal places without its trailing zeros, point included; nothing at
all for a zero fraction. -/
def fraction (places n : Nat) : List Char :=
  if n = 0 then [] else '.' :: ((padded places n).reverse.dropWhile (· == '0')).reverse

/-- `n` in a unit that holds `10 ^ places` of the counted thing. -/
def decimal (n places : Nat) (unit : String) : String :=
  let scale := Nat.pow 10 places
  toString (n / scale) ++ String.ofList (fraction places (n % scale)) ++ unit

/-- The text of a duration: `0ns`, `1.5µs`, `20ms`, `1.05s`. -/
def text (d : Duration) : String :=
  if d.nanos ≥ 1000000000 then decimal d.nanos 9 "s"
  else if d.nanos ≥ 1000000 then decimal d.nanos 6 "ms"
  else if d.nanos ≥ 1000 then decimal d.nanos 3 "µs"
  else decimal d.nanos 0 "ns"

end Duration

end PullConsumer
