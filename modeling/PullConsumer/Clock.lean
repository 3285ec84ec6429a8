import PullConsumer.Duration

/-!
# The clock of a runtime

Nobody waits by himself: who wants to wait hands a length of time to the runtime, which lets him go
on at some tick. There are two ways to do so. Who *sleeps* wants the time to pass (`Clock.wakes`).
Who sets a *timeout* on something wants that to happen before the time is up (`Clock.expires`).

The runtime is not part of what is described here, so a `Clock` is supplied, with the laws that
everything else rests on: a wait takes as long as it says where that can be said at all, and a sleep
of any length takes some time. Longer sleeps than thirty years are left to the clock.

`Clock.exact` keeps to every length. It is the clock of a runtime that looks for the end of a wait
first and waits for thirty years where there is none (`Duration.limit?`).
-/

namespace PullConsumer

/-- What a runtime makes of the waits that are handed to it. -/
structure Clock where
  /-- The tick at which someone wakes who has begun at tick `now` to sleep for a duration. -/
  wakes : Duration → (now : Nat) → Nat
  /-- The tick at which a timeout that was set at tick `now` gives up, if it ever does. -/
  expires : Duration → (now : Nat) → Option Nat
  /-- A sleep takes time. -/
  lt_wakes : ∀ {d : Duration} {now : Nat}, d.isZero = false → now < wakes d now
  /-- A sleep of up to thirty years lasts as long as it says. -/
  wakes_eq : ∀ {d : Duration} {now due : Nat}, d.nanos ≤ Duration.thirtyYears.nanos →
    d.limit? now = some due → wakes d now = due
  /-- A timeout gives up when its time is over. -/
  expires_eq : ∀ {d : Duration} {now due : Nat}, d.limit? now = some due →
    expires d now = some due

namespace Duration

variable {d : Duration} {now due : Nat}

/-- The tick at which a wait is over that begins at tick `now`: its end, or thirty years later where
that cannot be written down. -/
def ending (d : Duration) (now : Nat) : Nat := (d.limit? now).getD (now + thirtyYears.ticks)

theorem ending_of_limit? (h : d.limit? now = some due) : d.ending now = due := by
  rw [ending, h, Option.getD_some]

theorem lt_ending (h : d.isZero = false) : now < d.ending now := by
  cases hlimit : d.limit? now with
  | some due => exact ending_of_limit? hlimit ▸ lt_of_limit? h hlimit
  | none =>
    rw [ending, hlimit, Option.getD_none]
    exact Nat.lt_add_of_pos_right (by decide)

end Duration

namespace Clock

/-- The clock on which every wait lasts as long as it says, and thirty years where its end cannot be
written down. -/
def exact : Clock where
  wakes d now := d.ending now
  expires d now := some (d.ending now)
  lt_wakes := Duration.lt_ending
  wakes_eq _ := Duration.ending_of_limit?
  expires_eq h := congrArg some (Duration.ending_of_limit? h)

instance : Inhabited Clock := ⟨exact⟩

variable (k : Clock) {d : Duration} {now due : Nat}

/-- The tick at which someone goes on who lets a duration pass from tick `now` on: he does not sleep
at all where there is nothing to sleep for. -/
def resumes (d : Duration) (now : Nat) : Nat := if d.isZero then now else k.wakes d now

theorem resumes_of_isZero (h : d.isZero = true) : k.resumes d now = now := if_pos h

theorem resumes_of_not_isZero (h : d.isZero = false) : k.resumes d now = k.wakes d now :=
  if_neg (by simp [h])

theorem le_resumes : now ≤ k.resumes d now := by
  cases h : d.isZero with
  | true => exact Nat.le_of_eq (resumes_of_isZero k h).symm
  | false => exact (resumes_of_not_isZero k h).symm ▸ Nat.le_of_lt (k.lt_wakes h)

/-- Where a clock wakes a sleeper at the end of a duration, nobody goes on at another tick. -/
theorem resumes_of_limit? (hlimit : d.limit? now = some due) (hwakes : k.wakes d now = due) :
    k.resumes d now = due := by
  cases h : d.isZero with
  | false => rw [resumes_of_not_isZero k h, hwakes]
  | true =>
    have hnanos : d.nanos = 0 := of_decide_eq_true h
    rw [resumes_of_isZero k h, Duration.limit?_eq_some hlimit, Duration.ticks, hnanos]
    rfl

/-- On every clock up to thirty years pass as they should, -/
theorem resumes_eq (hle : d.nanos ≤ Duration.thirtyYears.nanos) (hlimit : d.limit? now = some due) :
    k.resumes d now = due :=
  k.resumes_of_limit? hlimit (k.wakes_eq hle hlimit)

/-- and on the exact clock every duration does whose end can be written down. -/
theorem resumes_exact (hlimit : d.limit? now = some due) : exact.resumes d now = due :=
  exact.resumes_of_limit? hlimit (Duration.ending_of_limit? hlimit)

end Clock

end PullConsumer
