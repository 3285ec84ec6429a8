import Mathlib.Tactic.Ring
import PullConsumer.Proofs.Meters.Sums

/-!
# The mean lag

From the first lag on there is a mean lag, as long as the number of lags fits into 32 bits: the total
of the lags, up to the longest duration, divided by their number and cut off at the nanosecond, and
never above the greatest of them (`Meters.averages`). From lag number `2 ^ 32` on there is none any
more, although the lags go on being counted and summed up (`Meters.not_averaged_of_many`).

Seconds and nanoseconds can be divided apart, with what is left of the seconds carried over to the
nanoseconds (`Duration.dividedBy_parts`); where the divisor has 32 bits, what is carried has less than
64.
-/

namespace PullConsumer

namespace Duration

/-- **Division by parts**: seconds are divided alone, nanoseconds with what is left of the seconds. -/
theorem dividedBy_parts (d : Duration) {n : Nat} (hn : 0 < n) :
    (d.dividedBy n).seconds = d.seconds / n ∧
    (d.dividedBy n).subsecond =
      d.subsecond / n + (d.seconds % n * 1000000000 + d.subsecond % n) / n := by
  have hseconds : (d.dividedBy n).seconds = d.seconds / n := by
    rw [seconds, seconds, dividedBy, Nat.div_div_eq_div_mul, Nat.div_div_eq_div_mul, Nat.mul_comm]
  have hnanos : d.nanos = n * (d.seconds / n * 1000000000 + d.subsecond / n) +
      (d.seconds % n * 1000000000 + d.subsecond % n) :=
    calc d.nanos = d.seconds * 1000000000 + d.subsecond := (Nat.div_add_mod' ..).symm
      _ = (n * (d.seconds / n) + d.seconds % n) * 1000000000 +
          (n * (d.subsecond / n) + d.subsecond % n) := by rw [Nat.div_add_mod, Nat.div_add_mod]
      _ = _ := by ring
  have hquotient : (d.dividedBy n).nanos = d.seconds / n * 1000000000 + (d.subsecond / n +
      (d.seconds % n * 1000000000 + d.subsecond % n) / n) := by
    rw [dividedBy, hnanos, Nat.mul_add_div hn, Nat.add_assoc]
  have hparts : (d.dividedBy n).seconds * 1000000000 + (d.dividedBy n).subsecond =
      (d.dividedBy n).nanos := Nat.div_add_mod' ..
  rw [hquotient, hseconds] at hparts
  exact ⟨hseconds, Nat.add_left_cancel hparts⟩

/-- What is carried over from the seconds and divided with the nanoseconds stays below `2 ^ 64`. -/
theorem carry_lt (d : Duration) {n : Nat} (hn : 0 < n) (hlt : n < 2 ^ 32) :
    d.seconds % n * 1000000000 + d.subsecond % n < 2 ^ 64 := by
  have hseconds := Nat.mod_lt d.seconds hn
  have hnanos := Nat.mod_lt d.subsecond hn
  omega

theorem seconds_lt {d : Duration} (h : d.nanos ≤ longest.nanos) : d.seconds < 2 ^ 64 := by
  have hlongest : longest.nanos < 2 ^ 64 * 1000000000 := by decide
  rw [seconds, Nat.div_lt_iff_lt_mul (by decide)]
  omega

end Duration

namespace Lag

variable {ds : List Duration} {lag : Lag}

/-- What the mean of some lags is, if there is one. -/
structure Averages (ds : List Duration) (lag : Lag) : Prop where
  /-- There is none before the first lag and none for more lags than fit into 32 bits. -/
  eq_none_iff : lag.mean = none ↔ ds = [] ∨ 2 ^ 32 ≤ ds.length
  /-- It is the total up to the longest duration, divided by the number and cut off. -/
  total : ∀ d, lag.mean = some d →
    d.nanos = min (ds.map Duration.nanos).sum Duration.longest.nanos / ds.length
  /-- It is not above the greatest lag. -/
  le_max : ∀ d, lag.mean = some d → d.nanos ≤ lag.max.nanos
  /-- It is found by a division of seconds and nanoseconds apart, without numbers of more than 64
  bits. -/
  parts : ∀ d, lag.mean = some d →
    d.seconds = lag.sum.seconds / ds.length ∧
    d.subsecond = lag.sum.subsecond / ds.length +
      (lag.sum.seconds % ds.length * 1000000000 + lag.sum.subsecond % ds.length) / ds.length ∧
    lag.sum.seconds < 2 ^ 64 ∧
    lag.sum.seconds % ds.length * 1000000000 + lag.sum.subsecond % ds.length < 2 ^ 64

theorem mean_eq_some_iff {d : Duration} :
    lag.mean = some d ↔
      (0 < lag.count ∧ lag.count < 2 ^ 32) ∧ lag.sum.dividedBy lag.count = d := by
  rw [mean, Option.ite_none_left_eq_some, Bool.or_eq_true, decide_eq_true_iff, decide_eq_true_iff,
    Option.some.injEq]
  exact and_congr_left' (by rw [not_or, Nat.pos_iff_ne_zero]; exact and_congr_right' Nat.not_le)

theorem mean_eq_none_iff : lag.mean = none ↔ lag.count = 0 ∨ 2 ^ 32 ≤ lag.count := by
  rw [← Option.not_isSome_iff_eq_none, Option.isSome_iff_exists]
  simp only [mean_eq_some_iff, exists_and_left, exists_eq', and_true]
  omega

/-- No sum is above as many times its greatest summand. -/
theorem Sums.sum_le (h : Sums ds lag) : (ds.map Duration.nanos).sum ≤ ds.length * lag.max.nanos := by
  have hle : ∀ n ∈ ds.map Duration.nanos, n ≤ lag.max.nanos := fun n hn ↦ h.max.2 (Or.inr hn)
  simpa using List.sum_le_card_nsmul _ _ hle

theorem Averages.of_sums (h : Sums ds lag) : Averages ds lag := by
  have hsome (d : Duration) (hd : lag.mean = some d) :
      (0 < ds.length ∧ ds.length < 2 ^ 32) ∧ lag.sum.dividedBy ds.length = d :=
    h.count ▸ mean_eq_some_iff.1 hd
  refine ⟨?_, fun d hd ↦ ?_, fun d hd ↦ ?_, fun d hd ↦ ?_⟩
  · rw [mean_eq_none_iff, h.count, List.length_eq_zero_iff]
  · obtain ⟨-, rfl⟩ := hsome d hd
    rw [Duration.dividedBy, h.sum]
  · obtain ⟨-, rfl⟩ := hsome d hd
    refine Nat.div_le_of_le_mul ?_
    rw [h.sum]
    exact (Nat.min_le_left _ _).trans h.sum_le
  · obtain ⟨⟨hpos, hlt⟩, rfl⟩ := hsome d hd
    have hparts := lag.sum.dividedBy_parts hpos
    have hsum : lag.sum.nanos ≤ Duration.longest.nanos := h.sum ▸ Nat.min_le_right _ _
    exact ⟨hparts.1, hparts.2, Duration.seconds_lt hsum, lag.sum.carry_lt hpos hlt⟩

end Lag

namespace Meters

/-- **The mean lag of a series** is the one of the lags that were told under its label. -/
theorem averages (told : List (Label × Measurement)) (l : Label) :
    Lag.Averages ((under l told).filterMap Measurement.lag?) ((after told).series l).lag :=
  .of_sums (sums_after told l).lag

theorem lags_replicate (l : Label) (d : Duration) (n : Nat) :
    (under l (List.replicate n (l, .lag d))).filterMap Measurement.lag? = List.replicate n d := by
  simp [under, List.filterMap_replicate, Measurement.lag?]

/-- **Many lags have no mean**: of `2 ^ 32` lags of a second each, the mean is not told. -/
theorem not_averaged_of_many :
    ¬ ∀ (told : List (Label × Measurement)) (l : Label),
      let ds := (under l told).filterMap Measurement.lag?
      ds ≠ [] → ds.length < 2 ^ 64 →
        ∃ d, ((after told).series l).lag.mean = some d ∧
          d.nanos = min (ds.map Duration.nanos).sum Duration.longest.nanos / ds.length ∧
          d.nanos ≤ ((after told).series l).lag.max.nanos := by
  intro h
  let l : Label := ⟨"orders.*", "billing"⟩
  have hlength (n : Nat) : ((under l (List.replicate n (l, .lag (.ofSeconds 1)))).filterMap
      Measurement.lag?).length = n := by rw [lags_replicate, List.length_replicate]
  obtain ⟨d, hd, -⟩ := h (List.replicate (2 ^ 32) (l, .lag (.ofSeconds 1))) l
    (by rw [← List.length_pos_iff, hlength]; decide) (by rw [hlength]; decide)
  rw [(Lag.Averages.of_sums (sums_after _ l).lag).eq_none_iff.2 (Or.inr (hlength _).ge)] at hd
  cases hd

end Meters

end PullConsumer
