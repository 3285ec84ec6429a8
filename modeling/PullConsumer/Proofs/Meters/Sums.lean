import Mathlib.Algebra.GroupWithZero.Nat
import Mathlib.Algebra.Order.BigOperators.Group.List
import Mathlib.Data.List.Induction
import Mathlib.Data.List.Nodup
import Mathlib.Order.Bounds.Basic
import PullConsumer.Proofs.Meters

/-!
# What meters come to

Meters start empty and are told measurements, each under a label (`Meters.after`). A series is made
by the measurements under its own label, taken in their order, and by nothing else
(`Meters.series_after`). What it holds then is a sum over these measurements: how many there were of
a kind, the greatest of their values, the total of the lags up to the longest duration, and, where
the order counts, the last value (`Series.Sums`). All of them are kept by one more measurement.

Sums do not depend on the order of what is summed up, so everything but the last values is the same
however the measurements come in (`Meters.faithful`). The total of the lags is no exception: to stop
at the longest duration again and again comes to the same as to stop there once, at the end.
-/

namespace PullConsumer

/-- The greatest of some values with one more is the greater of the two. -/
theorem isGreatest_concat {values : List Nat} {a : Nat} (h : IsGreatest {n | n = 0 ∨ n ∈ values} a)
    (b : Nat) : IsGreatest {n | n = 0 ∨ n ∈ values ++ [b]} (max a b) := by
  have hset : {n | n = 0 ∨ n ∈ values ++ [b]} = insert b {n | n = 0 ∨ n ∈ values} := by
    ext n
    simp only [List.mem_append, List.mem_singleton, Set.mem_insert_iff, Set.mem_ofPred_eq]
    exact or_rotate.symm.trans (by rw [or_comm, or_assoc])
  rw [hset, max_comm]
  exact h.insert b

/-! ### Lags -/

namespace Lag

variable {ds : List Duration} {lag : Lag}

/-- The aggregate of some lags, in the order in which they came. -/
structure Sums (ds : List Duration) (lag : Lag) : Prop where
  count : lag.count = ds.length
  sum : lag.sum.nanos = min (ds.map Duration.nanos).sum Duration.longest.nanos
  max : IsGreatest {n | n = 0 ∨ n ∈ ds.map Duration.nanos} lag.max.nanos
  last : lag.last = ds.getLast?.getD .zero

theorem sums_nil : Sums [] {} where
  count := rfl
  sum := rfl
  max := ⟨Or.inl rfl, fun _ hn ↦ (hn.resolve_right List.not_mem_nil).le⟩
  last := rfl

theorem Sums.record (h : Sums ds lag) (d : Duration) : Sums (ds ++ [d]) (lag.record d) where
  count := by rw [Lag.record, h.count, List.length_append, List.length_singleton]
  sum := by
    show min (lag.sum.nanos + d.nanos) Duration.longest.nanos = _
    rw [h.sum, List.map_append, List.sum_append, List.map_singleton, List.sum_singleton]
    omega
  max := by
    rw [List.map_append]
    exact isGreatest_concat h.max d.nanos
  last := by
    rw [List.getLast?_concat]
    rfl

end Lag

/-! ### Series -/

namespace Measurement

/-- The number of slots that a measurement reports to be in use. -/
def inUse? : Measurement → Option Nat
  | concurrency n => some n
  | _ => none

/-- The lag that a measurement reports. -/
def lag? : Measurement → Option Duration
  | lag d => some d
  | _ => none

def isError : Measurement → Bool
  | error _ => true
  | _ => false

end Measurement

namespace Series

variable {xs ys : List Measurement} {s t : Series}

/-- A series of some measurements, in the order in which they came. -/
structure Sums (xs : List Measurement) (s : Series) : Prop where
  concurrency : s.concurrency = (xs.filterMap Measurement.inUse?).getLast?.getD 0
  peak : IsGreatest {n | n = 0 ∨ n ∈ xs.filterMap Measurement.inUse?} s.peak
  lag : Lag.Sums (xs.filterMap Measurement.lag?) s.lag
  processed : s.processed = xs.count .processed
  errorsOf : ∀ kind, s.errorsOf kind = xs.count (.error kind)
  errorTotal : s.errorTotal = xs.countP Measurement.isError

theorem sums_nil : Sums [] {} where
  concurrency := rfl
  peak := ⟨Or.inl rfl, fun _ hn ↦ (hn.resolve_right List.not_mem_nil).le⟩
  lag := Lag.sums_nil
  processed := rfl
  errorsOf _ := rfl
  errorTotal := rfl

theorem sum_raise (kind : String) (errors : List (String × Nat)) :
    (raise kind errors).foldr (fun entry n ↦ entry.2 + n) 0 =
      errors.foldr (fun entry n ↦ entry.2 + n) 0 + 1 := by
  induction errors with
  | nil => rfl
  | cons entry rest ih =>
    obtain ⟨k, n⟩ := entry
    rw [raise]
    split
    · simp only [List.foldr_cons]
      omega
    · simp only [List.foldr_cons, ih]
      omega

/-- **One more measurement** keeps all sums. -/
theorem Sums.record (h : Sums xs s) (x : Measurement) : Sums (xs ++ [x]) (s.record x) where
  concurrency := by
    cases x <;> simp [Series.record, Measurement.inUse?, h.concurrency]
  peak := by
    rw [List.filterMap_append]
    cases x with
    | concurrency n => exact isGreatest_concat h.peak n
    | _ => simpa [Series.record, Measurement.inUse?] using h.peak
  lag := by
    rw [List.filterMap_append]
    cases x with
    | lag d => exact h.lag.record d
    | _ => rw [List.filterMap_cons_none rfl, List.filterMap_nil, List.append_nil]; exact h.lag
  processed := by
    cases x <;> simp [Series.record, h.processed]
  errorsOf kind := by
    rw [List.count_append, ← h.errorsOf kind, List.count_singleton]
    cases x with
    | error k =>
      simp only [beq_iff_eq, Measurement.error.injEq]
      exact lookup_raise k kind s.errors
    | _ => rfl
  errorTotal := by
    rw [List.countP_append, ← h.errorTotal]
    cases x with
    | error k => exact sum_raise k s.errors
    | _ => rfl

theorem sums_foldl (xs : List Measurement) : Sums xs (xs.foldl record {}) := by
  induction xs using List.reverseRecOn with
  | nil => exact sums_nil
  | append_singleton xs x ih =>
    rw [List.foldl_concat]
    exact ih.record x

/-- The last number of slots is one of those that the peak is the greatest of. -/
theorem Sums.le_peak (h : Sums xs s) : s.concurrency ≤ s.peak := by
  refine h.peak.2 ?_
  rw [h.concurrency]
  cases hlast : (xs.filterMap Measurement.inUse?).getLast? with
  | none => exact Or.inl rfl
  | some n => exact Or.inr (List.mem_of_getLast? hlast)

/-- Two series that differ at most in their last values. -/
structure SameSums (s t : Series) : Prop where
  processed : s.processed = t.processed
  errorsOf : ∀ kind, s.errorsOf kind = t.errorsOf kind
  errorTotal : s.errorTotal = t.errorTotal
  peak : s.peak = t.peak
  lagCount : s.lag.count = t.lag.count
  lagSum : s.lag.sum = t.lag.sum
  lagMax : s.lag.max = t.lag.max

/-- **Sums do not depend on the order** in which the measurements came. -/
theorem Sums.sameSums (hs : Sums xs s) (ht : Sums ys t) (h : xs.Perm ys) : SameSums s t where
  processed := by rw [hs.processed, ht.processed, h.count_eq]
  errorsOf kind := by rw [hs.errorsOf, ht.errorsOf, h.count_eq]
  errorTotal := by rw [hs.errorTotal, ht.errorTotal, h.countP_eq]
  peak := by
    have hpeak := hs.peak
    simp only [(h.filterMap _).mem_iff] at hpeak
    exact hpeak.unique ht.peak
  lagCount := by rw [hs.lag.count, ht.lag.count, (h.filterMap _).length_eq]
  lagSum := by
    have htotal := ((h.filterMap Measurement.lag?).map Duration.nanos).sum_eq
    exact congrArg Duration.mk (by rw [hs.lag.sum, ht.lag.sum, htotal])
  lagMax := by
    have hmax := hs.lag.max
    simp only [((h.filterMap Measurement.lag?).map Duration.nanos).mem_iff] at hmax
    exact congrArg Duration.mk (hmax.unique ht.lag.max)

end Series

/-! ### Meters -/

namespace Meters

variable {told other : List (Label × Measurement)} {l : Label} {m : Meters}

/-- Meters that were told measurements, each under a label, one after the other. -/
def after (told : List (Label × Measurement)) : Meters :=
  told.foldl (fun m entry ↦ m.record entry.1 entry.2) {}

/-- What was told under a label. -/
def under (l : Label) (told : List (Label × Measurement)) : List Measurement :=
  told.filterMap fun entry ↦ if entry.1 = l then some entry.2 else none

theorem after_concat (told : List (Label × Measurement)) (entry : Label × Measurement) :
    after (told ++ [entry]) = (after told).record entry.1 entry.2 := List.foldl_concat ..

/-- **A series is made by what was told under its label**, and by nothing else. -/
theorem series_after (told : List (Label × Measurement)) (l : Label) :
    (after told).series l = (under l told).foldl Series.record {} := by
  induction told using List.reverseRecOn with
  | nil => rfl
  | append_singleton told entry ih =>
    rw [after_concat, series_record, under, List.filterMap_append, List.foldl_append, ← under, ← ih]
    by_cases h : entry.1 = l
    · simp [h]
    · simp [h, Ne.symm h]

theorem sums_after (told : List (Label × Measurement)) (l : Label) :
    ((after told).series l).Sums (under l told) := by
  rw [series_after]
  exact Series.sums_foldl _

theorem map_fst_change (l : Label) (f : Series → Series) (entries : List (Label × Series)) :
    (change l f entries).map (·.1) =
      if l ∈ entries.map (·.1) then entries.map (·.1) else entries.map (·.1) ++ [l] := by
  induction entries with
  | nil => rfl
  | cons entry rest ih =>
    obtain ⟨k, s⟩ := entry
    rw [change]
    by_cases h : k = l
    · rw [if_pos h, List.map_cons, List.map_cons, if_pos (List.mem_cons.2 (Or.inl h.symm))]
    · rw [if_neg h, List.map_cons, ih, List.map_cons]
      simp only [List.mem_cons, Ne.symm h, false_or]
      split <;> rfl

theorem labels_record (m : Meters) (l : Label) (x : Measurement) :
    (m.record l x).labels = if l ∈ m.labels then m.labels else m.labels ++ [l] :=
  map_fst_change l _ m.entries

theorem nodup_labels_after (told : List (Label × Measurement)) : (after told).labels.Nodup := by
  induction told using List.reverseRecOn with
  | nil => exact List.nodup_nil
  | append_singleton told entry ih =>
    rw [after_concat, labels_record]
    split
    · exact ih
    · next hnew => exact ih.append (List.nodup_singleton _) (List.disjoint_singleton.2 hnew)

theorem mem_labels_after : l ∈ (after told).labels ↔ ∃ x, (l, x) ∈ told := by
  induction told using List.reverseRecOn with
  | nil => simp [after, labels]
  | append_singleton told entry ih =>
    obtain ⟨k, y⟩ := entry
    have hlast : l ∈ (if k ∈ (after told).labels then (after told).labels
        else (after told).labels ++ [k]) ↔ l ∈ (after told).labels ∨ l = k := by
      split
      · next hold => exact (or_iff_left_of_imp fun h ↦ h ▸ hold).symm
      · rw [List.mem_append, List.mem_singleton]
    simp only [after_concat, labels_record, hlast, ih, List.mem_append, List.mem_singleton,
      Prod.mk.injEq, exists_or, exists_and_left, exists_eq, and_true]

/-! ### All of it -/

/-- Meters hold what they were told, no more, no less and nothing else. -/
structure Faithful (told : List (Label × Measurement)) (m : Meters) : Prop where
  /-- A series depends on what was told under its label, and on nothing else. -/
  own : ∀ l other, under l other = under l told → (after other).series l = m.series l
  /-- It is empty if that was nothing. -/
  silent : ∀ l, under l told = [] → m.series l = {}
  /-- Each label is listed once. -/
  nodup : m.labels.Nodup
  /-- The labels are those that something was told under. -/
  labels : ∀ l, l ∈ m.labels ↔ ∃ x, (l, x) ∈ told
  /-- Had the same been told in another order, at most last values would differ. -/
  order : ∀ other, other.Perm told → ∀ l, ((after other).series l).SameSums (m.series l)
  /-- Sums are those of what was told, last values the last of it. -/
  sums : ∀ l, (m.series l).Sums (under l told)
  /-- No more slots are in use than at the peak. -/
  le_peak : ∀ l, (m.series l).concurrency ≤ (m.series l).peak

/-- **Meters are faithful**, whatever they are told. -/
theorem faithful (told : List (Label × Measurement)) : Faithful told (after told) where
  own l other h := by rw [series_after, series_after, h]
  silent l h := by rw [series_after, h, List.foldl_nil]
  nodup := nodup_labels_after told
  labels _ := mem_labels_after
  order other h l := (sums_after other l).sameSums (sums_after told l) (h.filterMap _)
  sums := sums_after told
  le_peak l := (sums_after told l).le_peak

end Meters

end PullConsumer
