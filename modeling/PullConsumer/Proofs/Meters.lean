import PullConsumer.Meters

/-!
# What meters count

A measurement raises one counter of one series by one, or none. Which counter it raises depends on
the measurement alone (`Counter.weight`), not on the label it is recorded under; so sums over all
series can be followed without looking at labels (`Meters.total_record`). The series itself is the one
of the label, and every other stays as it is (`Meters.series_record`).
-/

namespace PullConsumer

namespace Series

theorem lookup_raise (kind kind' : String) (errors : List (String × Nat)) :
    ((raise kind errors).lookup kind').getD 0 =
      (errors.lookup kind').getD 0 + if kind = kind' then 1 else 0 := by
  induction errors with
  | nil =>
    by_cases h : kind = kind'
    · simp [raise, h]
    · have hne : (kind' == kind) = false := by simpa using Ne.symm h
      simp [raise, List.lookup_cons, hne, h]
  | cons entry rest ih =>
    obtain ⟨k, n⟩ := entry
    by_cases hk : k = kind
    · subst hk
      by_cases h : k = kind'
      · simp [raise, h]
      · have hne : (kind' == k) = false := by simpa using Ne.symm h
        simp [raise, List.lookup_cons, hne, h]
    · by_cases h : kind' = k
      · subst h
        have hne : kind ≠ kind' := fun he ↦ hk he.symm
        simp [raise, hk, hne]
      · have hne : (kind' == k) = false := by simpa using h
        simpa [raise, hk, List.lookup_cons, hne] using ih

end Series

/-- Something that a series counts. -/
inductive Counter where
  | processed
  | lags
  | errors (kind : String)

namespace Counter

/-- What a series has counted so far. -/
def of : Counter → Series → Nat
  | processed, s => s.processed
  | lags, s => s.lag.count
  | errors kind, s => s.errorsOf kind

/-- How much a measurement adds to what is counted. -/
def weight : Counter → Measurement → Nat
  | processed, .processed => 1
  | lags, .lag _ => 1
  | errors kind, .error k => if k = kind then 1 else 0
  | _, _ => 0

theorem of_empty (c : Counter) : c.of {} = 0 := by
  cases c <;> rfl

theorem of_record (c : Counter) (s : Series) (m : Measurement) :
    c.of (s.record m) = c.of s + c.weight m := by
  cases c with
  | processed => cases m <;> rfl
  | lags => cases m <;> rfl
  | errors kind =>
    cases m with
    | error k => exact Series.lookup_raise k kind s.errors
    | _ => rfl

end Counter

namespace Meters

/-- A sum over all series. -/
def total (m : Meters) (f : Series → Nat) : Nat := m.entries.foldr (fun entry n ↦ f entry.2 + n) 0

/-- **A measurement adds its weight to the sum over all series**, whatever label it is recorded
under. -/
theorem total_record (m : Meters) (l : Label) (x : Measurement) (c : Counter) :
    (m.record l x).total c.of = m.total c.of + c.weight x := by
  unfold total record
  simp only
  -- Only the entry that `change` stops at gets the measurement.
  induction m.entries with
  | nil => simp [change, c.of_record, c.of_empty]
  | cons entry rest ih =>
    obtain ⟨k, s⟩ := entry
    by_cases h : k = l
    · simp only [change, h, if_true, List.foldr_cons, c.of_record]
      omega
    · simp only [change, h, if_false, List.foldr_cons, ih]
      omega

/-- A measurement is recorded in the series of its label, and in no other. -/
theorem series_record (m : Meters) (l l' : Label) (x : Measurement) :
    (m.record l x).series l' = if l' = l then (m.series l').record x else m.series l' := by
  unfold series record
  simp only
  induction m.entries with
  | nil =>
    by_cases h : l' = l
    · simp [change, h]
    · have hne : (l' == l) = false := by simpa using h
      simp [change, List.lookup_cons, h, hne]
  | cons entry rest ih =>
    obtain ⟨k, s⟩ := entry
    by_cases hk : k = l
    · subst hk
      by_cases h : l' = k
      · simp [change, h]
      · have hne : (l' == k) = false := by simpa using h
        simp [change, List.lookup_cons, h, hne]
    · by_cases h : l' = k
      · subst h
        simp [change, hk]
      · have hne : (l' == k) = false := by simpa using h
        simpa [change, hk, List.lookup_cons, hne] using ih

/-- A measurement adds its weight to the series of its label, and nothing to any other. -/
theorem of_series_record (m : Meters) (l l' : Label) (x : Measurement) (c : Counter) :
    c.of ((m.record l x).series l') = c.of (m.series l') + if l' = l then c.weight x else 0 := by
  rw [series_record]
  split
  · exact c.of_record _ x
  · rfl

end Meters

end PullConsumer
