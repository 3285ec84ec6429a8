import Mathlib.Data.List.Induction
import PullConsumer.Retry

/-!
# What a policy was told

A policy is created with a number of attempts and then adjusted, any number of times and in any
order. A delay or a condition takes the place of the one before; denied and allowed categories are
added to those that are there. What the policy has come to can therefore be read off the list of its
adjustments (`adjusted`), and so can which errors are worth another try (`Passes`), without the two
sets that the policy keeps (`Adjusted.isRetryable_iff`).
-/

namespace PullConsumer.Retry

/-- Something that a policy is told after it was created. -/
inductive Adjustment (ε : Type) where
  | delay (d : Duration)
  | condition (accepts : ε → Bool)
  | deny (categories : List String)
  | allow (categories : List String)

namespace Adjustment

variable {ε : Type}

def delay? : Adjustment ε → Option Duration
  | delay d => some d
  | _ => none

def condition? : Adjustment ε → Option (ε → Bool)
  | condition accepts => some accepts
  | _ => none

/-- The delay that was set last, or none at all. -/
def lastDelay (told : List (Adjustment ε)) : Duration :=
  ((told.filterMap delay?).getLast?).getD .zero

/-- The condition that was set last. -/
def lastCondition? (told : List (Adjustment ε)) : Option (ε → Bool) :=
  (told.filterMap condition?).getLast?

/-- Adjustments let an error pass to another attempt: the condition that was set last accepts it,
its category was never denied, and it was allowed, if any category was. -/
structure Passes [Categorized ε] (told : List (Adjustment ε)) (e : ε) : Prop where
  accepted : ∀ accepts, lastCondition? told = some accepts → accepts e = true
  notDenied : ∀ categories, deny categories ∈ told → Categorized.category e ∉ categories
  allowed : (∃ categories, allow categories ∈ told ∧ categories ≠ []) →
    ∃ categories, allow categories ∈ told ∧ Categorized.category e ∈ categories

end Adjustment

namespace Policy

variable {ε : Type}

/-- A policy that is told something. -/
def adjust (p : Policy ε) : Adjustment ε → Policy ε
  | .delay d => p.withDelay d
  | .condition accepts => p.withCondition accepts
  | .deny categories => p.deny categories
  | .allow categories => p.allow categories

/-- A policy that is created with a number of attempts and then adjusted. -/
def setUp (attempts : Nat) (told : List (Adjustment ε)) : Except ConfigError (Policy ε) :=
  match create attempts with
  | .ok p => .ok (told.foldl adjust p)
  | .error e => .error e

/-! ### Sets of categories -/

theorem mem_joinSets {c : String} {set more : List String} :
    c ∈ joinSets set more ↔ c ∈ set ∨ c ∈ more := by
  induction more generalizing set with
  | nil => simp [joinSets]
  | cons first rest ih =>
    rw [joinSets, ih, List.mem_cons]
    split
    · next h =>
      have hmem : first ∈ set := List.contains_iff_mem.1 h
      constructor
      · exact Or.imp_right Or.inr
      · rintro (h | rfl | h)
        · exact Or.inl h
        · exact Or.inl hmem
        · exact Or.inr h
    · rw [List.mem_append, List.mem_singleton, or_assoc]

/-! ### Adjusted policies -/

/-- What a policy has come to that was created with a number of attempts and then told something. -/
structure Adjusted (attempts : Nat) (told : List (Adjustment ε)) (p : Policy ε) : Prop where
  maxAttempts : p.maxAttempts = attempts
  delay : p.delay = Adjustment.lastDelay told
  condition : p.condition = Adjustment.lastCondition? told
  denied : ∀ c, c ∈ p.denied ↔ ∃ categories, .deny categories ∈ told ∧ c ∈ categories
  allowed : ∀ c, c ∈ p.allowed ↔ ∃ categories, .allow categories ∈ told ∧ c ∈ categories

/-- An adjustment is heeded and changes nothing else. -/
theorem Adjusted.adjust {attempts : Nat} {told : List (Adjustment ε)} {p : Policy ε}
    (h : Adjusted attempts told p) (a : Adjustment ε) :
    Adjusted attempts (told ++ [a]) (p.adjust a) := by
  obtain ⟨hmax, hdelay, hcondition, hdenied, hallowed⟩ := h
  cases a with
  | delay d =>
    rw [Policy.adjust, withDelay]
    exact ⟨hmax, by simp [Adjustment.lastDelay, Adjustment.delay?],
      by simpa [Adjustment.lastCondition?, Adjustment.condition?] using hcondition,
      by simpa using hdenied, by simpa using hallowed⟩
  | condition accepts =>
    rw [Policy.adjust, withCondition]
    exact ⟨hmax, by simpa [Adjustment.lastDelay, Adjustment.delay?] using hdelay,
      by simp [Adjustment.lastCondition?, Adjustment.condition?],
      by simpa using hdenied, by simpa using hallowed⟩
  | deny categories =>
    rw [Policy.adjust, Policy.deny]
    exact ⟨hmax, by simpa [Adjustment.lastDelay, Adjustment.delay?] using hdelay,
      by simpa [Adjustment.lastCondition?, Adjustment.condition?] using hcondition,
      by simp [mem_joinSets, hdenied, or_and_right, exists_or],
      by simpa using hallowed⟩
  | allow categories =>
    rw [Policy.adjust, Policy.allow]
    exact ⟨hmax, by simpa [Adjustment.lastDelay, Adjustment.delay?] using hdelay,
      by simpa [Adjustment.lastCondition?, Adjustment.condition?] using hcondition,
      by simpa using hdenied,
      by simp [mem_joinSets, hallowed, or_and_right, exists_or]⟩

/-- **A policy is what it was told.** -/
theorem adjusted {attempts : Nat} {told : List (Adjustment ε)} {p : Policy ε}
    (h : setUp attempts told = .ok p) : 0 < attempts ∧ Adjusted attempts told p := by
  rw [setUp, create] at h
  split at h
  · next p₀ hcreate =>
    split at hcreate
    · exact absurd hcreate (by simp)
    · next hpos =>
      obtain rfl := Except.ok.inj hcreate
      obtain rfl := Except.ok.inj h
      refine ⟨Nat.pos_of_ne_zero hpos, ?_⟩
      induction told using List.reverseRecOn with
      | nil => exact ⟨rfl, rfl, rfl, by simp, by simp⟩
      | append_singleton told a ih =>
        rw [List.foldl_append]
        exact (ih rfl).adjust a
  · exact absurd h (by simp)

/-- The list of allowed categories is empty if and only if none was ever allowed. -/
theorem Adjusted.allowed_eq_nil {attempts : Nat} {told : List (Adjustment ε)} {p : Policy ε}
    (h : Adjusted attempts told p) :
    p.allowed = [] ↔ ¬ ∃ categories, .allow categories ∈ told ∧ categories ≠ [] := by
  rw [List.eq_nil_iff_forall_not_mem]
  constructor
  · rintro hnone ⟨categories, htold, hne⟩
    obtain ⟨c, hc⟩ := List.exists_mem_of_ne_nil categories hne
    exact hnone c ((h.allowed c).2 ⟨categories, htold, hc⟩)
  · intro hnone c hc
    obtain ⟨categories, htold, hc⟩ := (h.allowed c).1 hc
    exact hnone ⟨categories, htold, List.ne_nil_of_mem hc⟩

/-- **The filters of a policy let pass what its adjustments let pass.** -/
theorem Adjusted.isRetryable_iff [Categorized ε] {attempts : Nat} {told : List (Adjustment ε)}
    {p : Policy ε} (h : Adjusted attempts told p) (e : ε) :
    p.isRetryable e = true ↔ Adjustment.Passes told e := by
  have hdenied : (!p.denied.contains (Categorized.category e)) = true ↔
      ∀ categories, .deny categories ∈ told → Categorized.category e ∉ categories := by
    simp [h.denied]
  have hallowed : (p.allowed.isEmpty || p.allowed.contains (Categorized.category e)) = true ↔
      ((∃ categories, .allow categories ∈ told ∧ categories ≠ []) →
        ∃ categories, .allow categories ∈ told ∧ Categorized.category e ∈ categories) := by
    rw [Bool.or_eq_true, List.isEmpty_iff, h.allowed_eq_nil, List.contains_iff_mem, h.allowed]
    exact imp_iff_not_or.symm
  have hcondition := h.condition
  rw [isRetryable, Bool.and_eq_true, Bool.and_eq_true, hdenied, hallowed]
  constructor
  · rintro ⟨⟨hc, hd⟩, ha⟩
    refine ⟨fun accepts hlast ↦ ?_, hd, ha⟩
    rwa [hcondition.trans hlast] at hc
  · intro hpasses
    refine ⟨⟨?_, hpasses.notDenied⟩, hpasses.allowed⟩
    split
    · next accepts hset => exact hpasses.accepted accepts (hcondition.symm.trans hset)
    · rfl

end Policy

end PullConsumer.Retry
