import Mathlib.Data.List.Induction
import PullConsumer.Supervisor

/-!
# Looking through the subscriptions of a plan

No two subscriptions may be of one consumer. The subscriptions of a plan are looked through with the
set of the consumers seen so far, and each gets a pool of its own. What is found in this way can be
said without any such set: all subscriptions get their pools just if no two of them are rivals
(`Plan.pools_eq_ok_iff`), and otherwise the first one that repeats the consumer of one before it is
refused (`Plan.pools_eq_error`).

Both rest on a law for a list whose first part is without repetition (`Plan.pools_append`): the
pools of that part are made, and the rest is looked through with its consumers seen.
-/

namespace PullConsumer

theorem Slots.create_eq_ok_iff {n : Nat} {s : Slots} :
    Slots.create n = .ok s ↔ s = ⟨n, n, 0⟩ ∧ 0 < n ∧ n ≤ Slots.largest := by
  rw [create]
  by_cases hzero : n = 0
  · simp [hzero]
  · rw [if_neg hzero]
    by_cases hle : n ≤ Slots.largest
    · simp [Nat.not_lt.2 hle, hle, Nat.pos_of_ne_zero hzero, eq_comm]
    · simp [Nat.lt_of_not_le hle, hle]

/-! ### Subscriptions of one consumer -/

namespace Subscription

variable {x y : Subscription} {subs : List Subscription}

/-- Two subscriptions of one consumer: their streams are the same and so are its names. Their
subjects do not count. -/
def Rivals (x y : Subscription) : Prop :=
  x.binding.stream = y.binding.stream ∧ x.binding.consumer = y.binding.consumer

theorem rivals_iff : x.Rivals y ↔ x.binding.toConsumerId = y.binding.toConsumerId := by
  rw [Rivals]
  rcases x.binding.toConsumerId with ⟨s, c⟩
  rcases y.binding.toConsumerId with ⟨s', c'⟩
  exact (ConsumerId.mk.injEq s c s' c').symm ▸ Iff.rfl

/-- No two of the subscriptions are of one consumer. -/
def Apart (subs : List Subscription) : Prop := subs.Pairwise fun x y ↦ ¬ x.Rivals y

theorem apart_iff_nodup : Apart subs ↔ (subs.map fun x ↦ x.binding.toConsumerId).Nodup := by
  rw [Apart, List.Nodup, List.pairwise_map]
  simp only [rivals_iff, ne_eq]

/-- Where two of them are, there is a first one that repeats the consumer of one before it. -/
theorem apart_or_repeats (subs : List Subscription) : Apart subs ∨
    ∃ before x after, subs = before ++ x :: after ∧ Apart before ∧ ∃ y ∈ before, y.Rivals x := by
  induction subs using List.reverseRecOn with
  | nil => exact .inl List.Pairwise.nil
  | append_singleton subs x ih =>
    obtain hapart | ⟨before, y, after, rfl, hapart, hrepeats⟩ := ih
    · by_cases hrepeats : ∃ y ∈ subs, y.Rivals x
      · exact .inr ⟨subs, x, [], rfl, hapart, hrepeats⟩
      · refine .inl (List.pairwise_append.2 ⟨hapart, List.pairwise_singleton .., ?_⟩)
        rintro y hy z hz hrivals
        exact hrepeats ⟨y, hy, List.mem_singleton.1 hz ▸ hrivals⟩
    · exact .inr ⟨before, y, after ++ [x], by simp, hapart, hrepeats⟩

end Subscription

namespace Supervisor.Plan

open Subscription

variable {x : Subscription} {seen : List ConsumerId} {subs before after : List Subscription}
  {slots : List Slots}

/-! ### Their pools -/

/-- The pool of a subscription before anything has happened. -/
def freshPool (x : Subscription) : Slots := ⟨x.maxConcurrency, x.maxConcurrency, 0⟩

/-- Every slot of the subscription can be had. -/
def Poolable (x : Subscription) : Prop := 0 < x.maxConcurrency ∧ x.maxConcurrency ≤ Slots.largest

/-- **A part without repetition is passed**, and its consumers are seen from then on. -/
theorem pools_append (hsizes : ∀ x ∈ before, Poolable x) (hapart : Apart before)
    (hfree : ∀ x ∈ before, x.binding.toConsumerId ∉ seen) :
    pools seen (before ++ after) =
      (pools ((before.map fun x ↦ x.binding.toConsumerId).reverse ++ seen) after).map
        (before.map freshPool ++ ·) := by
  induction before generalizing seen with
  | nil => cases h : pools seen after <;> simp [h, Except.map]
  | cons x rest ih =>
    obtain ⟨hx, hrest⟩ := List.pairwise_cons.1 hapart
    obtain ⟨hsize, hsizes⟩ := List.forall_mem_cons.1 hsizes
    obtain ⟨hnew, hfree⟩ := List.forall_mem_cons.1 hfree
    have hfree : ∀ y ∈ rest, y.binding.toConsumerId ∉ x.binding.toConsumerId :: seen := by
      intro y hy hmem
      rcases List.mem_cons.1 hmem with heq | hmem
      · exact hx y hy (rivals_iff.2 heq.symm)
      · exact hfree y hy hmem
    rw [List.cons_append, pools, if_neg hnew, Slots.create_eq_ok_iff.2 ⟨rfl, hsize⟩]
    simp only [ih hsizes hrest hfree, List.map_cons, List.reverse_cons, List.append_assoc,
      List.singleton_append]
    cases pools ((rest.map fun x ↦ x.binding.toConsumerId).reverse ++
      x.binding.toConsumerId :: seen) after <;> rfl

/-- **All subscriptions get their pools just if no two of them are of one consumer**, and none is of
a consumer that was seen before. -/
theorem pools_eq_ok_iff : pools seen subs = .ok slots ↔ slots = subs.map freshPool ∧
    (∀ x ∈ subs, Poolable x) ∧ Apart subs ∧ ∀ x ∈ subs, x.binding.toConsumerId ∉ seen := by
  constructor
  · intro h
    induction subs generalizing seen slots with
    | nil =>
      obtain rfl := Except.ok.inj h
      exact ⟨rfl, by simp, List.Pairwise.nil, by simp⟩
    | cons x rest ih =>
      rw [pools] at h
      split at h
      · exact absurd h (by simp)
      · next hnew =>
        split at h
        · exact absurd h (by simp)
        · next pool hpool =>
          split at h
          · exact absurd h (by simp)
          · next others hothers =>
            obtain rfl := Except.ok.inj h
            obtain ⟨rfl, hsize⟩ := Slots.create_eq_ok_iff.1 hpool
            obtain ⟨rfl, hsizes, hapart, hfree⟩ := ih hothers
            refine ⟨rfl, List.forall_mem_cons.2 ⟨hsize, hsizes⟩,
              List.pairwise_cons.2 ⟨fun y hy hrivals ↦ ?_, hapart⟩,
              List.forall_mem_cons.2 ⟨hnew, fun y hy hmem ↦ ?_⟩⟩
            · exact hfree y hy (rivals_iff.1 hrivals ▸ List.mem_cons_self)
            · exact hfree y hy (List.mem_cons_of_mem _ hmem)
  · rintro ⟨rfl, hsizes, hapart, hfree⟩
    rw [← List.append_nil subs, pools_append hsizes hapart hfree, pools]
    simp [Except.map]

/-- The first one that repeats the consumer of another one is refused. -/
theorem pools_eq_error (hsizes : ∀ x ∈ before, Poolable x) (hapart : Apart before)
    (hrepeats : ∃ y ∈ before, y.Rivals x) :
    pools [] (before ++ x :: after) =
      .error (.invalid (.duplicateSubscription x.binding.toConsumerId)) := by
  obtain ⟨y, hy, hrivals⟩ := hrepeats
  have hseen :
      x.binding.toConsumerId ∈ (before.map fun x ↦ x.binding.toConsumerId).reverse ++ [] := by
    rw [List.append_nil, List.mem_reverse]
    exact List.mem_map.2 ⟨y, hy, rivals_iff.1 hrivals⟩
  rw [pools_append hsizes hapart fun _ _ ↦ List.not_mem_nil, pools, if_pos hseen]
  rfl

end Supervisor.Plan

end PullConsumer
