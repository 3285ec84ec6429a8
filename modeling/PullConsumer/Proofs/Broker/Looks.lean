import Mathlib.Tactic.DefEqTransformations
import PullConsumer.Broker.Fetch

/-!
# What a fetch finds

A fetch that can begin has its whole timeout before it, and a look of it comes to one of four things
(`Fetch.Finds`): the consumer is missing, the oldest delivery is taken, or nothing is there and the
time is up or is not. Only the second of them changes the broker.

Planted faults are used up, each by one answer. The ways to bind and to begin a fetch say how many
of them are left.
-/

namespace PullConsumer

namespace Broker

/-! ### Planted faults -/

/-- An attempt to bind is answered with a planted fault, which is used up, or with what the broker
knows of the consumer. -/
theorem bind_cases (b : Broker) (x : Binding) :
    (∃ fault, (b.bind x).1 = .error fault ∧ (b.bind x).2.fetchFaults = b.fetchFaults ∧
      (b.bind x).2.bindFaults.length + 1 = b.bindFaults.length) ∨
    (b.bind x).2 = b ∧
      ((b.bind x).1 = .ok () ∨ ∃ reason, (b.bind x).1 = .error (.binding reason)) := by
  unfold bind
  cases b.bindFaults with
  | cons fault rest => exact Or.inl ⟨fault, rfl, rfl, rfl⟩
  | nil =>
    refine Or.inr ⟨rfl, ?_⟩
    dsimp only
    split
    · split
      · exact Or.inl rfl
      · exact Or.inr ⟨_, rfl⟩
    · exact Or.inr ⟨_, rfl⟩

/-- To begin a fetch uses up a planted fault if there is one, and counts. -/
theorem beginFetch_cases (b : Broker) :
    b.beginFetch.2.bindFaults = b.bindFaults ∧
    ((∃ fault, b.beginFetch.1 = some fault ∧
        b.beginFetch.2.fetchFaults.length + 1 = b.fetchFaults.length) ∨
      b.beginFetch.1 = none ∧ b.beginFetch.2.fetchFaults = b.fetchFaults) := by
  unfold beginFetch
  cases h : b.fetchFaults with
  | cons fault rest => exact ⟨rfl, Or.inl ⟨fault, rfl, rfl⟩⟩
  | nil => exact ⟨rfl, Or.inr ⟨rfl, rfl⟩⟩

/-- What is taken from a queue changes no planted fault. -/
theorem faults_take? {b x : Broker} {c : ConsumerId} {d : Delivery}
    (h : b.take? c = .ok (some (d, x))) :
    x.fetchFaults = b.fetchFaults ∧ x.bindFaults = b.bindFaults := by
  rw [take?] at h
  split at h
  · simp at h
  · split at h
    · simp at h
    · obtain ⟨-, rfl⟩ := Prod.ext_iff.1 (Option.some.inj (Except.ok.inj h))
      exact ⟨rfl, rfl⟩

namespace Fetch

/-! ### The begin -/

-- An equation between functions: at given arguments the arithmetic of the deadline would be carried
-- out in unary when the equation is checked.
theorem start_eq : start = fun now consumer timeout ↦
    match timeout.limit? now with
    | some deadline => .ok ⟨consumer, timeout, deadline⟩
    | none => .error .deadlineOverflow := rfl

/-- A fetch cannot begin if its deadline lies past the horizon. -/
theorem limit?_of_start_eq_error {now : Nat} {consumer : ConsumerId} {timeout : Duration}
    {cause : Crash} (h : start now consumer timeout = .error cause) :
    timeout.limit? now = none := by
  rw [start_eq] at h
  beta_reduce at h
  split at h
  · exact absurd h (by simp)
  · next hnone => exact hnone

/-- A fetch that begins has its deadline before it. -/
theorem lt_deadline_of_start {now : Nat} {consumer : ConsumerId} {timeout : Duration} {f : Fetch}
    (htimeout : timeout.isZero = false) (h : start now consumer timeout = .ok f) :
    now < f.deadline := by
  rw [start_eq] at h
  beta_reduce at h
  split at h
  · next deadline hlimit =>
    obtain rfl := Except.ok.inj h
    exact Duration.lt_of_limit? htimeout hlimit
  · exact absurd h (by simp)

/-! ### A look -/

/-- What a look finds. -/
inductive Finds (f : Fetch) (now : Nat) (b : Broker) : Progress × Broker → Prop
  | missing {cause : BrokerError} (htake : b.take? f.consumer = .error cause)
      (hcause : cause.isTimeout = false) : Finds f now b (.finished (.error cause), b)
  | oldest {d : Delivery} {x : Broker} (htake : b.take? f.consumer = .ok (some (d, x))) :
      Finds f now b (.finished (.ok d), x)
  | late (htake : b.take? f.consumer = .ok none) (hdue : f.deadline ≤ now) :
      Finds f now b (.finished (.error (.timeout f.timeout)), b)
  | nothing (htake : b.take? f.consumer = .ok none) (hdue : now < f.deadline) :
      Finds f now b (.waiting, b)

theorem finds_look (f : Fetch) (now : Nat) (b : Broker) : Finds f now b (f.look now b) := by
  rw [look]
  split
  · next cause htake =>
    refine .missing htake ?_
    rw [take?] at htake
    split at htake
    · obtain rfl := Except.error.inj htake
      rfl
    · split at htake <;> exact absurd htake (by simp)
  · next htake => exact .oldest htake
  · next htake =>
    split
    · next hdue => exact .late htake hdue
    · next hdue => exact .nothing htake (Nat.lt_of_not_le hdue)

theorem look_of_ok {f : Fetch} {now : Nat} {b : Broker} {d : Delivery}
    (h : (f.look now b).1 = .finished (.ok d)) :
    b.take? f.consumer = .ok (some (d, (f.look now b).2)) := by
  have hfinds := f.finds_look now b
  generalize f.look now b = found at hfinds h ⊢
  cases hfinds with
  | oldest htake =>
    obtain rfl := Except.ok.inj (Progress.finished.inj h)
    exact htake
  | _ => simp at h

/-- A look that takes nothing leaves the broker as it is. -/
theorem look_of_not_ok {f : Fetch} {now : Nat} {b : Broker}
    (h : ∀ d, (f.look now b).1 ≠ .finished (.ok d)) : (f.look now b).2 = b := by
  have hfinds := f.finds_look now b
  generalize f.look now b = found at hfinds h ⊢
  cases hfinds with
  | oldest htake => exact absurd rfl (h _)
  | _ => rfl

/-- The first look finds a planted fault or is a look at the broker that has counted the fetch. -/
theorem firstLook_cases (f : Fetch) (now : Nat) (b : Broker) :
    (∃ fault, b.beginFetch.1 = some fault ∧
      f.firstLook now b = (.finished (.error fault), b.beginFetch.2)) ∨
    b.beginFetch.1 = none ∧ f.firstLook now b = f.look now b.beginFetch.2 := by
  rw [firstLook]
  generalize b.beginFetch = begun
  obtain ⟨fault | -, x⟩ := begun
  · exact Or.inr ⟨rfl, rfl⟩
  · exact Or.inl ⟨_, rfl, rfl⟩

end Fetch

end Broker

end PullConsumer
