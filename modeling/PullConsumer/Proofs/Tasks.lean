import PullConsumer.Scheduler

/-!
# What is kept while tasks take turns

A system of tasks is let run in several ways: until nobody is ready, until some tick, until
something is the case. In all of them one turn follows the other, and when nobody is ready the clock
moves on. So what turns keep and what the passing of time keeps is kept however a system is let run.

It is said of a relation between an earlier and a later state (`Tasked.Keeps`), so that it serves
for invariants as well as for the question what can become of a system at all.
-/

namespace PullConsumer

/-! ### The clock while tasks wait and wake -/

namespace Scheduler

variable {τ σ : Type} [DecidableEq τ] [DecidableEq σ]

omit [DecidableEq σ] in
@[simp] theorem now_wake (s : Scheduler τ σ) (t : τ) : (s.wake t).now = s.now := by
  rw [wake]
  split <;> rfl

omit [DecidableEq σ] in
@[simp] theorem now_wakeAll (s : Scheduler τ σ) (ts : List τ) : (s.wakeAll ts).now = s.now := by
  induction ts generalizing s with
  | nil => rfl
  | cons t rest ih => exact (ih _).trans (now_wake s t)

@[simp] theorem now_notify (s : Scheduler τ σ) (x : σ) : (s.notify x).now = s.now := now_wakeAll _ _

@[simp] theorem now_listen (s : Scheduler τ σ) (x : σ) (t : τ) : (s.listen x t).now = s.now := by
  rw [listen]
  split <;> rfl

omit [DecidableEq σ] in
@[simp] theorem now_armOnce (s : Scheduler τ σ) (t : τ) (layer due : Nat) :
    (s.armOnce t layer due).now = s.now := by
  rw [armOnce]
  split <;> rfl

omit [DecidableEq σ] in
theorem now_le_of_elapse? {s x : Scheduler τ σ} {limit : Option Nat}
    (h : s.elapse? limit = some x) : s.now ≤ x.now := by
  rw [elapse?] at h
  split at h
  · next due _ =>
    split at h
    · have hx : s.ringAt (max due s.now) = x := by simpa using h
      rw [← hx, ringAt, now_wakeAll]
      exact Nat.le_max_right _ _
    · exact absurd h (by simp)
  · exact absurd h (by simp)

end Scheduler

namespace Tasked

variable {S τ σ : Type} [Tasked S τ σ]

/-- A relation that turns keep and the passing of time keeps. -/
structure Keeps (R : S → S → Prop) : Prop where
  refl : ∀ s, R s s
  trans : ∀ {s t u}, R s t → R t u → R s u
  turn : ∀ t s, R s (turn t s)
  pass : ∀ s (x : Scheduler τ σ), (scheduler s).now ≤ x.now → R s (reschedule s x)

namespace Keeps

variable {R : S → S → Prop} {s t : S}

theorem step? (h : Keeps R) (hstep : Tasked.step? s = some t) : R s t := by
  rw [Tasked.step?] at hstep
  split at hstep
  · next task rest hnext =>
    cases hstep
    -- To take a task off the queue takes no time.
    have hnow : (scheduler s).now ≤ rest.now := by
      rw [Scheduler.next?] at hnext
      split at hnext
      · exact absurd hnext (by simp)
      · cases hnext
        exact Nat.le_refl _
    exact h.trans (h.pass s rest hnow) (h.turn task _)
  · exact absurd hstep (by simp)

theorem settle (h : Keeps R) (turns : Nat) (s : S) : R s (Tasked.settle turns s) := by
  induction turns generalizing s with
  | zero => exact h.refl s
  | succ turns ih =>
    rw [Tasked.settle]
    split
    · next hstep => exact h.trans (h.step? hstep) (ih _)
    · exact h.refl s

variable [DecidableEq τ]

theorem proceed? (h : Keeps R) {limit : Option Nat} (hstep : Tasked.proceed? limit s = some t) :
    R s t := by
  rw [Tasked.proceed?] at hstep
  split at hstep
  · next hturn =>
    cases hstep
    exact h.step? hturn
  · obtain ⟨x, hx, rfl⟩ := Option.map_eq_some_iff.1 hstep
    exact h.pass s x (Scheduler.now_le_of_elapse? hx)

theorem runTo (h : Keeps R) (tick turns : Nat) (s : S) : R s (Tasked.runTo tick turns s) := by
  induction turns generalizing s with
  | zero => exact h.refl s
  | succ turns ih =>
    rw [Tasked.runTo]
    split
    · next hstep => exact h.trans (h.proceed? hstep) (ih _)
    · exact h.pass s _ (Nat.le_max_right _ _)

theorem runUntil (h : Keeps R) (done : S → Bool) (turns : Nat) (s : S) :
    R s (Tasked.runUntil done turns s) := by
  induction turns generalizing s with
  | zero => exact h.refl s
  | succ turns ih =>
    rw [Tasked.runUntil]
    split
    · exact h.refl s
    · split
      · next hstep => exact h.trans (h.proceed? hstep) (ih _)
      · exact h.refl s

end Keeps

/-! ### Systems that come to rest -/

/-- **A system in which everything that happens lowers a measure comes to rest**, and what holds of
it at rest holds in the end. The measure bounds how long that takes. -/
theorem done_runUntil [DecidableEq τ] {P : S → Prop} {measure : S → Nat} {done : S → Bool}
    (hstep : ∀ s t, P s → proceed? none s = some t → P t ∧ measure t < measure s)
    (hrest : ∀ s, P s → proceed? none s = none → done s = true) {s : S} (hs : P s) {turns : Nat}
    (hle : measure s ≤ turns) : done (runUntil done turns s) = true := by
  induction turns generalizing s with
  | zero =>
    refine hrest s hs (Option.eq_none_iff_forall_ne_some.2 fun t ht ↦ ?_)
    exact absurd (Nat.lt_of_lt_of_le (hstep s t hs ht).2 hle) (Nat.not_lt_zero _)
  | succ turns ih =>
    rw [runUntil]
    split
    · next hdone => exact hdone
    · split
      · next t ht =>
        obtain ⟨hP, hlt⟩ := hstep s t hs ht
        exact ih hP (Nat.le_of_lt_succ (Nat.lt_of_lt_of_le hlt hle))
      · next hnone => exact hrest s hs hnone

end Tasked

end PullConsumer
