import PullConsumer.Proofs.Tasks

/-!
# Callers and tasks in any order

The scheduler gives turns in the order in which tasks became ready, and its clock stands still while
anyone is ready. What is to hold of every interleaving must rest on neither. So here any task that
is ready may have its turn, time may pass at any moment, and callers may act between any two of
these (`Tasked.Happening`). What the scheduler makes of a system, however it is let run, is one of
the courses that this allows (`Unfolds.settle`, `Unfolds.runUntil`, `Unfolds.runTo`).

The laws of the scheduler are stated by membership alone, since in what order tasks stand in the
queue, or among those who listen, makes no difference then. A task *expects* a signal if it listens
for it or is ready (`Scheduler.Expects`): in the second case it is yet to look. A signal that is
given leaves everyone ready who expects it (`Scheduler.Expects.ready_notify`), which is all that is
needed to see that nobody misses one.
-/

namespace PullConsumer

namespace Scheduler

variable {τ σ : Type} [DecidableEq τ] {s : Scheduler τ σ} {t u : τ} {x y : σ}

/-! ### The queue -/

@[simp] theorem waiting_wake : (s.wake t).waiting = s.waiting := by
  rw [wake]
  split <;> rfl

@[simp] theorem alarms_wake : (s.wake t).alarms = s.alarms := by
  rw [wake]
  split <;> rfl

theorem mem_ready_wakeAll {ts : List τ} : u ∈ (s.wakeAll ts).ready ↔ u ∈ s.ready ∨ u ∈ ts := by
  induction ts generalizing s with
  | nil => simp [wakeAll]
  | cons t rest ih =>
    have hrest : u ∈ ((s.wake t).wakeAll rest).ready ↔ u ∈ (s.wake t).ready ∨ u ∈ rest := ih
    rw [mem_ready_wake, or_assoc, ← List.mem_cons] at hrest
    exact hrest

@[simp] theorem waiting_wakeAll (ts : List τ) : (s.wakeAll ts).waiting = s.waiting := by
  induction ts generalizing s with
  | nil => rfl
  | cons t rest ih => exact (ih (s := s.wake t)).trans waiting_wake

@[simp] theorem alarms_wakeAll (ts : List τ) : (s.wakeAll ts).alarms = s.alarms := by
  induction ts generalizing s with
  | nil => rfl
  | cons t rest ih => exact (ih (s := s.wake t)).trans alarms_wake

theorem mem_ready_take_of_ne (h : u ≠ t) : u ∈ (s.take t).ready ↔ u ∈ s.ready :=
  List.mem_erase_of_ne h

/-! ### Alarms -/

theorem mem_ready_ringAt {tick : Nat} :
    u ∈ (s.ringAt tick).ready ↔ u ∈ s.ready ∨ ∃ a ∈ s.alarms, a.due ≤ tick ∧ a.task = u := by
  rw [ringAt, mem_ready_wakeAll]
  simp [and_assoc]

@[simp] theorem waiting_ringAt (tick : Nat) : (s.ringAt tick).waiting = s.waiting :=
  waiting_wakeAll _

@[simp] theorem now_ringAt (tick : Nat) : (s.ringAt tick).now = tick := now_wakeAll _ _

theorem mem_alarms_ringAt {tick : Nat} {a : Alarm τ} :
    a ∈ (s.ringAt tick).alarms ↔ a ∈ s.alarms ∧ tick < a.due := by
  rw [ringAt, alarms_wakeAll]
  simp

/-- Where no alarm is due, the clock moves and nothing else happens. -/
theorem ringAt_of_none_due {tick : Nat} (h : ∀ a ∈ s.alarms, tick < a.due) :
    s.ringAt tick = { s with now := tick } := by
  have hkept : s.alarms.filter (fun a ↦ tick < a.due) = s.alarms :=
    List.filter_eq_self.2 fun a ha ↦ decide_eq_true (h a ha)
  have hnone : s.alarms.filter (fun a ↦ a.due ≤ tick) = [] :=
    List.filter_eq_nil_iff.2 fun a ha ↦ by simpa using h a ha
  rw [ringAt, hkept, hnone]
  rfl

/-- The clock does not move on within a limit only if no alarm is due within it. -/
theorem lt_due_of_elapse?_eq_none {tick : Nat} (h : s.elapse? (some tick) = none) :
    ∀ a ∈ s.alarms, tick < a.due := by
  intro a ha
  have hdue : a.due ∈ s.alarms.map (·.due) := List.mem_map_of_mem ha
  rw [elapse?, nextAlarm?] at h
  split at h
  · next due hmin =>
    have hle : due ≤ a.due := (List.min?_eq_some_iff.1 hmin).2 _ hdue
    have hlt : ¬ due ≤ tick := by simpa using h
    omega
  · next hnone =>
    rw [List.min?_eq_none_iff.1 hnone] at hdue
    exact absurd hdue List.not_mem_nil

theorem mem_alarms_forget {a : Alarm τ} :
    a ∈ (s.forget t).alarms ↔ a ∈ s.alarms ∧ a.task ≠ t := by
  simp [forget, forgetBut]

/-- An alarm that is set leaves those of other tasks as they are. -/
theorem mem_alarms_arm_of_ne {layer due : Nat} {a : Alarm τ} (h : a.task ≠ t) :
    a ∈ (s.arm t layer due).alarms ↔ a ∈ s.alarms := by
  have hne : a ≠ ⟨due, t, layer⟩ := fun he ↦ h (he ▸ rfl)
  simp [arm, disarm, h, hne]

theorem mem_alarms_arm_self (layer due : Nat) :
    (⟨due, t, layer⟩ : Alarm τ) ∈ (s.arm t layer due).alarms := by
  simp [arm]

theorem mem_waiting_forget : (y, u) ∈ (s.forget t).waiting ↔ (y, u) ∈ s.waiting ∧ u ≠ t := by
  rw [forget, mem_waiting_forgetBut]
  simp

/-! ### Signals -/

/-- A task that looks again once a signal is given: it listens for it, or it is ready. -/
def Expects (s : Scheduler τ σ) (x : σ) (t : τ) : Prop := t ∈ s.ready ∨ (x, t) ∈ s.waiting

section Signals

variable [DecidableEq σ]

theorem mem_ready_notify : u ∈ (s.notify x).ready ↔ u ∈ s.ready ∨ (x, u) ∈ s.waiting := by
  rw [notify, mem_ready_wakeAll]
  simp

@[simp] theorem ready_listen : (s.listen x t).ready = s.ready := by
  rw [listen]
  split <;> rfl

@[simp] theorem alarms_listen : (s.listen x t).alarms = s.alarms := by
  rw [listen]
  split <;> rfl

theorem mem_waiting_listen :
    (y, u) ∈ (s.listen x t).waiting ↔ (y, u) ∈ s.waiting ∨ (y = x ∧ u = t) := by
  rw [listen]
  split
  · next hmem => exact ⟨Or.inl, fun h ↦ h.elim id fun hnew ↦ hnew.1 ▸ hnew.2 ▸ hmem⟩
  · simp

/-- **Nobody who expects a signal misses it.** -/
theorem Expects.ready_notify (h : s.Expects x u) : u ∈ (s.notify x).ready := mem_ready_notify.2 h

end Signals

end Scheduler

namespace Tasked

variable {S τ σ ε : Type} [Tasked S τ σ] [DecidableEq τ]

/-! ### What may happen in a system -/

/-- What may happen next: a caller acts, a task that is ready has its turn, or time passes until a
tick. -/
inductive Happening (ε τ : Type) where
  | act (e : ε)
  | turn (t : τ)
  | pass (tick : Nat)

/-- A system after one happening. A task that is not ready has no turn, and the clock does not go
back. -/
def happen (act : ε → S → S) (s : S) : Happening ε τ → S
  | .act e => act e s
  | .turn t =>
    if t ∈ (scheduler s).ready then turn t (reschedule s ((scheduler s).take t)) else s
  | .pass tick => reschedule s ((scheduler s).ringAt (max tick (scheduler s).now))

/-- A system after some happenings. -/
def unfold (act : ε → S → S) (s : S) (course : List (Happening ε τ)) : S :=
  course.foldl (happen act) s

variable {act : ε → S → S} {s t u : S}

@[simp] theorem unfold_append (course more : List (Happening ε τ)) :
    unfold act s (course ++ more) = unfold act (unfold act s course) more :=
  List.foldl_append

theorem unfold_concat (course : List (Happening ε τ)) (h : Happening ε τ) :
    unfold act s (course ++ [h]) = happen act (unfold act s course) h :=
  unfold_append course [h]

/-- What every happening keeps is kept whatever happens. -/
theorem unfold_induction {P : S → Prop} (hstep : ∀ s h, P s → P (happen act s h)) (hs : P s)
    (course : List (Happening ε τ)) : P (unfold act s course) := by
  induction course generalizing s with
  | nil => exact hs
  | cons h rest ih => exact ih (hstep s h hs)

/-- A system may come to another state. -/
def Unfolds (act : ε → S → S) (s t : S) : Prop := ∃ course, t = unfold act s course

/-- What a system does next is a turn of someone who is ready, or else the clock moves to an
alarm. -/
theorem proceed?_cases (act : ε → S → S) (h : proceed? none s = some t) :
    (∃ k ∈ (scheduler s).ready, t = happen act s (.turn k)) ∨
      ((scheduler s).ready = [] ∧
        ∃ a ∈ (scheduler s).alarms, t = happen act s (.pass a.due)) := by
  rw [proceed?, Tasked.step?, Scheduler.next?] at h
  rcases hready : (scheduler s).ready with - | ⟨k, rest⟩
  · right
    simp only [hready] at h
    obtain ⟨x, hx, rfl⟩ := Option.map_eq_some_iff.1 h
    rw [Scheduler.elapse?] at hx
    split at hx
    · next due hmin =>
      obtain ⟨a, ha, hdue⟩ := List.mem_map.1 (List.min?_eq_some_iff.1 hmin).1
      refine ⟨rfl, a, ha, ?_⟩
      show reschedule s x = reschedule s ((scheduler s).ringAt (max a.due (scheduler s).now))
      rw [hdue]
      exact congrArg (reschedule s) (Option.some.inj hx).symm
    · exact absurd hx (by simp)
  · left
    simp only [hready, Option.some.injEq] at h
    refine ⟨k, List.mem_cons_self, ?_⟩
    show t = if k ∈ (scheduler s).ready then turn k (reschedule s ((scheduler s).take k)) else s
    rw [Scheduler.take, hready, if_pos List.mem_cons_self, List.erase_cons_head]
    exact h.symm

/-- A system in which nothing happens by itself any more waits for its callers only. -/
theorem idle_of_proceed? (h : proceed? none s = none) :
    (scheduler s).ready = [] ∧ (scheduler s).alarms = [] := by
  rw [proceed?, Tasked.step?, Scheduler.next?] at h
  rcases hready : (scheduler s).ready with - | ⟨k, rest⟩
  · refine ⟨rfl, ?_⟩
    simp only [hready, Option.map_eq_none_iff, Scheduler.elapse?, Scheduler.nextAlarm?] at h
    split at h
    · exact absurd h (by simp)
    · next hnone => exact List.map_eq_nil_iff.1 (List.min?_eq_none_iff.1 hnone)
  · simp [hready] at h

namespace Unfolds

theorem refl (s : S) : Unfolds act s s := ⟨[], rfl⟩

theorem trans (h : Unfolds act s t) (h' : Unfolds act t u) : Unfolds act s u := by
  obtain ⟨course, rfl⟩ := h
  obtain ⟨more, rfl⟩ := h'
  exact ⟨course ++ more, (unfold_append course more).symm⟩

theorem single (h : Happening ε τ) : Unfolds act s (happen act s h) := ⟨[h], rfl⟩

/-! ### Every way to let a system run is a course of it -/

theorem step? (h : Tasked.step? s = some t) : Unfolds act s t := by
  rw [Tasked.step?, Scheduler.next?] at h
  rcases hready : (scheduler s).ready with - | ⟨first, rest⟩
  · simp [hready] at h
  · simp only [hready, Option.some.injEq] at h
    -- The first of the queue is taken out of it where it stands.
    have htake : (scheduler s).take first = { scheduler s with ready := rest } := by
      rw [Scheduler.take, hready, List.erase_cons_head]
    refine ⟨[.turn first], ?_⟩
    show t = happen act s (.turn first)
    rw [happen, if_pos (by rw [hready]; exact List.mem_cons_self), htake]
    exact h.symm

theorem settle (turns : Nat) (s : S) : Unfolds act s (Tasked.settle turns s) := by
  induction turns generalizing s with
  | zero => exact .refl s
  | succ turns ih =>
    rw [Tasked.settle]
    split
    · next hstep => exact (step? hstep).trans (ih _)
    · exact .refl s

theorem elapse? {limit : Option Nat} {x : Scheduler τ σ}
    (h : (scheduler s).elapse? limit = some x) : Unfolds act s (reschedule s x) := by
  rw [Scheduler.elapse?] at h
  split at h
  · next due _ =>
    split at h
    · cases h
      exact .single (.pass due)
    · exact absurd h (by simp)
  · exact absurd h (by simp)

theorem proceed? {limit : Option Nat} (h : Tasked.proceed? limit s = some t) : Unfolds act s t := by
  rw [Tasked.proceed?] at h
  split at h
  · next hturn =>
    cases h
    exact step? hturn
  · obtain ⟨x, hx, rfl⟩ := Option.map_eq_some_iff.1 h
    exact elapse? hx

theorem runUntil (done : S → Bool) (turns : Nat) (s : S) :
    Unfolds act s (Tasked.runUntil done turns s) := by
  induction turns generalizing s with
  | zero => exact .refl s
  | succ turns ih =>
    rw [Tasked.runUntil]
    split
    · exact .refl s
    · split
      · next hstep => exact (proceed? hstep).trans (ih _)
      · exact .refl s

/-- Where callers do nothing, the course that a system takes is one in which nobody acts, whatever
callers might do. -/
theorem exists_quiet (h : Unfolds (ε := Empty) (fun e _ ↦ e.elim) s t) :
    ∃ course : List (Happening ε τ), (∀ e, .act e ∉ course) ∧ t = unfold act s course := by
  obtain ⟨course, rfl⟩ := h
  induction course generalizing s with
  | nil => exact ⟨[], fun _ ↦ List.not_mem_nil, rfl⟩
  | cons x rest ih =>
    obtain ⟨more, hmore, hunfold⟩ := ih (s := happen (fun e _ ↦ e.elim) s x)
    cases x with
    | act e => exact e.elim
    | turn k => exact ⟨.turn k :: more, by simpa using hmore, hunfold⟩
    | pass tick => exact ⟨.pass tick :: more, by simpa using hmore, hunfold⟩

section Clock

variable {tick : Nat} (hset : ∀ (s : S) (x : Scheduler τ σ), scheduler (reschedule s x) = x)
  (hnow : ∀ t (s : S), (scheduler (turn t s)).now = (scheduler s).now)

include hset hnow

omit [DecidableEq τ] in
theorem now_step? (h : Tasked.step? s = some t) : (scheduler t).now = (scheduler s).now := by
  rw [Tasked.step?] at h
  split at h
  · next first rest hnext =>
    cases h
    rw [hnow, hset]
    rw [Scheduler.next?] at hnext
    split at hnext
    · exact absurd hnext (by simp)
    · cases hnext
      rfl
  · exact absurd h (by simp)

theorem now_proceed? (hlimit : (scheduler s).now ≤ tick)
    (h : Tasked.proceed? (some tick) s = some t) : (scheduler t).now ≤ tick := by
  rw [Tasked.proceed?] at h
  split at h
  · next hturn =>
    cases h
    exact Nat.le_trans (Nat.le_of_eq (now_step? hset hnow hturn)) hlimit
  · obtain ⟨x, hx, rfl⟩ := Option.map_eq_some_iff.1 h
    rw [hset]
    rw [Scheduler.elapse?] at hx
    split at hx
    · next due _ =>
      split at hx
      · next hdue =>
        cases hx
        rw [Scheduler.now_ringAt]
        exact Nat.max_le.2 ⟨by simpa using hdue, hlimit⟩
      · exact absurd hx (by simp)
    · exact absurd hx (by simp)

/-- Where turns take no time, to run to a tick that is not past is a course. -/
theorem runTo (turns : Nat) (s : S) (hlimit : (scheduler s).now ≤ tick) :
    Unfolds act s (Tasked.runTo tick turns s) := by
  induction turns generalizing s with
  | zero => exact .refl s
  | succ turns ih =>
    rw [Tasked.runTo]
    split
    · next hstep => exact (proceed? hstep).trans (ih _ (now_proceed? hset hnow hlimit hstep))
    · next hnone =>
      rw [Tasked.proceed?] at hnone
      split at hnone
      · exact absurd hnone (by simp)
      · have hdue := Scheduler.lt_due_of_elapse?_eq_none (Option.map_eq_none_iff.1 hnone)
        rw [Nat.max_eq_left hlimit, ← Scheduler.ringAt_of_none_due hdue]
        refine ⟨[.pass tick], ?_⟩
        show reschedule s ((scheduler s).ringAt tick) =
          reschedule s ((scheduler s).ringAt (max tick (scheduler s).now))
        rw [Nat.max_eq_left hlimit]

end Clock

end Unfolds

end Tasked

end PullConsumer
