import Mathlib.Data.List.Nodup
import PullConsumer.Proofs.Observer.Courses

/-!
# Observers do not concern each other

What an observer is handed, what is refused for it and what is reported about it depend on what
happens at that observer, and not on who else belongs to the set: on how many there are, where they
stand, how slow they are, how full their queues are and what they panic over.

This is shown in two steps. For strokes it is what `getElem?_strikes` and its neighbours say. At a
set at work the order of turns is a matter of one scheduler for all. But the part of the scheduler
that concerns one observer (`alone`) goes through the same changes as the scheduler of a set with
that observer only, and nothing that happens to others changes it. So an observer fares in a set as
it would fare alone (`Desk.Mirrors.after`).
-/

namespace PullConsumer.Observer

open Tasked (Happening)

variable {i k : Nat} {s : Scheduler Nat Signal}

/-! ### The part of a scheduler that concerns one observer -/

/-- What concerns one observer, as if it were the only one, with the number zero. -/
def alone (i : Nat) (s : Scheduler Nat Signal) : Scheduler Nat Signal where
  now := s.now
  ready := List.replicate (s.ready.count i) 0
  waiting := List.replicate (s.waiting.count (.queued i, i)) (.queued 0, 0)
  alarms := (s.alarms.filter (·.task = i)).map fun a ↦ { a with task := 0 }

/-- Observers listen at their own queues only. -/
def Own (s : Scheduler Nat Signal) : Prop := ∀ x ∈ s.waiting, x.1 = .queued x.2

theorem mem_ready_alone : 0 ∈ (alone i s).ready ↔ i ∈ s.ready := by
  show 0 ∈ List.replicate (s.ready.count i) 0 ↔ i ∈ s.ready
  rw [List.mem_replicate, ← List.count_pos_iff, Nat.pos_iff_ne_zero]
  exact and_iff_left rfl

theorem alone_wake_self (i : Nat) (s : Scheduler Nat Signal) :
    alone i (s.wake i) = (alone i s).wake 0 := by
  rw [Scheduler.wake, Scheduler.wake]
  by_cases hi : i ∈ s.ready
  · rw [if_pos hi, if_pos (mem_ready_alone.2 hi)]
  · rw [if_neg hi, if_neg (mt mem_ready_alone.1 hi)]
    simp [alone, List.count_append, List.count_eq_zero_of_not_mem hi]

theorem alone_wake_of_ne (hk : k ≠ i) (s : Scheduler Nat Signal) :
    alone i (s.wake k) = alone i s := by
  rw [Scheduler.wake]
  split
  · rfl
  · simp [alone, List.count_append, hk]

theorem alone_wakeAll (i : Nat) (ks : List Nat) (s : Scheduler Nat Signal) :
    alone i (s.wakeAll ks) = (alone i s).wakeAll ((ks.filter (· = i)).map fun _ ↦ 0) := by
  induction ks generalizing s with
  | nil => rfl
  | cons k rest ih =>
    have hrest : alone i (s.wakeAll (k :: rest)) = (alone i (s.wake k)).wakeAll
        ((rest.filter (· = i)).map fun _ ↦ 0) := ih (s.wake k)
    rw [hrest]
    by_cases hk : k = i
    · rw [hk, alone_wake_self, List.filter_cons_of_pos (by simp)]
      rfl
    · rw [alone_wake_of_ne hk, List.filter_cons_of_neg (by simpa using hk)]

theorem alone_notify_self (i : Nat) (s : Scheduler Nat Signal) :
    alone i (s.notify (.queued i)) = (alone i s).notify (.queued 0) := by
  have hwoken : (((s.waiting.filter fun w ↦ w.1 = .queued i).map (·.2)).filter (· = i)).map
      (fun _ ↦ 0) = List.replicate (s.waiting.count (.queued i, i)) 0 := by
    refine List.eq_replicate_iff.2 ⟨?_, fun x hx ↦ ?_⟩
    · rw [List.length_map, List.filter_map, List.length_map, List.filter_filter,
        List.count_eq_length_filter]
      refine congrArg List.length (List.filter_congr fun w _ ↦ ?_)
      obtain ⟨⟨j⟩, t⟩ := w
      rw [Bool.eq_iff_iff]
      simp [and_comm]
    · obtain ⟨_, -, rfl⟩ := List.mem_map.1 hx
      rfl
  have hlistened : (s.waiting.filter fun w ↦ w.1 ≠ .queued i).count (.queued i, i) = 0 :=
    List.count_eq_zero_of_not_mem fun hmem ↦ by simpa using List.of_mem_filter hmem
  rw [Scheduler.notify, alone_wakeAll, hwoken, Scheduler.notify]
  have hrest : alone i { s with waiting := s.waiting.filter fun w ↦ w.1 ≠ .queued i } =
      { alone i s with waiting := (alone i s).waiting.filter fun w ↦ w.1 ≠ .queued 0 } := by
    simp only [alone, hlistened]
    simp
  rw [hrest]
  refine congrArg _ ?_
  simp [alone]

theorem alone_notify_of_ne (hk : k ≠ i) (hs : Own s) :
    alone i (s.notify (.queued k)) = alone i s := by
  have hwoken : ((s.waiting.filter fun w ↦ w.1 = .queued k).map (·.2)).filter (· = i) = [] := by
    refine List.filter_eq_nil_iff.2 fun t ht ↦ ?_
    obtain ⟨w, hw, rfl⟩ := List.mem_map.1 ht
    obtain ⟨hmem, hwait⟩ := List.mem_filter.1 hw
    have hown := hs w hmem
    rw [of_decide_eq_true hwait] at hown
    obtain rfl : k = w.2 := by simpa using hown
    simpa using hk
  have hlistened : (s.waiting.filter fun w ↦ w.1 ≠ .queued k).count (.queued i, i) =
      s.waiting.count (.queued i, i) := List.count_filter (by simpa using Ne.symm hk)
  rw [Scheduler.notify, alone_wakeAll, hwoken]
  show alone i { s with waiting := s.waiting.filter fun w ↦ w.1 ≠ .queued k } = alone i s
  simp only [alone, hlistened]

theorem alone_take_self (i : Nat) (s : Scheduler Nat Signal) :
    alone i (s.take i) = (alone i s).take 0 := by
  simp [alone, Scheduler.take, List.count_erase_self, List.erase_replicate_self]

theorem alone_take_of_ne (hk : k ≠ i) (s : Scheduler Nat Signal) :
    alone i (s.take k) = alone i s := by
  simp [alone, Scheduler.take, List.count_erase_of_ne (Ne.symm hk)]

theorem alone_forget_self (i : Nat) (s : Scheduler Nat Signal) :
    alone i (s.forget i) = (alone i s).forget 0 := by
  have hlistened : (s.forget i).waiting.count (.queued i, i) = 0 :=
    List.count_eq_zero_of_not_mem fun hmem ↦ (Scheduler.mem_waiting_forget.1 hmem).2 rfl
  have hset : (s.forget i).alarms.filter (·.task = i) = [] :=
    List.filter_eq_nil_iff.2 fun a ha ↦ by simpa using (Scheduler.mem_alarms_forget.1 ha).2
  rw [alone, hlistened, hset]
  simp only [alone, Scheduler.forget, Scheduler.forgetBut, List.replicate_zero, List.map_nil,
    Scheduler.mk.injEq, true_and]
  refine ⟨(List.filter_eq_nil_iff.2 fun w hw ↦ ?_).symm,
    (List.filter_eq_nil_iff.2 fun a ha ↦ ?_).symm⟩
  · simp [List.eq_of_mem_replicate hw]
  · obtain ⟨_, -, rfl⟩ := List.mem_map.1 ha
    simp

theorem alone_forget_of_ne (hk : k ≠ i) (s : Scheduler Nat Signal) :
    alone i (s.forget k) = alone i s := by
  have hlistened : (s.forget k).waiting.count (.queued i, i) = s.waiting.count (.queued i, i) :=
    List.count_filter (by simpa using Ne.symm hk)
  have hset : (s.forget k).alarms.filter (·.task = i) = s.alarms.filter (·.task = i) := by
    show (s.alarms.filter fun a ↦ a.task ≠ k).filter (·.task = i) = _
    rw [List.filter_filter]
    refine List.filter_congr fun a _ ↦ ?_
    by_cases ha : a.task = i
    · simp [ha, Ne.symm hk]
    · simp [ha]
  rw [alone, hlistened, hset]
  rfl

theorem alone_awaits_self (i : Nat) (s : Scheduler Nat Signal) (c : Channel) :
    alone i (awaits s i c) = awaits (alone i s) 0 c := by
  rw [awaits, awaits]
  cases c.taking with
  | some t =>
    simp only [alone, Scheduler.arm, Scheduler.disarm, Scheduler.mk.injEq, true_and]
    rw [List.filter_append, List.map_append, List.filter_map, List.filter_filter,
      List.filter_filter]
    refine congrArg₂ _ (congrArg _ (List.filter_congr fun a _ ↦ ?_)) (by simp)
    by_cases ha : a.task = i <;> simp [ha]
  | none =>
    dsimp only
    rw [Scheduler.listen, Scheduler.listen]
    by_cases hi : (.queued i, i) ∈ s.waiting
    · have hmem : ((.queued 0, 0) : Signal × Nat) ∈ (alone i s).waiting :=
        List.mem_replicate.2 ⟨Nat.pos_iff_ne_zero.1 (List.count_pos_iff.2 hi), rfl⟩
      rw [if_pos hi, if_pos hmem]
    · have hmem : ((.queued 0, 0) : Signal × Nat) ∉ (alone i s).waiting := fun hmem ↦
        (List.mem_replicate.1 hmem).1 (List.count_eq_zero_of_not_mem hi)
      rw [if_neg hi, if_neg hmem]
      simp [alone, List.count_append, List.count_eq_zero_of_not_mem hi]

theorem alone_awaits_of_ne (hk : k ≠ i) (s : Scheduler Nat Signal) (c : Channel) :
    alone i (awaits s k c) = alone i s := by
  rw [awaits]
  cases c.taking with
  | some t =>
    have hset : (s.arm k 0 t.due).alarms.filter (·.task = i) = s.alarms.filter (·.task = i) := by
      show ((s.alarms.filter fun a ↦ !(a.task = k && a.layer = 0)) ++
        [(⟨t.due, k, 0⟩ : Alarm Nat)]).filter (·.task = i) = _
      rw [List.filter_append, List.filter_cons_of_neg (by simpa using hk), List.filter_nil,
        List.append_nil, List.filter_filter]
      refine List.filter_congr fun a _ ↦ ?_
      by_cases ha : a.task = i
      · simp [ha, Ne.symm hk]
      · simp [ha]
    rw [alone, hset]
    rfl
  | none =>
    dsimp only
    rw [Scheduler.listen]
    split
    · rfl
    · simp [alone, List.count_append, hk]

theorem alone_ringAt (i tick : Nat) (s : Scheduler Nat Signal) :
    alone i (s.ringAt tick) = (alone i s).ringAt tick := by
  have hrung : ((s.alarms.filter (·.due ≤ tick)).map (·.task)).filter (· = i) =
      ((s.alarms.filter (·.task = i)).filter (·.due ≤ tick)).map (·.task) := by
    rw [List.filter_map, List.filter_filter, List.filter_filter]
    exact congrArg _ (List.filter_congr fun a _ ↦ Bool.and_comm ..)
  have hset : (s.alarms.filter fun a ↦ tick < a.due).filter (·.task = i) =
      (s.alarms.filter (·.task = i)).filter fun a ↦ tick < a.due := by
    rw [List.filter_filter, List.filter_filter]
    exact List.filter_congr fun a _ ↦ Bool.and_comm ..
  rw [Scheduler.ringAt, alone_wakeAll, hrung, Scheduler.ringAt]
  have hrest : alone i { s with
        now := tick, alarms := s.alarms.filter fun a ↦ tick < a.due } =
      { alone i s with
        now := tick, alarms := (alone i s).alarms.filter fun a ↦ tick < a.due } := by
    simp only [alone, hset, List.filter_map]
    rfl
  rw [hrest]
  refine congrArg _ ?_
  simp only [alone, List.filter_map, List.map_map]
  rfl

/-! ### Offers -/

/-- Whether one observer accepts an event is a matter of its own channel. -/
theorem filter_accepted (e : Event) (first : Nat) (cs : List Channel) (i : Nat) :
    (offerAll e first cs).accepted.filter (· = first + i) =
      (cs[i]?).elim [] fun c ↦ match c.offer e with
        | .ok _ => [first + i]
        | .error _ => [] := by
  induction cs generalizing first i with
  | nil => rfl
  | cons c rest ih =>
    have hlater : (offerAll e (first + 1) rest).accepted.filter (· = first) = [] := by
      refine List.filter_eq_nil_iff.2 fun k hk ↦ ?_
      obtain ⟨j, -, -, rfl, -⟩ := (mem_accepted_offerAll e (first + 1) rest).1 hk
      simp only [decide_eq_true_eq]
      omega
    rw [offerAll]
    cases i with
    | zero =>
      cases hoffer : c.offer e with
      | ok c' => simp [hoffer, hlater]
      | error why => simp [hoffer, hlater]
    | succ i =>
      have hrest := ih (first + 1) i
      rw [Nat.add_right_comm, Nat.add_assoc] at hrest
      rw [List.getElem?_cons_succ, ← hrest]
      cases c.offer e with
      | ok c' => exact List.filter_cons_of_neg (by simp)
      | error why => rfl

theorem Own.notifyAll (hs : Own s) (ks : List Nat) : Own (notifyAll ks s) := by
  induction ks generalizing s with
  | nil => exact hs
  | cons k rest ih =>
    refine ih (s := s.notify (.queued k)) fun x hx ↦ ?_
    rw [Scheduler.notify, Scheduler.waiting_wakeAll] at hx
    exact hs x (List.mem_of_mem_filter hx)

theorem alone_notifyAll (hs : Own s) (ks : List Nat) :
    alone i (notifyAll ks s) = notifyAll ((ks.filter (· = i)).map fun _ ↦ 0) (alone i s) := by
  induction ks generalizing s with
  | nil => rfl
  | cons k rest ih =>
    have hrest : alone i (notifyAll (k :: rest) s) =
        notifyAll ((rest.filter (· = i)).map fun _ ↦ 0) (alone i (s.notify (.queued k))) :=
      ih (hs.notifyAll [k])
    rw [hrest]
    by_cases hk : k = i
    · rw [hk, alone_notify_self, List.filter_cons_of_pos (by simp)]
      rfl
    · rw [alone_notify_of_ne hk hs, List.filter_cons_of_neg (by simpa using hk)]

namespace Desk

variable {d e : Desk} {os os' : List Observer} {o : Observer}

/-- What the observer of a number has of a happening: everything that callers do and the passing of
time, and its own turns. In a set of its own it has the number zero. -/
def witnessed (i : Nat) : Happening Event Nat → Option (Happening Event Nat)
  | .act e => some (.act e)
  | .turn k => if k = i then some (.turn 0) else none
  | .pass tick => some (.pass tick)

/-- A set with one observer fares as the observer of a number does in another set. -/
structure Mirrors (i : Nat) (d e : Desk) : Prop where
  own : Own d.scheduler
  channels : ∃ c, d.channels[i]? = some c ∧ e.channels = [c]
  scheduler : e.scheduler = alone i d.scheduler

theorem own_happen (hd : Own d.scheduler) (h : Happening Event Nat) :
    Own (d.happen h).scheduler := by
  cases h with
  | act e => exact hd.notifyAll (offerAll e 0 d.channels).accepted
  | pass tick =>
    intro x hx
    have hmem : x ∈ (d.scheduler.ringAt (max tick d.scheduler.now)).waiting := hx
    rw [Scheduler.waiting_ringAt] at hmem
    exact hd x hmem
  | turn k =>
    by_cases hk : k ∈ d.scheduler.ready
    · rw [happen_turn hk]
      have hforget : Own ((d.scheduler.take k).forget k) := fun x hx ↦
        hd x (Scheduler.mem_waiting_forget.1 hx).1
      cases hc : d.channels[k]? with
      | none =>
        rw [turn_of_none (d := { d with scheduler := d.scheduler.take k }) hc]
        exact hforget
      | some c =>
        rw [turn_of_some (d := { d with scheduler := d.scheduler.take k }) hc]
        intro x hx
        have hmem : x ∈ (awaits ((d.scheduler.take k).forget k) k
          (c.work d.scheduler.now).1).waiting := hx
        rw [awaits] at hmem
        split at hmem
        · exact hforget x hmem
        · obtain hmem | ⟨hsignal, hself⟩ := Scheduler.mem_waiting_listen.1 hmem
          · exact hforget x hmem
          · rw [hsignal, hself]
    · have hstay : d.happen (.turn k) = d := if_neg hk
      rwa [hstay]

namespace Mirrors

theorem ofObservers (ho : os[i]? = some o) : Mirrors i (ofObservers os) (ofObservers [o]) where
  own := fun _ hx ↦ absurd hx List.not_mem_nil
  channels := by
    refine ⟨{ observer := o }, ?_, rfl⟩
    show (os.map fun o ↦ ({ observer := o } : Channel))[i]? = _
    rw [List.getElem?_map, ho]
    rfl
  scheduler := by
    have hcount : (List.range os.length).count i = 1 := by
      refine List.count_eq_one_of_mem (List.nodup_range) (List.mem_range.2 ?_)
      exact (List.getElem?_eq_some_iff.1 ho).1
    show ({ ready := List.range 1 } : Scheduler Nat Signal) =
      alone i { ready := List.range os.length }
    rw [alone, hcount]
    rfl

/-- **What an observer has nothing of does not concern it.** -/
theorem aside (h : Mirrors i d e) {x : Happening Event Nat} (hx : witnessed i x = none) :
    Mirrors i (d.happen x) e ∧ (d.strokesIn x).filterMap (Stroke.seenBy i) = [] := by
  obtain ⟨k, rfl, hk⟩ : ∃ k, x = .turn k ∧ k ≠ i := by
    cases x with
    | act e => exact absurd hx (by simp [witnessed])
    | pass tick => exact absurd hx (by simp [witnessed])
    | turn k => exact ⟨k, rfl, by simpa [witnessed] using hx⟩
  obtain ⟨c, hc, he⟩ := h.channels
  by_cases hready : k ∈ d.scheduler.ready
  · have hown := own_happen h.own (.turn k)
    have hsame : alone i ((d.scheduler.take k).forget k) = alone i d.scheduler := by
      rw [alone_forget_of_ne hk, alone_take_of_ne hk]
    rw [happen_turn hready] at hown ⊢
    rw [strokesIn, if_pos hready]
    cases hck : d.channels[k]? with
    | none =>
      rw [turn_of_none (d := { d with scheduler := d.scheduler.take k }) hck] at hown ⊢
      exact ⟨⟨hown, ⟨c, hc, he⟩, h.scheduler.trans hsame.symm⟩, rfl⟩
    | some c' =>
      rw [turn_of_some (d := { d with scheduler := d.scheduler.take k }) hck] at hown ⊢
      refine ⟨⟨hown, ⟨c, (List.getElem?_set_ne hk).trans hc, he⟩, ?_⟩, ?_⟩
      · exact h.scheduler.trans (hsame.symm.trans (alone_awaits_of_ne hk ..).symm)
      · show ((c'.sights d.scheduler.now).map (Stroke.ofSight k)).filterMap (Stroke.seenBy i) = []
        rw [filterMap_seenBy_ofSight (Channel.offered_not_mem_sights _ c'), if_neg hk]
  · have hstay : d.happen (.turn k) = d := if_neg hready
    rw [hstay, strokesIn, if_neg hready]
    exact ⟨h, rfl⟩

/-- **What an observer has of a happening is the same in a set and alone.** -/
theorem both (h : Mirrors i d e) {x y : Happening Event Nat} (hx : witnessed i x = some y) :
    Mirrors i (d.happen x) (e.happen y) ∧
      (d.strokesIn x).filterMap (Stroke.seenBy i) =
        (e.strokesIn y).filterMap (Stroke.seenBy 0) := by
  obtain ⟨c, hc, he⟩ := h.channels
  have hown := own_happen h.own x
  cases x with
  | act event =>
    obtain rfl : .act event = y := Option.some.inj hx
    refine ⟨⟨hown, ⟨c.receive event, ?_, ?_⟩, ?_⟩, rfl⟩
    · show (offerAll event 0 d.channels).channels[i]? = _
      rw [channels_offerAll, List.getElem?_map, hc]
      rfl
    · show (offerAll event 0 e.channels).channels = _
      rw [channels_offerAll, he]
      rfl
    · have haccepted := filter_accepted event 0 d.channels i
      rw [Nat.zero_add, hc] at haccepted
      show notifyAll (offerAll event 0 e.channels).accepted e.scheduler =
        alone i (notifyAll (offerAll event 0 d.channels).accepted d.scheduler)
      rw [alone_notifyAll h.own, haccepted, ← h.scheduler, he, offerAll, offerAll]
      dsimp only [Option.elim]
      cases c.offer event <;> rfl
  | pass tick =>
    obtain rfl : .pass tick = y := Option.some.inj hx
    have hnow : e.scheduler.now = d.scheduler.now := by
      rw [h.scheduler]
      rfl
    refine ⟨⟨hown, ⟨c, hc, he⟩, ?_⟩, rfl⟩
    show e.scheduler.ringAt (max tick e.scheduler.now) =
      alone i (d.scheduler.ringAt (max tick d.scheduler.now))
    rw [alone_ringAt, hnow, h.scheduler]
  | turn k =>
    obtain ⟨rfl, rfl⟩ : k = i ∧ .turn 0 = y := by
      by_cases hk : k = i
      · exact ⟨hk, by simpa [witnessed, hk] using hx⟩
      · exact absurd hx (by simp [witnessed, hk])
    have hce : e.channels[0]? = some c := by
      rw [he]
      rfl
    have hready : 0 ∈ e.scheduler.ready ↔ k ∈ d.scheduler.ready := by
      rw [h.scheduler]
      exact mem_ready_alone
    have hnow : e.scheduler.now = d.scheduler.now := by
      rw [h.scheduler]
      rfl
    by_cases hk : k ∈ d.scheduler.ready
    · rw [happen_turn hk,
        turn_of_some (d := { d with scheduler := d.scheduler.take k }) hc] at hown ⊢
      rw [happen_turn (hready.2 hk),
        turn_of_some (d := { e with scheduler := e.scheduler.take 0 }) hce]
      refine ⟨⟨hown, ⟨(c.work d.scheduler.now).1, ?_, ?_⟩, ?_⟩, ?_⟩
      · exact List.getElem?_set_self (List.getElem?_eq_some_iff.1 hc).1
      · show e.channels.set 0 (c.work e.scheduler.now).1 = _
        rw [he, hnow]
        rfl
      · show awaits ((e.scheduler.take 0).forget 0) 0 (c.work e.scheduler.now).1 =
          alone k (awaits ((d.scheduler.take k).forget k) k (c.work d.scheduler.now).1)
        rw [alone_awaits_self, alone_forget_self, alone_take_self, hnow, h.scheduler]
      · rw [strokesIn, strokesIn, if_pos hk, if_pos (hready.2 hk), hc, hce, hnow]
        show ((c.sights d.scheduler.now).map (Stroke.ofSight k)).filterMap (Stroke.seenBy k) =
          ((c.sights d.scheduler.now).map (Stroke.ofSight 0)).filterMap (Stroke.seenBy 0)
        rw [filterMap_seenBy_ofSight (Channel.offered_not_mem_sights _ c),
          filterMap_seenBy_ofSight (Channel.offered_not_mem_sights _ c), if_pos rfl, if_pos rfl]
    · have hstay : d.happen (.turn k) = d := if_neg hk
      have hstay' : e.happen (.turn 0) = e := if_neg (mt hready.1 hk)
      rw [hstay, hstay', strokesIn, strokesIn, if_neg hk, if_neg (mt hready.1 hk)]
      exact ⟨h, rfl⟩

/-- **An observer fares in a set as it would fare alone.** -/
theorem after (h : Mirrors i d e) (course : List (Happening Event Nat)) :
    Mirrors i (d.after course) (e.after (course.filterMap (witnessed i))) ∧
      (d.strokes course).filterMap (Stroke.seenBy i) =
        (e.strokes (course.filterMap (witnessed i))).filterMap (Stroke.seenBy 0) := by
  induction course generalizing d e with
  | nil => exact ⟨h, rfl⟩
  | cons x rest ih =>
    cases hx : witnessed i x with
    | none =>
      obtain ⟨hmirrors, hseen⟩ := h.aside hx
      rw [List.filterMap_cons_none hx, strokes, List.filterMap_append, hseen]
      exact ih hmirrors
    | some y =>
      obtain ⟨hmirrors, hseen⟩ := h.both hx
      rw [List.filterMap_cons_some hx, strokes, strokes, List.filterMap_append,
        List.filterMap_append, hseen, (ih hmirrors).2]
      exact ⟨(ih hmirrors).1, rfl⟩

end Mirrors

end Desk

/-! ### Two sets -/

/-- An observer fares the same in two sets, in which it may have different numbers. -/
structure SameAccount (i : Nat) (cs : List Channel) (strokes : List Stroke) (j : Nat)
    (cs' : List Channel) (strokes' : List Stroke) : Prop where
  /-- It was handed the same events in the same order, and the same events wait for it. -/
  channel : (strikes cs strokes)[i]? = (strikes cs' strokes')[j]?
  /-- It was offered the same events, and each of them found as many in the queue; so the same
  events were refused. -/
  offers : offersTo i cs strokes = offersTo j cs' strokes'
  ends : endsOf i cs strokes = endsOf j cs' strokes'
  /-- The same is reported about it, in the same order. -/
  reports : reportsOn i cs strokes = reportsOn j cs' strokes'

theorem SameAccount.of_seen {i j : Nat} {cs cs' : List Channel} {strokes strokes' : List Stroke}
    (hc : cs[i]? = cs'[j]?)
    (hseen : strokes.filterMap (Stroke.seenBy i) = strokes'.filterMap (Stroke.seenBy j)) :
    SameAccount i cs strokes j cs' strokes' where
  channel := by rw [getElem?_strikes, getElem?_strikes, hc, hseen]
  offers := by rw [offersTo, offersTo, gathered_eq, gathered_eq, hc, hseen]
  ends := by rw [endsOf, endsOf, gathered_eq, gathered_eq, hc, hseen]
  reports := by rw [reportsOn_eq, reportsOn_eq, hc, hseen]

/-- **Observers do not concern each other.** Whatever two sets have in common besides one observer:
if it sees the same events, turns and results in both, it fares the same in both; and if both sets
are at work, it is enough that callers emit the same events, that it is its turn at the same points
between them, and that the same time passes. Every event that is emitted is offered to it, in the
order of the emissions, and what a set posts are the reports on all its observers. -/
theorem isolated {os os' : List Observer} {i j : Nat} {o : Observer} (ho : os[i]? = some o)
    (ho' : os'[j]? = some o) :
    (∀ strokes strokes' : List Stroke,
      strokes.filterMap (Stroke.seenBy i) = strokes'.filterMap (Stroke.seenBy j) →
      SameAccount i (fresh os) strokes j (fresh os') strokes' ∧
        (offersTo i (fresh os) strokes).map (·.1) = emitted strokes) ∧
    ∀ course course' : List (Happening Event Nat),
      course.filterMap (Desk.witnessed i) = course'.filterMap (Desk.witnessed j) →
      SameAccount i (fresh os) ((Desk.ofObservers os).strokes course) j (fresh os')
          ((Desk.ofObservers os').strokes course') ∧
        (offersTo i (fresh os) ((Desk.ofObservers os).strokes course)).map (·.1) =
          Desk.emissions course ∧
        ((Desk.ofObservers os).after course).posted =
          (bulletin (fresh os) ((Desk.ofObservers os).strokes course)).map (·.2) ∧
        ((Desk.ofObservers os).after course).channels[i]? =
          ((Desk.ofObservers os').after course').channels[j]? := by
  have hfresh : (fresh os)[i]? = (fresh os')[j]? := by
    rw [fresh, fresh, List.getElem?_map, List.getElem?_map, ho, ho']
  have hoffered (strokes : List Stroke) :
      (offersTo i (fresh os) strokes).map (·.1) = emitted strokes := by
    refine map_offersTo (c := { observer := o }) ?_ strokes
    rw [fresh, List.getElem?_map, ho]
    rfl
  refine ⟨fun strokes strokes' hseen ↦ ⟨.of_seen hfresh hseen, hoffered strokes⟩, ?_⟩
  intro course course' hwitnessed
  have hseen := (Desk.Mirrors.ofObservers ho).after course
  have hseen' := (Desk.Mirrors.ofObservers ho').after course'
  rw [← hwitnessed] at hseen'
  have hsame : SameAccount i (fresh os) ((Desk.ofObservers os).strokes course) j (fresh os')
      ((Desk.ofObservers os').strokes course') :=
    .of_seen hfresh (hseen.2.trans hseen'.2.symm)
  obtain ⟨hchannels, hposted, hemitted, -⟩ := (Desk.ofObservers os).channels_after course
  refine ⟨hsame, (hoffered _).trans hemitted, hposted.trans (List.nil_append _), ?_⟩
  rw [hchannels, ((Desk.ofObservers os').channels_after course').1]
  exact hsame.channel

/-- A reluctant observer alone, and as the second one beside a jumpy observer, which has turns of
its own: the reluctant one refuses the same event and is as far with the others. -/
theorem isolated_reluctant : ∃ d d' : Desk,
    d = (Desk.ofObservers [reluctant]).after
      [.act (.of .drained), .turn 0, .act (.of .drained), .act (.of .drained), .pass 1, .turn 0] ∧
    d' = (Desk.ofObservers [jumpy, reluctant]).after
      [.act (.of .drained), .turn 0, .turn 1, .act (.of .drained), .act (.of .drained), .turn 0,
        .pass 1, .turn 1, .turn 0] ∧
    d.channels[0]? = d'.channels[1]? ∧
    d.posted = [.overflow "reluctant" "full", .panicked "reluctant" "no"] ∧
    d'.posted = [.panicked "jumpy" "boo", .overflow "reluctant" "full", .panicked "jumpy" "boo",
      .panicked "jumpy" "boo", .panicked "reluctant" "no"] := by
  obtain ⟨-, hdesks⟩ := @isolated [reluctant] [jumpy, reluctant] 0 1 reluctant rfl rfl
  obtain ⟨-, -, -, hchannel⟩ := hdesks
    [.act (.of .drained), .turn 0, .act (.of .drained), .act (.of .drained), .pass 1, .turn 0]
    [.act (.of .drained), .turn 0, .turn 1, .act (.of .drained), .act (.of .drained), .turn 0,
      .pass 1, .turn 1, .turn 0] rfl
  exact ⟨_, _, rfl, rfl, hchannel, by decide +kernel, by decide +kernel⟩

end PullConsumer.Observer
