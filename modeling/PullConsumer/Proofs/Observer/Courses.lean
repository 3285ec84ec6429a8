import PullConsumer.Observer.Desk
import PullConsumer.Proofs.Interleavings
import PullConsumer.Proofs.Observer.Accounts

/-!
# A set of observers at work

Callers emit events, observers that are ready have their turns in any order, and time passes. All
that this does to the queues is a sequence of strokes (`Desk.channels_after`), so whatever holds
after any strokes holds at any moment of a set at work.

What has to be added is that the observers go on. An observer that is not ready listens at its empty
queue, or an alarm is set for the event that it is busy with (`Attended`). Nothing that happens
changes that, so a set in which nobody is ready and no alarm is set has taken everything. It comes
there: each turn leaves less to take or one fewer who is ready, and each move of the clock turns
alarms into turns (`Desk.workload_proceed?`). So a shutdown ends with every queue empty.
-/

namespace PullConsumer.Observer

open Tasked (Happening)

/-! ### The turn of an observer -/

namespace Channel

/-- **What a turn comes to.** It was too early; or everything is taken; or the observer is busy with
an event that waited before. -/
theorem work_cases (now : Nat) (c : Channel) :
    (∃ t, c.taking = some t ∧ now < t.due ∧ c.work now = (c, [])) ∨
      ((c.work now).1.taking = none ∧ (c.work now).1.queue = []) ∨
      ∃ t, (c.work now).1.taking = some t ∧ (c.work now).1.queue.length < c.queue.length := by
  have htake (es : List Event) (c : Channel) (hidle : c.taking = none) :
      ((c.takeAll now es).1.taking = none ∧ (c.takeAll now es).1.queue = []) ∨
        ∃ t, (c.takeAll now es).1.taking = some t ∧
          (c.takeAll now es).1.queue.length < es.length := by
    induction es generalizing c with
    | nil => exact Or.inl ⟨hidle, rfl⟩
    | cons e rest ih =>
      rw [takeAll]
      split
      · obtain hdone | ⟨t, ht, hlt⟩ := ih { c with taken := (now, e) :: c.taken } hidle
        · exact Or.inl hdone
        · exact Or.inr ⟨t, ht, Nat.lt_succ_of_lt hlt⟩
      · exact Or.inr ⟨_, rfl, Nat.lt_succ_self _⟩
  rw [work]
  cases htaking : c.taking with
  | none => exact Or.inr (htake c.queue c htaking)
  | some t =>
    by_cases hearly : now < t.due
    · exact Or.inl ⟨t, rfl, hearly, if_pos hearly⟩
    · dsimp only
      rw [if_neg hearly]
      exact Or.inr (htake c.queue
        { c with taking := none, taken := (now, t.event) :: c.taken } rfl)

end Channel

/-- **An observer is attended to**: while it is busy an alarm is set for it, or it may go on now;
otherwise it is ready or listens at its empty queue. -/
structure Attended (s : Scheduler Nat Signal) (k : Nat) (c : Channel) : Prop where
  busy : ∀ t, c.taking = some t →
    (⟨t.due, k, 0⟩ : Alarm Nat) ∈ s.alarms ∨ t.due ≤ s.now ∧ k ∈ s.ready
  idle : c.taking = none → k ∈ s.ready ∨ c.queue = [] ∧ (.queued k, k) ∈ s.waiting

/-- Everyone who listens at one of several queues is told. -/
def notifyAll (ks : List Nat) (s : Scheduler Nat Signal) : Scheduler Nat Signal :=
  ks.foldl (fun s k ↦ s.notify (.queued k)) s

/-- How an observer waits after a turn. -/
def awaits (s : Scheduler Nat Signal) (k : Nat) (c : Channel) : Scheduler Nat Signal :=
  match c.taking with
  | some t => s.arm k 0 t.due
  | none => s.listen (.queued k) k

namespace Attended

variable {s s' : Scheduler Nat Signal} {j k : Nat} {c : Channel}

/-- Who stays ready, or waits as before, is attended to as before. -/
theorem mono (h : Attended s k c) (hnow : s.now ≤ s'.now) (hready : k ∈ s.ready → k ∈ s'.ready)
    (halarms : ∀ due, (⟨due, k, 0⟩ : Alarm Nat) ∈ s.alarms →
      (⟨due, k, 0⟩ : Alarm Nat) ∈ s'.alarms ∨ due ≤ s'.now ∧ k ∈ s'.ready)
    (hwaiting : (.queued k, k) ∈ s.waiting → k ∈ s'.ready ∨ (.queued k, k) ∈ s'.waiting) :
    Attended s' k c where
  busy t ht := by
    obtain hset | ⟨hdue, hk⟩ := h.busy t ht
    · exact halarms t.due hset
    · exact Or.inr ⟨Nat.le_trans hdue hnow, hready hk⟩
  idle hnone := by
    obtain hk | ⟨hqueue, hlistens⟩ := h.idle hnone
    · exact Or.inl (hready hk)
    · exact (hwaiting hlistens).imp id fun hlistens ↦ ⟨hqueue, hlistens⟩

theorem take_of_ne (h : Attended s k c) (hne : k ≠ j) : Attended (s.take j) k c :=
  h.mono (Nat.le_refl _) (Scheduler.mem_ready_take_of_ne hne).2 (fun _ ↦ Or.inl) Or.inr

theorem forget_of_ne (h : Attended s k c) (hne : k ≠ j) : Attended (s.forget j) k c :=
  h.mono (Nat.le_refl _) id (fun _ hset ↦ Or.inl (Scheduler.mem_alarms_forget.2 ⟨hset, hne⟩))
    fun hlistens ↦ Or.inr (Scheduler.mem_waiting_forget.2 ⟨hlistens, hne⟩)

theorem awaits_of_ne (h : Attended s k c) (hne : k ≠ j) (c' : Channel) :
    Attended (awaits s j c') k c := by
  rw [awaits]
  split
  · next t _ =>
    exact h.mono (Nat.le_refl _) id
      (fun _ hset ↦ Or.inl ((Scheduler.mem_alarms_arm_of_ne hne).2 hset)) Or.inr
  · refine h.mono (Nat.le_of_eq (Scheduler.now_listen ..).symm) ?_ ?_ ?_
    · rw [Scheduler.ready_listen]
      exact id
    · rw [Scheduler.alarms_listen]
      exact fun _ ↦ Or.inl
    · exact fun hlistens ↦ Or.inr (Scheduler.mem_waiting_listen.2 (Or.inl hlistens))

/-- An observer that had its turn is attended to. -/
theorem work (s : Scheduler Nat Signal) (k now : Nat) (c : Channel) :
    Attended (awaits s k (c.work now).1) k (c.work now).1 := by
  rw [awaits]
  constructor
  · intro t ht
    rw [ht]
    exact Or.inl (Scheduler.mem_alarms_arm_self ..)
  · intro hnone
    rw [hnone]
    refine Or.inr ⟨?_, Scheduler.mem_waiting_listen.2 (Or.inr ⟨rfl, rfl⟩)⟩
    obtain ⟨t, ht, -, hsame⟩ | ⟨-, hqueue⟩ | ⟨t, ht, -⟩ := c.work_cases now
    · rw [hsame, ht] at hnone
      exact absurd hnone (by simp)
    · exact hqueue
    · rw [ht] at hnone
      exact absurd hnone (by simp)

theorem ringAt (h : Attended s k c) {tick : Nat} (htick : s.now ≤ tick) :
    Attended (s.ringAt tick) k c := by
  have hready (hk : k ∈ s.ready ∨ ∃ a ∈ s.alarms, a.due ≤ tick ∧ a.task = k) :
      k ∈ (s.ringAt tick).ready := Scheduler.mem_ready_ringAt.2 hk
  refine h.mono (by rwa [Scheduler.now_ringAt]) (fun hk ↦ hready (Or.inl hk)) ?_ ?_
  · intro due hset
    rcases Nat.lt_or_ge tick due with hlt | hle
    · exact Or.inl (Scheduler.mem_alarms_ringAt.2 ⟨hset, hlt⟩)
    · exact Or.inr ⟨by rwa [Scheduler.now_ringAt], hready (Or.inr ⟨_, hset, hle, rfl⟩)⟩
  · rw [Scheduler.waiting_ringAt]
    exact Or.inr

/-! ### Events that are offered -/

theorem notify (h : Attended s k c) (j : Nat) : Attended (s.notify (.queued j)) k c := by
  have hready {t : Nat} : t ∈ (s.notify (.queued j)).ready ↔
      t ∈ s.ready ∨ (.queued j, t) ∈ s.waiting := Scheduler.mem_ready_notify
  refine h.mono (Nat.le_of_eq (Scheduler.now_notify ..).symm) (fun hk ↦ hready.2 (Or.inl hk)) ?_ ?_
  · intro due hset
    rw [Scheduler.notify, Scheduler.alarms_wakeAll]
    exact Or.inl hset
  · intro hlistens
    by_cases hj : j = k
    · exact Or.inl (hready.2 (Or.inr (hj ▸ hlistens)))
    · refine Or.inr ?_
      rw [Scheduler.notify, Scheduler.waiting_wakeAll]
      exact List.mem_filter.2 ⟨hlistens, by simpa using Ne.symm hj⟩

theorem notifyAll (h : Attended s k c) (ks : List Nat) : Attended (notifyAll ks s) k c := by
  induction ks generalizing s with
  | nil => exact h
  | cons j rest ih => exact ih (h.notify j)

/-- An observer that is told of its queue is ready then, unless it is busy. -/
theorem ready_of_notifyAll (h : Attended s k c) (hnone : c.taking = none) {ks : List Nat}
    (hk : k ∈ ks) : k ∈ (Observer.notifyAll ks s).ready := by
  have hkeeps (ks : List Nat) (s : Scheduler Nat Signal) (hready : k ∈ s.ready) :
      k ∈ (Observer.notifyAll ks s).ready := by
    induction ks generalizing s with
    | nil => exact hready
    | cons j rest ih => exact ih _ (Scheduler.mem_ready_notify.2 (Or.inl hready))
  induction ks generalizing s with
  | nil => exact absurd hk List.not_mem_nil
  | cons j rest ih =>
    rcases List.mem_cons.1 hk with rfl | hk
    · refine hkeeps rest _ (Scheduler.mem_ready_notify.2 ?_)
      exact (h.idle hnone).imp id And.right
    · exact ih (h.notify j) hk

theorem receive (h : Attended s k c) (e : Event) {ks : List Nat}
    (hks : ∀ c', c.offer e = .ok c' → k ∈ ks) :
    Attended (Observer.notifyAll ks s) k (c.receive e) := by
  rw [Channel.receive]
  cases hoffer : c.offer e with
  | error why => exact h.notifyAll ks
  | ok c' =>
    have hks : k ∈ ks := hks c' hoffer
    obtain rfl := Channel.eq_of_offer hoffer
    exact ⟨(h.notifyAll ks).busy, fun hnone ↦ Or.inl (h.ready_of_notifyAll hnone hks)⟩

end Attended

/-! ### Courses -/

namespace Desk

/-- A set after one happening. -/
def happen (d : Desk) (h : Happening Event Nat) : Desk :=
  Tasked.happen (fun e d ↦ d.emit e) d h

/-- A set after some happenings: callers emit events, observers have turns, time passes. -/
def after (d : Desk) (course : List (Happening Event Nat)) : Desk := course.foldl happen d

/-- The strokes that a happening makes. -/
def strokesIn (d : Desk) : Happening Event Nat → List Stroke
  | .act e => [.emit e]
  | .turn k =>
    if k ∈ d.scheduler.ready then
      (d.channels[k]?).elim [] (·.strokes k d.scheduler.now)
    else []
  | .pass _ => []

/-- The strokes that some happenings make. -/
def strokes : Desk → List (Happening Event Nat) → List Stroke
  | _, [] => []
  | d, h :: rest => d.strokesIn h ++ strokes (d.happen h) rest

/-- The events that callers emit. -/
def emissions (course : List (Happening Event Nat)) : List Event :=
  course.filterMap fun
    | .act e => some e
    | _ => none

variable {d : Desk} {os : List Observer} {course more : List (Happening Event Nat)} {k : Nat}

theorem after_append (d : Desk) (course more : List (Happening Event Nat)) :
    d.after (course ++ more) = (d.after course).after more :=
  List.foldl_append

/-- What a turn makes of a set. -/
theorem turn_of_some {c : Channel} (hc : d.channels[k]? = some c) :
    d.turn k = { d with
      channels := d.channels.set k (c.work d.scheduler.now).1
      posted := d.posted ++ (c.work d.scheduler.now).2
      scheduler := awaits (d.scheduler.forget k) k (c.work d.scheduler.now).1 } := by
  unfold turn
  simp only [hc]
  rfl

theorem turn_of_none (hc : d.channels[k]? = none) :
    d.turn k = { d with scheduler := d.scheduler.forget k } := by
  unfold turn
  simp only [hc]

theorem happen_turn (hk : k ∈ d.scheduler.ready) :
    d.happen (.turn k) = turn k { d with scheduler := d.scheduler.take k } :=
  if_pos hk

/-- What a happening makes of the queues, and what it posts, are the strokes it makes. -/
theorem channels_happen (d : Desk) (h : Happening Event Nat) :
    (d.happen h).channels = strikes d.channels (d.strokesIn h) ∧
      (d.happen h).posted = d.posted ++ (bulletin d.channels (d.strokesIn h)).map (·.2) ∧
      emitted (d.strokesIn h) = emissions [h] ∧ (d.happen h).dead = d.dead := by
  cases h with
  | act e =>
    refine ⟨rfl, ?_, rfl, rfl⟩
    show d.posted ++ refusals e (offerAll e 0 d.channels).refused = _
    rw [← reports_emit, strokesIn, bulletin, bulletin, List.append_nil]
  | pass tick => exact ⟨rfl, (List.append_nil _).symm, rfl, rfl⟩
  | turn k =>
    by_cases hk : k ∈ d.scheduler.ready
    · rw [happen_turn hk, strokesIn, if_pos hk]
      cases hc : d.channels[k]? with
      | none =>
        rw [turn_of_none (d := { d with scheduler := d.scheduler.take k }) hc]
        exact ⟨rfl, (List.append_nil _).symm, rfl, rfl⟩
      | some c =>
        obtain ⟨hstrikes, hbulletin, hemitted⟩ := strikes_turn hc d.scheduler.now
        rw [turn_of_some (d := { d with scheduler := d.scheduler.take k }) hc]
        refine ⟨hstrikes.symm, ?_, hemitted, rfl⟩
        show d.posted ++ (c.work d.scheduler.now).2 = _
        rw [← hbulletin]
        rfl
    · have hstay : d.happen (.turn k) = d := if_neg hk
      rw [hstay, strokesIn, if_neg hk]
      exact ⟨rfl, (List.append_nil _).symm, rfl, rfl⟩

/-- **All that happens at a set is a sequence of strokes.** -/
theorem channels_after (d : Desk) (course : List (Happening Event Nat)) :
    (d.after course).channels = strikes d.channels (d.strokes course) ∧
      (d.after course).posted = d.posted ++ (bulletin d.channels (d.strokes course)).map (·.2) ∧
      emitted (d.strokes course) = emissions course ∧ (d.after course).dead = d.dead := by
  induction course generalizing d with
  | nil => exact ⟨rfl, (List.append_nil _).symm, rfl, rfl⟩
  | cons h rest ih =>
    obtain ⟨hchannels, hposted, hemitted, hdead⟩ := d.channels_happen h
    obtain ⟨hchannels', hposted', hemitted', hdead'⟩ := ih (d.happen h)
    refine ⟨?_, ?_, ?_, hdead'.trans hdead⟩
    · rw [strokes, strikes_append, ← hchannels]
      exact hchannels'
    · rw [strokes, bulletin_append, List.map_append, ← List.append_assoc, ← hposted, ← hchannels]
      exact hposted'
    · rw [strokes, emitted_append, hemitted, hemitted', emissions, emissions, emissions,
        ← List.filterMap_append]
      rfl

/-! ### Observers go on -/

/-- Every observer of a set is attended to. -/
def Sound (d : Desk) : Prop := ∀ k c, d.channels[k]? = some c → Attended d.scheduler k c

theorem sound_ofObservers (os : List Observer) : (ofObservers os).Sound := by
  intro k c hc
  have hlt : k < os.length := by
    have hk : k < (os.map fun o ↦ ({ observer := o } : Channel)).length :=
      (List.getElem?_eq_some_iff.1 hc).1
    rwa [List.length_map] at hk
  have hmap : (os.map fun o ↦ ({ observer := o } : Channel))[k]? = some c := hc
  rw [List.getElem?_map] at hmap
  obtain ⟨o, -, rfl⟩ := Option.map_eq_some_iff.1 hmap
  exact ⟨fun t ht ↦ absurd ht (by simp), fun _ ↦ Or.inl (List.mem_range.2 hlt)⟩

/-- **Whatever happens at a set, every observer stays attended to.** -/
theorem Sound.happen (hd : d.Sound) (h : Happening Event Nat) : (d.happen h).Sound := by
  cases h with
  | act e =>
    intro k c hc
    have hmap : (d.channels.map (·.receive e))[k]? = some c := by
      rw [← channels_offerAll e 0]
      exact hc
    rw [List.getElem?_map] at hmap
    obtain ⟨c, hget, rfl⟩ := Option.map_eq_some_iff.1 hmap
    refine (hd k c hget).receive e fun c' hoffer ↦ (mem_accepted_offerAll e 0 _).2 ?_
    exact ⟨k, c, c', (Nat.zero_add k).symm, hget, hoffer⟩
  | pass tick => exact fun k c hc ↦ (hd k c hc).ringAt (Nat.le_max_right ..)
  | turn j =>
    by_cases hj : j ∈ d.scheduler.ready
    · rw [happen_turn hj]
      have hothers : ∀ k c, k ≠ j → d.channels[k]? = some c →
          Attended ((d.scheduler.take j).forget j) k c := fun k c hne hc ↦
        ((hd k c hc).take_of_ne hne).forget_of_ne hne
      cases hc : d.channels[j]? with
      | none =>
        rw [turn_of_none (d := { d with scheduler := d.scheduler.take j }) hc]
        intro k c hget
        refine hothers k c (fun hkj ↦ ?_) hget
        have hsome : d.channels[j]? = some c := hkj ▸ hget
        rw [hc] at hsome
        exact absurd hsome (by simp)
      | some c =>
        rw [turn_of_some (d := { d with scheduler := d.scheduler.take j }) hc]
        intro k c' hget
        have hset : (d.channels.set j (c.work d.scheduler.now).1)[k]? = some c' := hget
        rw [List.getElem?_set] at hset
        split at hset
        · next hjk =>
          subst hjk
          rw [if_pos (List.getElem?_eq_some_iff.1 hc).1] at hset
          cases hset
          exact Attended.work ..
        · next hne => exact (hothers k c' (Ne.symm hne) hset).awaits_of_ne (Ne.symm hne) _
    · have hstay : d.happen (.turn j) = d := if_neg hj
      rwa [hstay]

theorem sound_after (os : List Observer) (course : List (Happening Event Nat)) :
    ((ofObservers os).after course).Sound :=
  Tasked.unfold_induction (P := Sound) (fun _ h hd ↦ hd.happen h) (sound_ofObservers os) course

/-! ### Coming to rest -/

/-- An observer waits with one alarm at most. -/
theorem length_alarms_awaits (s : Scheduler Nat Signal) (k : Nat) (c : Channel) :
    (awaits s k c).ready = s.ready ∧
      (awaits s k c).alarms.length ≤ s.alarms.length + c.taking.toList.length := by
  rw [awaits]
  cases c.taking with
  | none =>
    refine ⟨Scheduler.ready_listen .., ?_⟩
    rw [Scheduler.alarms_listen]
    exact Nat.le_refl _
  | some t =>
    refine ⟨rfl, ?_⟩
    show (s.alarms.filter _ ++ [_]).length ≤ s.alarms.length + 1
    rw [List.length_append]
    exact Nat.add_le_add_right (List.length_filter_le ..) 1

/-- **A turn leaves less to do.** One that comes too early finds the alarm still set that the
observer waits for. -/
theorem workload_turn (hd : d.Sound) (hk : k ∈ d.scheduler.ready) :
    (d.happen (.turn k)).workload < d.workload := by
  have hready : (d.scheduler.take k).ready.length + 1 = d.scheduler.ready.length := by
    have hpos : 0 < d.scheduler.ready.length := List.length_pos_of_mem hk
    show (d.scheduler.ready.erase k).length + 1 = _
    rw [List.length_erase_of_mem hk]
    omega
  have hforget : ((d.scheduler.take k).forget k).alarms.length ≤ d.scheduler.alarms.length :=
    List.length_filter_le ..
  rw [happen_turn hk]
  cases hc : d.channels[k]? with
  | none =>
    rw [turn_of_none (d := { d with scheduler := d.scheduler.take k }) hc]
    show (d.scheduler.take k).ready.length + 2 * ((d.scheduler.take k).forget k).alarms.length +
      3 * (d.channels.flatMap (·.queue)).length < d.workload
    rw [workload]
    omega
  | some c =>
    rw [turn_of_some (d := { d with scheduler := d.scheduler.take k }) hc]
    obtain ⟨hsame, halarms⟩ := length_alarms_awaits ((d.scheduler.take k).forget k) k
      (c.work d.scheduler.now).1
    have hsum := sum_map_set (·.queue.length) hc (c.work d.scheduler.now).1
    show (awaits ((d.scheduler.take k).forget k) k (c.work d.scheduler.now).1).ready.length +
        2 * (awaits ((d.scheduler.take k).forget k) k (c.work d.scheduler.now).1).alarms.length +
        3 * ((d.channels.set k (c.work d.scheduler.now).1).flatMap (·.queue)).length <
          d.workload
    have hsame' : (awaits ((d.scheduler.take k).forget k) k
        (c.work d.scheduler.now).1).ready.length = (d.scheduler.take k).ready.length :=
      congrArg List.length hsame
    rw [workload, hsame', List.length_flatMap, List.length_flatMap]
    obtain ⟨t, ht, hearly, hwork⟩ | ⟨hidle, hempty⟩ | ⟨t, ht, hlt⟩ := c.work_cases d.scheduler.now
    · -- Its alarm is still set, so that setting it anew adds none.
      obtain hset | ⟨hdue, -⟩ := (hd k c hc).busy t ht
      · have hone : ((d.scheduler.take k).forget k).alarms.length < d.scheduler.alarms.length :=
          List.length_filter_lt_length_iff_exists.2 ⟨_, hset, by simp⟩
        rw [hwork] at hsum halarms ⊢
        rw [ht] at halarms
        have hcount : (some t).toList.length = 1 := rfl
        dsimp only at hsum halarms ⊢
        omega
      · omega
    · rw [hidle] at halarms
      rw [hempty] at hsum
      have hcount : (none : Option Taking).toList.length = 0 := rfl
      have hnil : ([] : List Event).length = 0 := rfl
      omega
    · rw [ht] at halarms
      have hcount : (some t).toList.length = 1 := rfl
      omega

/-- **A move of the clock turns alarms into turns.** -/
theorem workload_pass {a : Alarm Nat} (ha : a ∈ d.scheduler.alarms) :
    (d.happen (.pass a.due)).workload < d.workload := by
  have hwake (ts : List Nat) (s : Scheduler Nat Signal) :
      (s.wakeAll ts).ready.length ≤ s.ready.length + ts.length := by
    induction ts generalizing s with
    | nil => exact Nat.le_refl _
    | cons t rest ih =>
      have hone : (s.wake t).ready.length ≤ s.ready.length + 1 := by
        rw [Scheduler.wake]
        split
        · exact Nat.le_succ _
        · exact Nat.le_of_eq List.length_append
      have hrest : ((s.wake t).wakeAll rest).ready.length ≤ (s.wake t).ready.length + rest.length :=
        ih _
      show ((s.wake t).wakeAll rest).ready.length ≤ s.ready.length + (rest.length + 1)
      omega
  generalize htick : max a.due d.scheduler.now = tick
  have hready : (d.scheduler.ringAt tick).ready.length ≤
      d.scheduler.ready.length + (d.scheduler.alarms.filter (·.due ≤ tick)).length := by
    have h := hwake ((d.scheduler.alarms.filter (·.due ≤ tick)).map (·.task)) { d.scheduler with
      now := tick
      alarms := d.scheduler.alarms.filter fun a ↦ tick < a.due }
    rwa [List.length_map] at h
  have hring : 0 < (d.scheduler.alarms.filter (·.due ≤ tick)).length := by
    refine List.length_pos_of_mem (List.mem_filter.2 ⟨ha, ?_⟩)
    simp only [decide_eq_true_eq]
    omega
  have hsplit : (d.scheduler.alarms.filter (·.due ≤ tick)).length +
      (d.scheduler.alarms.filter fun a ↦ tick < a.due).length = d.scheduler.alarms.length := by
    have hnot : (fun a : Alarm Nat ↦ decide (tick < a.due)) = fun a ↦ !decide (a.due ≤ tick) := by
      funext a
      rw [← decide_not]
      exact decide_eq_decide.2 Nat.not_le.symm
    rw [hnot]
    exact (List.length_eq_length_filter_add _).symm
  have halarms : (d.scheduler.ringAt tick).alarms =
      d.scheduler.alarms.filter fun a ↦ tick < a.due := Scheduler.alarms_wakeAll _
  show (d.scheduler.ringAt (max a.due d.scheduler.now)).ready.length +
      2 * (d.scheduler.ringAt (max a.due d.scheduler.now)).alarms.length +
      3 * (d.channels.flatMap (·.queue)).length < d.workload
  rw [htick, halarms, workload]
  omega

theorem workload_proceed? {e : Desk} (hd : d.Sound) (h : Tasked.proceed? none d = some e) :
    e.Sound ∧ e.workload < d.workload := by
  obtain ⟨k, hk, rfl⟩ | ⟨-, a, ha, rfl⟩ := Tasked.proceed?_cases (fun e d ↦ emit d e) h
  · exact ⟨hd.happen (.turn k), workload_turn hd hk⟩
  · exact ⟨hd.happen (.pass a.due), workload_pass ha⟩

/-- **Observers who wait for nothing but events have taken everything.** -/
theorem isAtRest_of_idle (hd : d.Sound) (hready : d.scheduler.ready = [])
    (halarms : d.scheduler.alarms = []) : d.isAtRest = true := by
  refine List.all_eq_true.2 fun c hc ↦ ?_
  obtain ⟨k, hk⟩ := List.mem_iff_getElem?.1 hc
  have hattended := hd k c hk
  have hidle : c.taking = none := by
    cases ht : c.taking with
    | none => rfl
    | some t =>
      have hbusy := hattended.busy t ht
      rw [hready, halarms] at hbusy
      exact absurd hbusy (by simp)
  have hempty : c.queue = [] := by
    have hqueue := hattended.idle hidle
    rw [hready] at hqueue
    exact (hqueue.resolve_left List.not_mem_nil).1
  rw [Channel.isAtRest, hidle, hempty]
  rfl

/-- **A shutdown ends, and every observer has taken everything then.** -/
theorem perform_shutdown (hd : d.Sound) (hdead : d.dead = false) :
    ∃ more, emissions more = [] ∧
      d.perform .shutdown = (.rested (d.after more).scheduler.now, d.after more) ∧
      (d.after more).isAtRest = true := by
  obtain ⟨more, hmore, hafter⟩ : ∃ more : List (Happening Event Nat), (∀ e, .act e ∉ more) ∧
      Tasked.runUntil isAtRest d.workload d = d.after more :=
    (Tasked.Unfolds.runUntil isAtRest d.workload d).exists_quiet
  refine ⟨more, ?_, ?_, ?_⟩
  · refine List.filterMap_eq_nil_iff.2 fun h hh ↦ ?_
    cases h with
    | act e => exact absurd hh (hmore e)
    | turn k => rfl
    | pass tick => rfl
  · rw [perform, if_neg (by simp [hdead]), hafter]
  · rw [← hafter]
    refine Tasked.done_runUntil (P := Sound) (fun _ _ hs h ↦ workload_proceed? hs h)
      (fun s hs h ↦ ?_) hd (Nat.le_refl _)
    exact isAtRest_of_idle hs (Tasked.idle_of_proceed? h).1 (Tasked.idle_of_proceed? h).2

end Desk

end PullConsumer.Observer
