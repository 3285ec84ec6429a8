import PullConsumer.Proofs.Supervisor.Pools
import PullConsumer.Supervisor.Founding

/-!
# Which plans are accepted, and what the others are refused for

A plan is sound if the three times that have to be positive are, if binding is tried at least once,
and if no two of its subscriptions are of one consumer, whatever their subjects are (`Plan.Sound`).
A plan that is not sound has a first fault, in a fixed order (`Plan.FirstFault`): of the times the
first one that is zero, and of the subscriptions the first one that repeats the consumer of one
before it.

That is all that can happen to a plan whose sizes can be had (`Plan.Admissible.judged`): a sound one
is accepted, with an idle pool for each subscription and the writer of the log among the observers,
and any other one is refused for its first fault, before anybody is put to work.
-/

namespace PullConsumer

/-! ### The parts of a plan -/

namespace Settings

/-- The times that have to be positive are. -/
structure Timed (x : Settings) : Prop where
  pollInterval : x.pollInterval.nanos ≠ 0
  fetchTimeout : x.fetchTimeout.nanos ≠ 0
  ackTimeout : x.ackTimeout.nanos ≠ 0

theorem validate_eq (x : Settings) : x.validate =
    if x.pollInterval.nanos = 0 then .error (.zeroDuration "poll_interval")
    else if x.fetchTimeout.nanos = 0 then .error (.zeroDuration "fetch_timeout")
    else if x.ackTimeout.nanos = 0 then .error (.zeroDuration "ack_timeout")
    else if x.bindAttempts = 0 then .error .zeroAttempts
    else .ok () := by
  simp only [validate, required, bindRetry, Retry.Policy.create, List.find?_cons, Duration.isZero]
  by_cases hpoll : x.pollInterval.nanos = 0
  · simp [hpoll]
  · by_cases hfetch : x.fetchTimeout.nanos = 0
    · simp [hpoll, hfetch]
    · by_cases hack : x.ackTimeout.nanos = 0
      · simp [hpoll, hfetch, hack]
      · by_cases hattempts : x.bindAttempts = 0 <;> simp [hpoll, hfetch, hack, hattempts]

/-- There is a policy for binding as soon as it may be tried. -/
theorem exists_bindRetry {x : Settings} (h : x.bindAttempts ≠ 0) :
    ∃ policy, x.bindRetry = .ok policy := by
  rw [bindRetry, Retry.Policy.create, if_neg h]
  exact ⟨_, rfl⟩

end Settings

/-- A subscription that was checked allows for one message at least. -/
theorem Subscription.Draft.maxConcurrency_pos {d : Draft} {x : Subscription}
    (h : d.build = .ok x) : 0 < x.maxConcurrency := by
  obtain ⟨hproblems, hmax, -⟩ := of_build h
  simp only [problems, fault, List.append_eq_nil_iff, ite_eq_right_iff] at hproblems
  obtain ⟨⟨⟨-, hzero⟩, -⟩, -⟩ := hproblems
  rw [hmax]
  cases hn : d.maxConcurrency with
  | none => exact (by decide : 0 < defaultConcurrency)
  | some n => exact Nat.pos_of_ne_zero fun (h0 : n = 0) ↦ by simp [hn, h0] at hzero

namespace Supervisor

open Subscription

namespace Plan

variable {p : Plan}

/-! ### Faults -/

/-- A plan that a supervisor can be built from. -/
structure Sound (p : Plan) : Prop where
  times : p.settings.Timed
  attempts : p.settings.bindAttempts ≠ 0
  apart : Apart p.subscriptions

/-- What a plan is refused for. -/
inductive FirstFault (p : Plan) : ConfigError → Prop
  | pollInterval (h : p.settings.pollInterval.nanos = 0) :
    FirstFault p (.zeroDuration "poll_interval")
  | fetchTimeout (hpoll : p.settings.pollInterval.nanos ≠ 0)
      (h : p.settings.fetchTimeout.nanos = 0) :
    FirstFault p (.zeroDuration "fetch_timeout")
  | ackTimeout (hpoll : p.settings.pollInterval.nanos ≠ 0)
      (hfetch : p.settings.fetchTimeout.nanos ≠ 0) (h : p.settings.ackTimeout.nanos = 0) :
    FirstFault p (.zeroDuration "ack_timeout")
  | attempts (htimes : p.settings.Timed) (h : p.settings.bindAttempts = 0) :
    FirstFault p .zeroAttempts
  | repeated (htimes : p.settings.Timed) (hattempts : p.settings.bindAttempts ≠ 0)
      {before after : List Subscription} {x : Subscription}
      (hsubs : p.subscriptions = before ++ x :: after) (hapart : Apart before)
      (h : ∃ y ∈ before, y.Rivals x) :
    FirstFault p (.duplicateSubscription ⟨x.binding.stream, x.binding.consumer⟩)

theorem sound_or_firstFault (p : Plan) : p.Sound ∨ ∃ e, p.FirstFault e := by
  by_cases hpoll : p.settings.pollInterval.nanos = 0
  · exact .inr ⟨_, .pollInterval hpoll⟩
  by_cases hfetch : p.settings.fetchTimeout.nanos = 0
  · exact .inr ⟨_, .fetchTimeout hpoll hfetch⟩
  by_cases hack : p.settings.ackTimeout.nanos = 0
  · exact .inr ⟨_, .ackTimeout hpoll hfetch hack⟩
  by_cases hattempts : p.settings.bindAttempts = 0
  · exact .inr ⟨_, .attempts ⟨hpoll, hfetch, hack⟩ hattempts⟩
  obtain hapart | ⟨before, x, after, hsubs, hapart, hrepeats⟩ := apart_or_repeats p.subscriptions
  · exact .inl ⟨⟨hpoll, hfetch, hack⟩, hattempts, hapart⟩
  · exact .inr ⟨_, .repeated ⟨hpoll, hfetch, hack⟩ hattempts hsubs hapart hrepeats⟩

/-- A plan whose sizes can be had: those of the ring, of the queues of its observers and of its
pools. Its subscriptions were checked. -/
structure Admissible (p : Plan) : Prop where
  ring : p.settings.busCapacity ≤ Nat.pow 2 63 - 1
  queues : ∀ o ∈ p.observers, o.capacity ≤ Slots.largest
  pools : ∀ x ∈ p.subscriptions, x.maxConcurrency ≤ Slots.largest
  drafted : ∀ x ∈ p.subscriptions, ∃ d : Draft, d.build = .ok x

theorem Admissible.poolable (h : p.Admissible) : ∀ x ∈ p.subscriptions, Poolable x := by
  intro x hx
  obtain ⟨d, hd⟩ := h.drafted x hx
  exact ⟨Draft.maxConcurrency_pos hd, h.pools x hx⟩

/-- A plan is refused for its first fault. -/
theorem Admissible.build_eq_error (h : p.Admissible) {e : ConfigError} (he : p.FirstFault e) :
    p.build = .error (.invalid e) := by
  cases he with
  | pollInterval hzero => simp only [build, Settings.validate_eq, if_pos hzero]
  | fetchTimeout hpoll hzero =>
    simp only [build, Settings.validate_eq, if_neg hpoll, if_pos hzero]
  | ackTimeout hpoll hfetch hzero =>
    simp only [build, Settings.validate_eq, if_neg hpoll, if_neg hfetch, if_pos hzero]
  | attempts htimes hzero =>
    simp only [build, Settings.validate_eq, if_neg htimes.pollInterval, if_neg htimes.fetchTimeout,
      if_neg htimes.ackTimeout, if_pos hzero]
  | @repeated htimes hattempts before after x hsubs hapart hrepeats =>
    obtain ⟨policy, hpolicy⟩ := Settings.exists_bindRetry hattempts
    have hsizes : ∀ y ∈ before, Poolable y := fun y hy ↦
      h.poolable y (hsubs ▸ List.mem_append_left _ hy)
    simp only [build, Settings.validate_eq, if_neg htimes.pollInterval, if_neg htimes.fetchTimeout,
      if_neg htimes.ackTimeout, if_neg hattempts, hpolicy, hsubs,
      pools_eq_error hsizes hapart hrepeats]

/-! ### What is built -/

/-- What a supervisor is like that was just built from a plan. -/
structure Founded (p : Plan) (s : State) : Prop where
  settings : s.setup.settings = p.settings
  subscriptions : s.setup.subscriptions = p.subscriptions
  /-- Each subscription has a pool of its size, in the order of the plan, with every slot free. -/
  pools : s.slots = p.subscriptions.map freshPool
  idle : ∀ pool ∈ s.slots, pool.isIdle = true
  apart : Apart p.subscriptions
  /-- The observers are those of the plan if the writer of the log is one of them, -/
  listed : (∃ o ∈ p.observers, o.name = "LogWriter") →
    s.channels.map Observer.Channel.observer = p.observers
  /-- and those of the plan with the writer of the log behind them otherwise. -/
  added : (∀ o ∈ p.observers, o.name ≠ "LogWriter") →
    s.channels.map Observer.Channel.observer = p.observers ++ [logWriter]
  /-- The observers and the listener are at work, and nobody else. -/
  atWork : s.scheduler =
    { ready := (List.range s.channels.length).map Task.observer ++ [Task.listener] }

theorem Admissible.exists_founded (h : p.Admissible) (hsound : p.Sound) :
    ∃ s, p.build = .ok s ∧ p.Founded s := by
  obtain ⟨htimes, hattempts, hapart⟩ := hsound
  obtain ⟨policy, hpolicy⟩ := Settings.exists_bindRetry hattempts
  have hpools := pools_eq_ok_iff.2 ⟨rfl, h.poolable, hapart, fun _ _ ↦ List.not_mem_nil⟩
  simp only [build, Settings.validate_eq, if_neg htimes.pollInterval, if_neg htimes.fetchTimeout,
    if_neg htimes.ackTimeout, if_neg hattempts, hpolicy, hpools]
  refine ⟨_, rfl, rfl, rfl, rfl, ?_, hapart, ?_, ?_, ?_⟩
  · intro pool hpool
    obtain ⟨x, -, rfl⟩ := List.mem_map.1 hpool
    rfl
  · rintro ⟨o, ho, hname⟩
    have hany : p.observers.any (·.name = Event.LogLine.writer) = true :=
      List.any_eq_true.2 ⟨o, ho, decide_eq_true hname⟩
    rw [List.map_map, allObservers, if_pos hany]
    exact List.map_id _
  · intro hnone
    have hany : ¬ p.observers.any (·.name = Event.LogLine.writer) = true := by
      intro hany
      obtain ⟨o, ho, hname⟩ := List.any_eq_true.1 hany
      exact hnone o ho (of_decide_eq_true hname)
    rw [List.map_map, allObservers, if_neg hany]
    exact List.map_id _
  · rw [List.length_map]

/-- Built alone, step by step, it is the same. -/
theorem Founded.run_founding {s : State} (h : p.Founded s) (hbuild : p.build = .ok s) :
    (p.founding.run {}).1 = .ok s := by
  rw [Plan.run_founding, hbuild]
  have hnodup : s.scheduler.ready.Nodup := by
    rw [h.atWork]
    refine List.nodup_append.2 ⟨?_, List.pairwise_singleton .., ?_⟩
    · exact List.pairwise_map.2 (List.nodup_range.imp fun hne heq ↦ hne (Task.observer.inj heq))
    · intro t ht u hu
      obtain ⟨n, -, rfl⟩ := List.mem_map.1 ht
      rw [List.mem_singleton.1 hu]
      exact Task.noConfusion
  have hqueue : ({} : Scheduler Task Signal).wakeAll s.scheduler.ready = s.scheduler := by
    rw [Scheduler.wakeAll_of_nodup hnodup fun _ _ ↦ List.not_mem_nil, h.atWork]
    rfl
  show Except.ok { s with scheduler := _ } = _
  rw [hqueue]

/-! ### The judgement -/

/-- What becomes of a plan. -/
structure Judged (p : Plan) : Prop where
  /-- It is refused for its first fault, and for nothing else. -/
  refused : ∀ r, p.build = .error r ↔ ∃ e, p.FirstFault e ∧ r = .invalid e
  /-- It is accepted just if it is sound. -/
  accepted : (∃ s, p.build = .ok s) ↔ p.Sound
  founded : ∀ s, p.build = .ok s → p.Founded s
  /-- Step by step the same comes of it, -/
  steps : (p.founding.run {}).1 = p.build
  /-- and whoever is at work, nobody else is if it is refused. -/
  nobody : ∀ w r, (p.founding.run w).1 = .error r → (p.founding.run w).2 = w

/-- **A plan is accepted or refused on its merits**, as long as its sizes can be had. -/
theorem Admissible.judged (h : p.Admissible) : p.Judged := by
  have hfounded : ∀ s, p.build = .ok s → p.Sound ∧ p.Founded s := by
    intro s hs
    obtain hsound | ⟨e, he⟩ := p.sound_or_firstFault
    · obtain ⟨s', hs', hfounded⟩ := h.exists_founded hsound
      exact ⟨hsound, Except.ok.inj (hs'.symm.trans hs) ▸ hfounded⟩
    · exact absurd (hs.symm.trans (h.build_eq_error he)) (by simp)
  have hrefused : ∀ r, p.build = .error r → ∃ e, p.FirstFault e ∧ r = .invalid e := by
    intro r hr
    obtain hsound | ⟨e, he⟩ := p.sound_or_firstFault
    · obtain ⟨s, hs, -⟩ := h.exists_founded hsound
      exact absurd (hr.symm.trans hs) (by simp)
    · exact ⟨e, he, Except.error.inj (hr.symm.trans (h.build_eq_error he))⟩
  refine ⟨fun r ↦ ⟨hrefused r, ?_⟩, ⟨?_, ?_⟩, fun s hs ↦ (hfounded s hs).2, ?_, ?_⟩
  · rintro ⟨e, he, rfl⟩
    exact h.build_eq_error he
  · rintro ⟨s, hs⟩
    exact (hfounded s hs).1
  · intro hsound
    obtain ⟨s, hs, -⟩ := h.exists_founded hsound
    exact ⟨s, hs⟩
  · cases hbuild : p.build with
    | ok s => exact (hfounded s hbuild).2.run_founding hbuild
    | error r => rw [Plan.run_founding, hbuild]
  · intro w r hr
    rw [Plan.run_founding] at hr ⊢
    cases hbuild : p.build with
    | ok s => simp [hbuild] at hr
    | error r' => rfl

/-- Three subscriptions, the third of which is of the same consumer as the first one, for other
subjects. The names of the second one only look like those of the first one when they are joined. -/
def rivals : Plan where
  subscriptions := [("a.b", "c", "x"), ("a", "b.c", "y"), ("a.b", "c", "z")].map
    fun (stream, consumer, subject) ↦ {
      binding := { stream, consumer, subject }
      maxConcurrency := 1
      pollInterval := none
      fetchTimeout := none
      handler := fun _ ↦ [] }

/-- The third subscription is refused, and the first two are accepted without it. -/
theorem judged_rivals : rivals.Admissible ∧ rivals.Judged ∧
    rivals.build = .error (.invalid (.duplicateSubscription ⟨"a.b", "c"⟩)) ∧
    ∃ s, Plan.build { rivals with subscriptions := rivals.subscriptions.take 2 } = .ok s := by
  have hadmissible : rivals.Admissible := by
    refine ⟨by decide, fun o ho ↦ absurd ho List.not_mem_nil, ?_, ?_⟩
    · intro x hx
      obtain ⟨names, -, rfl⟩ := List.mem_map.1 hx
      exact (by decide : 1 ≤ Slots.largest)
    · intro x hx
      obtain ⟨⟨stream, consumer, subject⟩, hnames, rfl⟩ := List.mem_map.1 hx
      refine ⟨{
        stream := some stream
        consumer := some consumer
        subject := some subject
        maxConcurrency := some 1
        handler := some fun _ ↦ [] }, ?_⟩
      simp only [List.mem_cons, List.not_mem_nil, or_false, Prod.mk.injEq] at hnames
      rcases hnames with ⟨rfl, rfl, rfl⟩ | ⟨rfl, rfl, rfl⟩ | ⟨rfl, rfl, rfl⟩ <;> rfl
  exact ⟨hadmissible, hadmissible.judged, rfl, _, rfl⟩

end Plan

end Supervisor

end PullConsumer
