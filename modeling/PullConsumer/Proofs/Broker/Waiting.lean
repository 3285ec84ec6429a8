import PullConsumer.Proofs.Broker.Callers
import PullConsumer.Proofs.Broker.Lines
import PullConsumer.Proofs.Interleavings

/-!
# Fetches that wait

Any number of fetches wait for deliveries, of any consumers, while others declare, publish, settle
and plant faults, and time passes. All of them share one signal, so that most of those who are woken
find nothing for themselves and wait again; what came for one may be taken by another that looks
first.

That none of them waits in vain rests on what is true of a fetch that is not ready
(`Attends.waiting`): it listens, its alarm is set for its deadline, its deadline is not past, and the
queue of its consumer is there and empty. Only a delivery that enters a queue can end the last of
these, and whoever lets one in gives the signal; to declare a consumer again, to bind, to begin a
fetch, to settle without a return and to take a delivery for somebody else do not. Only the passing
of time can end the one before it, and that rings the alarm. In both cases the fetch is ready then,
and nothing is left to be true of it but that it looks again.

A fetch that ends without a delivery has left the stock of the broker as it was in each of its turns
(`Harmless`), and if it ends with a timeout that was not planted, it has found the clock at its
deadline or past it.
-/

namespace PullConsumer.Broker

/-! ### Empty queues -/

/-- The consumer is there and nothing waits for it. -/
def Empty (b : Broker) (c : ConsumerId) : Prop := ∃ q, b.queue? c = some q ∧ q.ready = []

/-- Two brokers have the same stock: what waits and what is in flight. -/
def SameStock (b x : Broker) : Prop := x.queues = b.queues ∧ x.inFlight = b.inFlight

theorem sameStock_beginFetch (b : Broker) : SameStock b b.beginFetch.2 := by
  obtain ⟨fetchFaults, h⟩ := beginFetch_eq b
  rw [h]
  exact ⟨rfl, rfl⟩

theorem take?_eq_none_iff {b : Broker} {c : ConsumerId} : b.take? c = .ok none ↔ b.Empty c := by
  rw [take?]
  rcases hqueue : b.queue? c with - | q
  · simp [Empty, hqueue]
  · rcases hready : q.ready with - | ⟨d, rest⟩ <;> simp [Empty, hqueue, hready]

section Kept

variable {b x : Broker} {c k : ConsumerId} {d : Delivery}

theorem Empty.of_queues (h : b.Empty c) (hx : x.queues = b.queues) : x.Empty c := by
  obtain ⟨q, hq, hready⟩ := h
  exact ⟨q, by rw [queue?, hx]; exact hq, hready⟩

/-- What somebody takes was not in an empty queue. -/
theorem Empty.take? (h : b.Empty c) (hx : b.take? k = .ok (some (d, x))) : x.Empty c := by
  obtain ⟨q, hq, hready⟩ := h
  rw [Broker.take?] at hx
  rcases hqueue : b.queue? k with - | q'
  · simp [hqueue] at hx
  rcases hready' : q'.ready with - | ⟨first, rest⟩
  · simp [hqueue, hready'] at hx
  · simp only [hqueue, hready', Except.ok.injEq, Option.some.injEq, Prod.mk.injEq] at hx
    have hne : c ≠ k := by
      rintro rfl
      rw [Option.some.inj (hq.symm.trans hqueue), hready'] at hready
      exact absurd hready (by simp)
    refine ⟨q, ?_, hready⟩
    rw [← hx.2, queue?, lookup_changeQueue_of_ne hne]
    exact hq

/-- Of all supplies only a publication fills queues. -/
theorem Empty.supply (h : b.Empty c) {s : Supply} (hs : ∀ m stamp, s ≠ .publish m stamp) :
    (b.supply s).Empty c := by
  cases s with
  | publish m stamp => exact absurd rfl (hs m stamp)
  | declare k filter =>
    obtain ⟨q, hq, hready⟩ := h
    by_cases hne : c = k
    · exact ⟨{ filter }, hne ▸ lookup_setQueue_self _ _ _, rfl⟩
    · exact ⟨q, (lookup_setQueue_of_ne hne _ _).trans hq, hready⟩
  | _ => exact h

theorem Empty.bind (h : b.Empty c) (x : Binding) : (b.bind x).2.Empty c := by
  obtain ⟨bindFaults, hbind⟩ := bind_eq b x
  rw [hbind]
  exact h

/-- A settlement that returns nothing to a queue leaves the queues as they are. -/
theorem queues_settle (b : Broker) (h : Handle) (s : Settlement) :
    (b.settle h s).requeued = true ∨ (b.settle h s).broker.queues = b.queues := by
  rw [settle]
  split
  · exact Or.inr rfl
  split
  · exact Or.inr rfl
  cases s with
  | ack => exact Or.inr rfl
  | nack =>
    dsimp only
    split
    · exact Or.inl rfl
    · exact Or.inr rfl

end Kept

/-! ### The turn of a fetch -/

/-- A fetch has come to an end of either kind. -/
def Errand.isOver : Errand → Bool
  | finished _ _ => true
  | crashed _ => true
  | _ => false

theorem Fetch.limit?_of_start {now : Nat} {c : ConsumerId} {t : Duration} {f : Fetch}
    (h : Fetch.start now c t = .ok f) :
    f.consumer = c ∧ f.timeout = t ∧ t.limit? now = some f.deadline := by
  rw [start_eq] at h
  beta_reduce at h
  split at h
  · next deadline hlimit =>
    obtain rfl := Except.ok.inj h
    exact ⟨rfl, rfl, hlimit⟩
  · exact absurd h (by simp)

namespace Desk

variable {d e : Desk} {n k : Nat} {f : Fetch} {old : Errand}

@[simp] theorem errands_finish (d : Desk) (n : Nat) (answer : Except BrokerError Delivery) :
    (d.finish n answer).errands = d.errands.set n (.finished d.scheduler.now answer) := by
  rw [finish]
  split <;> rfl

@[simp] theorem scheduler_finish (d : Desk) (n : Nat) (answer : Except BrokerError Delivery) :
    (d.finish n answer).scheduler = d.scheduler := by
  rw [finish]
  split <;> rfl

/-- The fetch whose turn it is begins now, with all of its timeout before it, or is under way. -/
def Pursues (d : Desk) (n : Nat) (f : Fetch) : Prop :=
  d.errands[n]? = some (.waiting f) ∨
    d.errands[n]? = some (.fresh f.consumer f.timeout) ∧
      f.timeout.limit? d.scheduler.now = some f.deadline

/-- What a fetch is answered with in its turn, and the broker after it. -/
inductive Answers (d : Desk) (n : Nat) : Except BrokerError Delivery → Broker → Prop
  /-- A fetch that begins meets a planted fault. -/
  | planted {c : ConsumerId} {t : Duration} {fault : BrokerError} {rest : List BrokerError}
      {x : Broker} (herrand : d.errands[n]? = some (.fresh c t))
      (hfault : d.broker.fetchFaults = fault :: rest) (hsame : SameStock d.broker x) :
      Answers d n (.error fault) x
  | missing {f : Fetch} {cause : BrokerError} {x : Broker} (hpursues : d.Pursues n f)
      (hcause : cause.isTimeout = false) (hsame : SameStock d.broker x) : Answers d n (.error cause) x
  | oldest {f : Fetch} {x : Broker} {delivery : Delivery} {y : Broker} (hpursues : d.Pursues n f)
      (hsame : SameStock d.broker x) (htake : x.take? f.consumer = .ok (some (delivery, y))) :
      Answers d n (.ok delivery) y
  /-- Nothing is there and the time is up. -/
  | late {f : Fetch} {x : Broker} (hpursues : d.Pursues n f) (hdue : f.deadline ≤ d.scheduler.now)
      (hsame : SameStock d.broker x) : Answers d n (.error (.timeout f.timeout)) x

/-- What the turn of a fetch comes to. -/
inductive Turned (d : Desk) (n : Nat) : Desk → Prop
  | ended (h : ∀ old, d.errands[n]? = some old → old.isOver = true) : Turned d n d
  | crashed {c : ConsumerId} {t : Duration} (herrand : d.errands[n]? = some (.fresh c t))
      (cause : Crash) : Turned d n (d.put n (.crashed cause))
  | answered {answer : Except BrokerError Delivery} {x : Broker} (h : Answers d n answer x) :
      Turned d n (finish { d with broker := x } n answer)
  | waits {f : Fetch} {x : Broker} (hpursues : d.Pursues n f) (hsame : SameStock d.broker x)
      (hempty : x.Empty f.consumer) (hdue : d.scheduler.now < f.deadline) :
      Turned d n { ({ d with broker := x } : Desk).put n (.waiting f) with
        scheduler := (d.scheduler.listen .arrival n).arm n 0 f.deadline }

/-- A fetch takes up what it finds. -/
theorem turned_follow (hpursues : d.Pursues n f) {x : Broker} (hsame : SameStock d.broker x)
    {r : Fetch.Progress × Broker} (hfinds : Fetch.Finds f d.scheduler.now x r) :
    Turned d n (d.follow n f r) := by
  cases hfinds with
  | missing htake hcause => exact .answered (.missing hpursues hcause hsame)
  | oldest htake => exact .answered (.oldest hpursues hsame htake)
  | late htake hdue => exact .answered (.late hpursues hdue hsame)
  | nothing htake hdue => exact .waits hpursues hsame (take?_eq_none_iff.1 htake) hdue

/-- A fetch that begins. -/
theorem turned_firstLook (herrand : d.errands[n]? = some (.fresh f.consumer f.timeout))
    (hlimit : f.timeout.limit? d.scheduler.now = some f.deadline) :
    Turned d n (d.follow n f (f.firstLook d.scheduler.now d.broker)) := by
  rcases f.firstLook_cases d.scheduler.now d.broker with ⟨fault, hask, hlook⟩ | ⟨-, hlook⟩
  · rw [hlook]
    obtain ⟨rest, hfault⟩ : ∃ rest, d.broker.fetchFaults = fault :: rest := by
      rw [beginFetch] at hask
      split at hask
      · next first rest hfaults =>
        obtain rfl : first = fault := Option.some.inj hask
        exact ⟨rest, hfaults⟩
      · exact absurd hask (by simp)
    exact .answered (.planted herrand hfault (sameStock_beginFetch d.broker))
  · rw [hlook]
    exact turned_follow (Or.inr ⟨herrand, hlimit⟩) (sameStock_beginFetch d.broker)
      (f.finds_look d.scheduler.now _)

-- For any `start`, since the arithmetic of a deadline would be carried out in unary when the proof is
-- checked.
/-- What becomes of a fetch that is woken. -/
theorem turned_woken (start : Nat → ConsumerId → Duration → Except Crash Fetch)
    (hstart : ∀ now c t f, start now c t = .ok f →
      f.consumer = c ∧ f.timeout = t ∧ t.limit? now = some f.deadline) (n : Nat) (d : Desk) :
    Turned d n (match d.errands[n]? with
      | some (Errand.fresh consumer timeout) =>
        match start d.scheduler.now consumer timeout with
        | .ok f => d.follow n f (f.firstLook d.scheduler.now d.broker)
        | .error cause => d.put n (.crashed cause)
      | some (Errand.waiting f) => d.follow n f (f.look d.scheduler.now d.broker)
      | _ => d) := by
  split
  · next consumer timeout herrand =>
    split
    · next f hbegun =>
      obtain ⟨rfl, rfl, hlimit⟩ := hstart _ _ _ _ hbegun
      exact turned_firstLook herrand hlimit
    · next cause _ => exact .crashed herrand cause
  · next f herrand => exact turned_follow (Or.inl herrand) ⟨rfl, rfl⟩ (f.finds_look _ _)
  · next hfresh hwaiting =>
    refine .ended fun old hold ↦ ?_
    cases old with
    | fresh consumer timeout => exact absurd hold (hfresh consumer timeout)
    | waiting f => exact absurd hold (hwaiting f)
    | _ => rfl

/-- **The turn of a fetch**, which ends its waiting. -/
theorem turned_turn (n : Nat) (d : Desk) :
    Turned { d with scheduler := d.scheduler.forget n } n (turn n d) :=
  turned_woken Fetch.start (fun _ _ _ _ ↦ Fetch.limit?_of_start) n _

theorem now_turn (n : Nat) (d : Desk) : (turn n d).scheduler.now = d.scheduler.now := by
  have hturned := turned_turn n d
  have hnow : (d.scheduler.forget n).now = d.scheduler.now := rfl
  generalize turn n d = e at hturned
  cases hturned with
  | ended h => rfl
  | crashed herrand cause => rfl
  | answered h =>
    rw [scheduler_finish]
    exact hnow
  | waits hpursues hsame hempty hdue =>
    show ((d.scheduler.forget n).listen .arrival n).now = d.scheduler.now
    rw [Scheduler.now_listen, hnow]

/-! ### Those who wait -/

/-- A fetch is over, looks again, or waits with nothing to be had and time left. -/
inductive Attends (s : Scheduler Nat Signal) (b : Broker) (n : Nat) : Errand → Prop
  | ended {e : Errand} (h : e.isOver = true) : Attends s b n e
  | ready {e : Errand} (h : n ∈ s.ready) : Attends s b n e
  | waiting {f : Fetch} (hlistens : (Signal.arrival, n) ∈ s.waiting)
      (halarm : ∃ a ∈ s.alarms, a.task = n ∧ a.due = f.deadline) (hdue : s.now < f.deadline)
      (hempty : b.Empty f.consumer) : Attends s b n (.waiting f)

namespace Attends

variable {s : Scheduler Nat Signal} {b x : Broker}

/-- Everyone who waits hears of an arrival. -/
theorem announce (h : Attends s b n old) (x : Broker) : Attends (s.notify .arrival) x n old := by
  cases h with
  | ended h => exact .ended h
  | ready h => exact .ready (Scheduler.mem_ready_notify.2 (Or.inl h))
  | waiting hlistens => exact .ready (Scheduler.mem_ready_notify.2 (Or.inr hlistens))

theorem of_empty (h : Attends s b n old) (hx : ∀ c, b.Empty c → x.Empty c) : Attends s x n old := by
  cases h with
  | ended h => exact .ended h
  | ready h => exact .ready h
  | waiting hlistens halarm hdue hempty => exact .waiting hlistens halarm hdue (hx _ hempty)

theorem wake (h : Attends s b n old) (k : Nat) : Attends (s.wake k) b n old := by
  cases h with
  | ended h => exact .ended h
  | ready h => exact .ready (Scheduler.mem_ready_wake.2 (Or.inl h))
  | waiting hlistens halarm hdue hempty =>
    exact .waiting (by rwa [Scheduler.waiting_wake]) (by rwa [Scheduler.alarms_wake])
      (by rwa [Scheduler.now_wake]) hempty

/-- The turn of another fetch begins. -/
theorem yield_of_ne (h : Attends s b n old) (hne : n ≠ k) :
    Attends ((s.take k).forget k) b n old := by
  cases h with
  | ended h => exact .ended h
  | ready h => exact .ready ((Scheduler.mem_ready_take_of_ne hne).2 h)
  | waiting hlistens halarm hdue hempty =>
    obtain ⟨a, ha, htask, hadue⟩ := halarm
    exact .waiting (Scheduler.mem_waiting_forget.2 ⟨hlistens, hne⟩)
      ⟨a, Scheduler.mem_alarms_forget.2 ⟨ha, htask ▸ hne⟩, htask, hadue⟩ hdue hempty

/-- Another fetch waits. -/
theorem listen_of_ne (h : Attends s b n old) (hne : n ≠ k) (due : Nat) :
    Attends ((s.listen .arrival k).arm k 0 due) b n old := by
  cases h with
  | ended h => exact .ended h
  | ready h => exact .ready (by rwa [← Scheduler.ready_listen (x := Signal.arrival) (t := k)] at h)
  | waiting hlistens halarm hdue hempty =>
    obtain ⟨a, ha, htask, hadue⟩ := halarm
    refine .waiting (Scheduler.mem_waiting_listen.2 (Or.inl hlistens)) ⟨a, ?_, htask, hadue⟩ ?_ hempty
    · rw [Scheduler.mem_alarms_arm_of_ne (htask ▸ hne), Scheduler.alarms_listen]
      exact ha
    · show (s.listen .arrival k).now < _
      rwa [Scheduler.now_listen]

theorem listen_self (hempty : b.Empty f.consumer) (hdue : s.now < f.deadline) :
    Attends ((s.listen .arrival n).arm n 0 f.deadline) b n (.waiting f) := by
  refine .waiting (Scheduler.mem_waiting_listen.2 (Or.inr ⟨rfl, rfl⟩))
    ⟨_, Scheduler.mem_alarms_arm_self 0 f.deadline, rfl, rfl⟩ ?_ hempty
  show (s.listen .arrival n).now < _
  rwa [Scheduler.now_listen]

/-- Whose deadline comes is woken by its alarm. -/
theorem ringAt (h : Attends s b n old) (tick : Nat) : Attends (s.ringAt tick) b n old := by
  cases h with
  | ended h => exact .ended h
  | ready h => exact .ready (Scheduler.mem_ready_ringAt.2 (Or.inl h))
  | @waiting f hlistens halarm hdue hempty =>
    obtain ⟨a, ha, htask, hadue⟩ := halarm
    rcases Nat.lt_or_ge tick f.deadline with hlt | hle
    · exact .waiting (by rwa [Scheduler.waiting_ringAt])
        ⟨a, Scheduler.mem_alarms_ringAt.2 ⟨ha, hadue ▸ hlt⟩, htask, hadue⟩
        (by rwa [Scheduler.now_ringAt]) hempty
    · exact .ready (Scheduler.mem_ready_ringAt.2 (Or.inr ⟨a, ha, hadue ▸ hle, htask⟩))

end Attends

/-- Every fetch of a desk attends. -/
def Sound (d : Desk) : Prop := ∀ n old, d.errands[n]? = some old → Attends d.scheduler d.broker n old

namespace Sound

/-- What a fetch is answered with is taken from no other queue than its own. -/
theorem empty_of_answers {answer : Except BrokerError Delivery} {x : Broker}
    (h : d.Answers n answer x) {c : ConsumerId} (hempty : d.broker.Empty c) : x.Empty c := by
  cases h with
  | planted _ _ hsame => exact hempty.of_queues hsame.1
  | missing _ _ hsame => exact hempty.of_queues hsame.1
  | late _ _ hsame => exact hempty.of_queues hsame.1
  | oldest _ hsame htake => exact (hempty.of_queues hsame.1).take? htake

/-- An entry of a list that was changed in one place. -/
theorem getElem?_set_cases {l : List Errand} {new : Errand} (h : (l.set n new)[k]? = some old) :
    (k = n ∧ old = new) ∨ (k ≠ n ∧ l[k]? = some old) := by
  rw [List.getElem?_set] at h
  split at h
  · next hk =>
    subst hk
    split at h
    · exact Or.inl ⟨rfl, (Option.some.inj h).symm⟩
    · exact absurd h (by simp)
  · next hne => exact Or.inr ⟨fun hk ↦ hne hk.symm, h⟩

/-- The turn of a fetch that is ready. -/
theorem turn (h : Sound d) (n : Nat) :
    Sound (Desk.turn n { d with scheduler := d.scheduler.take n }) := by
  have hturned := turned_turn n { d with scheduler := d.scheduler.take n }
  -- All others attend while it has its turn.
  have hothers : ∀ k old, k ≠ n → d.errands[k]? = some old →
      Attends ((d.scheduler.take n).forget n) d.broker k old := fun k old hne hold ↦
    (h k old hold).yield_of_ne hne
  generalize Desk.turn n { d with scheduler := d.scheduler.take n } = e at hturned
  intro k old hold
  cases hturned with
  | ended hover =>
    by_cases hk : k = n
    · subst hk
      exact .ended (hover old hold)
    · exact hothers k old hk hold
  | crashed herrand cause =>
    rcases getElem?_set_cases hold with ⟨-, rfl⟩ | ⟨hne, hold⟩
    · exact .ended rfl
    · exact hothers k old hne hold
  | answered hanswers =>
    rw [errands_finish] at hold
    rw [scheduler_finish, broker_finish]
    rcases getElem?_set_cases hold with ⟨-, rfl⟩ | ⟨hne, hold⟩
    · exact .ended rfl
    · exact (hothers k old hne hold).of_empty fun c ↦ empty_of_answers hanswers
  | waits hpursues hsame hempty hdue =>
    rcases getElem?_set_cases hold with ⟨rfl, rfl⟩ | ⟨hne, hold⟩
    · exact Attends.listen_self hempty hdue
    · exact ((hothers k old hne hold).of_empty fun c hc ↦ hc.of_queues hsame.1).listen_of_ne hne _

theorem start (h : Sound d) (c : ConsumerId) (t : Duration) : Sound (d.start c t).2 := by
  intro k old hold
  have hold : (d.errands ++ [Errand.fresh c t])[k]? = some old := hold
  show Attends (d.scheduler.wake d.errands.length) d.broker k old
  rcases Nat.lt_or_ge k d.errands.length with hlt | hge
  · rw [List.getElem?_append_left hlt] at hold
    exact (h k old hold).wake _
  · -- There is only one more.
    have hk : k = d.errands.length := by
      have hlt := (List.getElem?_eq_some_iff.1 hold).1
      rw [List.length_append, List.length_singleton] at hlt
      omega
    exact .ready (Scheduler.mem_ready_wake.2 (Or.inr hk))

end Sound

/-! ### Callers -/

/-- What a caller may do: to make a request, or to take notice of what has finished. -/
inductive Act where
  | request (r : Request)
  | hear

/-- A desk at once after a request. A fetch is begun and not waited for, and whoever lets time pass
leaves it to the clock. -/
def accept (d : Desk) : Request → Desk
  | .fetch c timeout => (d.start c timeout).2
  | .advance _ => d
  | r => (d.perform r).2

/-- A desk after a caller has acted. -/
def act : Act → Desk → Desk
  | .request r, d => d.accept r
  | .hear, d => { d with news := [] }

theorem Sound.accept (h : Sound d) (r : Request) : Sound (d.accept r) := by
  cases r with
  | declare c filter =>
    exact fun k old hold ↦ (h k old hold).of_empty fun c' hc ↦
      hc.supply (s := .declare c filter) (by simp)
  | publish m stamp => exact fun k old hold ↦ (h k old hold).announce _
  | bind x => exact fun k old hold ↦ (h k old hold).of_empty fun c hc ↦ hc.bind x
  | fetch c t => exact h.start c t
  | fetchAside name c t => exact h.start c t
  | advance ticks => exact h
  | settle handle s =>
    show Sound (if (d.broker.settle handle s).requeued then
      announce { d with broker := (d.broker.settle handle s).broker } else
      { d with broker := (d.broker.settle handle s).broker })
    split
    · exact fun k old hold ↦ (h k old hold).announce _
    · next hback =>
      have hqueues := (d.broker.queues_settle handle s).resolve_left hback
      exact fun k old hold ↦ (h k old hold).of_empty fun c hc ↦ hc.of_queues hqueues
  | enqueuedAt handle => exact h
  | failFetch cause => exact fun k old hold ↦ (h k old hold).of_empty fun c hc ↦ hc.of_queues rfl
  | failBind cause => exact fun k old hold ↦ (h k old hold).of_empty fun c hc ↦ hc.of_queues rfl
  | failSettle cause => exact fun k old hold ↦ (h k old hold).of_empty fun c hc ↦ hc.of_queues rfl
  | pending c => exact h
  | state => exact h

/-- **One happening.** -/
theorem Sound.happen (h : Sound d) (x : Tasked.Happening Act Nat) :
    Sound (Tasked.happen act d x) := by
  cases x with
  | act a =>
    cases a with
    | request r => exact h.accept r
    | hear => exact h
  | turn n =>
    rw [Tasked.happen]
    split
    · exact h.turn n
    · exact h
  | pass tick => exact fun k old hold ↦ (h k old hold).ringAt _

theorem sound_unfold (b : Broker) (course : List (Tasked.Happening Act Nat)) :
    Sound (Tasked.unfold act { broker := b } course) :=
  Tasked.unfold_induction (fun _ x hs ↦ hs.happen x)
    (fun _ old hold ↦ absurd (show (none : Option Errand) = some old from hold) (by simp)) course

end Desk

end PullConsumer.Broker
