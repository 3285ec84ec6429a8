import PullConsumer.Proofs.Supervisor.Relays

/-!
# Who can still publish

The listener hands events on until nobody can publish any more. Those who can are the supervisor
itself, its pullers and jobs; and also the set of observers and every single observer, since they
report on each other. The set belongs to the listener, and the observers wait at queues that only
the listener closes. So the listener waits for publishers that wait for the listener: it never ends,
and no queue is ever closed. Once the user has let go of the supervisor
and all pullers and jobs are over, the set and its observers are all the publishers that are left,
and a listener that has read everything goes on waiting for them.
-/

namespace PullConsumer.Supervisor

namespace State

variable {s t : State} {plan : Plan}

/-- The user has let go of a supervisor, and its pullers and jobs are over. -/
structure Deserted (t : State) : Prop where
  owned : t.owned = false
  pullers : ∀ p ∈ t.pullers, p.isOver = true
  jobs : t.jobs = []

/-- The listener has read everything that was published. -/
def HasReadAll (t : State) : Prop := t.listening = some t.ring.sent

/-- No queue is ever closed. -/
theorem closed_after (h : plan.build = .ok s) (moves : List Move) :
    ∀ c ∈ (s.after moves).channels, c.closed = false := by
  intro c hc
  obtain ⟨strokes, hrelayed⟩ := relayed_after h moves
  obtain ⟨k, hk⟩ := List.mem_iff_getElem?.1 hc
  obtain ⟨o, -, hsettles, -⟩ := hrelayed.settles hk
  exact hsettles.opened

/-- The listener always reads on. -/
theorem listening_after (h : plan.build = .ok s) (moves : List Move) :
    (s.after moves).listening.isSome = true := by
  obtain ⟨strokes, hrelayed⟩ := relayed_after h moves
  obtain ⟨p, hp, -⟩ := hrelayed.reading
  have hlistening : (s.after moves).listening = some p := hp
  rw [hlistening]
  rfl

/-- **The publishers that are left in the end** are those that the listener keeps alive. -/
theorem publishers_of_deserted (ht : t.Deserted) (hlistening : t.listening.isSome = true)
    (hopen : ∀ c ∈ t.channels, c.closed = false) : t.publishers =
      .observers :: (List.range t.channels.length).map .observer := by
  have hpullers : ((List.range t.pullers.length).filter fun n ↦
      ((t.pullers[n]?).map Puller.isOver) = some false) = [] := by
    refine List.filter_eq_nil_iff.2 fun n hn ↦ ?_
    have hlt := List.mem_range.1 hn
    have hover := ht.pullers _ (List.getElem_mem hlt)
    simp [List.getElem?_eq_getElem hlt, hover]
  have hobservers : ((List.range t.channels.length).filter fun n ↦
      ((t.channels[n]?).map fun c ↦ c.closed && c.isAtRest) = some false) =
        List.range t.channels.length := by
    refine List.filter_eq_self.2 fun n hn ↦ ?_
    have hlt := List.mem_range.1 hn
    have hclosed := hopen _ (List.getElem_mem hlt)
    simp [List.getElem?_eq_getElem hlt, hclosed]
  rw [publishers, hpullers, hobservers, ht.jobs, ht.owned, if_pos hlistening]
  rfl

/-- A listener that has read everything waits for the next event, whoever is left to publish one. -/
theorem readRing_of_hasReadAll (ht : t.HasReadAll) {events : List Event}
    (hring : t.ring.Holds events) (budget : Nat) :
    readRing (budget + 1) t.ring.sent t = t.listen .posted .listener := by
  have hread : t.ring.read t.ring.sent = (.empty, t.ring.sent) := by
    obtain ⟨hlt, hle, -⟩ | ⟨a, ha, -⟩ | ⟨-, hempty⟩ :=
      hring.read_cases (Nat.le_of_eq hring.sent)
    · exact absurd (Nat.lt_of_lt_of_le hlt hle) (by rw [hring.sent]; exact Nat.lt_irrefl _)
    · rw [hring.sent, List.getElem?_eq_none (Nat.le_refl _)] at ha
      exact absurd ha (by simp)
    · exact hempty
  have hlistening : t.listening = some t.ring.sent := ht
  have hstays : { t with listening := some t.ring.sent } = t := by rw [← hlistening]
  rw [readRing]
  simp only [hread, hstays]
  rw [ringIsClosed_of_listening (by rw [hlistening]; rfl)]
  rfl

/-- The turn of a listener that has a place to read at. -/
theorem exists_listenerTurn {p : Nat} (ht : t.listening = some p) :
    ∃ budget, t.listenerTurn = readRing (budget + 2) p (t.forget .listener) := by
  have hforget : (t.forget .listener).listening = some p := ht
  refine ⟨2 + 2 * (t.ring.sent - p) * (t.channels.length + 1), ?_⟩
  rw [listenerTurn]
  simp only [hforget]
  rw [Nat.add_right_comm]
  rfl

theorem listenerTurn_of_hasReadAll (ht : t.HasReadAll) {events : List Event}
    (hring : t.ring.Holds events) :
    t.listenerTurn = (t.forget .listener).listen .posted .listener := by
  obtain ⟨budget, hturn⟩ := exists_listenerTurn ht
  rw [hturn]
  exact readRing_of_hasReadAll (t := t.forget .listener) ht hring _

/-- **The listener outlives everyone else.** In whatever order the parties have moved, the listener
reads on, somebody can publish and no queue is closed. When the user has let go and all pullers and
jobs are over, those who can publish are the observers and the set of them, which are there as long
as the listener is; and a listener that has read everything is not told that the ring is closed, but
waits for the next event. -/
theorem publishers_after (h : plan.build = .ok s) (moves : List Move) :
    (s.after moves).listening.isSome = true ∧ (s.after moves).ringIsClosed = false ∧
      (∀ c ∈ (s.after moves).channels, c.closed = false) ∧
      ((s.after moves).Deserted → (s.after moves).publishers =
        .observers :: (List.range plan.allObservers.length).map .observer) ∧
      ((s.after moves).HasReadAll → (s.after moves).move .listen =
        ((s.after moves).forget .listener).listen .posted .listener) := by
  have hlistening := listening_after h moves
  have hopen := closed_after h moves
  obtain ⟨strokes, hrelayed⟩ := relayed_after h moves
  refine ⟨hlistening, ringIsClosed_of_listening hlistening, hopen, fun hdeserted ↦ ?_,
    fun hall ↦ ?_⟩
  · have hlength : (s.after moves).channels.length = plan.allObservers.length :=
      hrelayed.length_channels
    rw [publishers_of_deserted hdeserted hlistening hopen, hlength]
  · exact listenerTurn_of_hasReadAll hall hrelayed.ring

/-- The life of the small supervisor: it handles its message, is stopped and let go, and its
listener reads what was published. -/
def lifetime : List Move := Move.handling ++ Move.stopping ++ [.abandon, .listen]

theorem deserted_lone : ∃ s : State, Plan.lone.build = .ok s ∧ (s.after lifetime).Deserted ∧
    (s.after lifetime).HasReadAll ∧ (s.after lifetime).ringIsClosed = false := by
  obtain ⟨s, hbuild, howned, hpullers, hjobs, hall, hopen⟩ : ∃ s, Plan.lone.build = .ok s ∧
      (s.after lifetime).owned = false ∧ (∀ p ∈ (s.after lifetime).pullers, p.isOver = true) ∧
      (s.after lifetime).jobs = [] ∧
      (s.after lifetime).listening = some (s.after lifetime).ring.sent ∧
      (s.after lifetime).ringIsClosed = false :=
    ⟨_, rfl, by decide +kernel, by decide +kernel, by decide +kernel, by decide +kernel,
      by decide +kernel⟩
  exact ⟨s, hbuild, ⟨howned, hpullers, hjobs⟩, hall, hopen⟩

/-- In the end the log writer, and the set that it belongs to, can still publish. -/
theorem publishers_after_lone : ∃ s : State, Plan.lone.build = .ok s ∧
    (s.after lifetime).Deserted ∧ (s.after lifetime).HasReadAll ∧
    (s.after lifetime).publishers = [.observers, .observer 0] ∧
    (s.after (lifetime ++ [.listen])).listening.isSome = true := by
  obtain ⟨s, hbuild, hdeserted, hall, -⟩ := deserted_lone
  obtain ⟨-, -, -, hpublishers, -⟩ := publishers_after hbuild lifetime
  obtain ⟨hlistening, -⟩ := publishers_after hbuild (lifetime ++ [.listen])
  exact ⟨s, hbuild, hdeserted, hall, hpublishers hdeserted, hlistening⟩

/-- **The listener does not end when everyone else is gone**, not even after a life in which nothing
went wrong. -/
theorem not_closed_of_deserted : ¬ ∀ (plan : Plan) (s : State) (moves : List Move),
    plan.build = .ok s → (s.after moves).Deserted → (s.after moves).HasReadAll →
      (s.after moves).ringIsClosed = true ∧ ((s.after moves).move .listen).listening = none := by
  intro hends
  obtain ⟨s, hbuild, hdeserted, hall, hopen⟩ := deserted_lone
  have hclosed := (hends _ s lifetime hbuild hdeserted hall).1
  rw [hopen] at hclosed
  exact absurd hclosed (by simp)

end State

end PullConsumer.Supervisor
