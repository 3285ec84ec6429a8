import PullConsumer.Proofs.Observer.Accounts
import PullConsumer.Proofs.Ring
import PullConsumer.Proofs.Supervisor.Broadcast
import PullConsumer.Proofs.Supervisor.History

/-!
# From the ring to the observers

The listener reads the ring from where it stands and offers each event to all observers; an
observer takes what is in its queue; and what goes wrong with either is put on the ring again. In
small steps (`Broadcast.Step`) this is all that ever becomes of a broadcast, apart from the events
that others publish there. Each small step is a sequence of strokes at the set of observers, so a
run of a supervisor is one as well (`State.relayed_after`): what is emitted are events in the order
in which they were published, none twice, and what is published about the health of observers is
what the strokes report.

The listener could end only when nobody can publish any more. As long as it reads it owns the
observers, and these can publish (`State.ringIsClosed_of_listening`); so a listener never ends.
-/

namespace PullConsumer.Supervisor

open Observer (Stroke Channel strikes bulletin emitted endsOf fresh)

/-! ### Small steps -/

namespace Broadcast

/-- The listener hands an event on and goes on with the next one. -/
def emit (b : Broadcast) (e : Event) (next : Nat) : Broadcast :=
  ({ b with
    listening := some next
    channels := (Observer.offerAll e 0 b.channels).channels }).publishAll
      (Observer.refusals e (Observer.offerAll e 0 b.channels).refused)

/-- The observer of a number, which has a channel, has its turn. -/
def observe (b : Broadcast) (k now : Nat) (c : Channel) : Broadcast :=
  ({ b with channels := b.channels.set k (c.work now).1 }).publishAll (c.work now).2

/-- **All that the listener and the observers do**, with the strokes that it means. -/
inductive Step (b : Broadcast) : List Stroke → Broadcast → Prop
  | emit {p next : Nat} {e : Event} (hlistening : b.listening = some p)
      (hread : b.ring.read p = (.item e, next)) : Step b [.emit e] (b.emit e next)
  /-- The listener finds nothing, or has lost something. -/
  | skip {p next : Nat} {answer : Event.Reading Event} (hlistening : b.listening = some p)
      (hread : b.ring.read p = (answer, next)) (h : ∀ e, answer ≠ .item e) :
      Step b [] { b with listening := some next }
  | observe {k now : Nat} {c : Channel} (hc : b.channels[k]? = some c) :
      Step b (c.strokes k now) (b.observe k now c)

/-- What becomes of a broadcast in several small steps. -/
inductive Goes (b : Broadcast) : List Stroke → Broadcast → Prop
  | refl : Goes b [] b
  | tail {strokes more : List Stroke} {b' b'' : Broadcast} (h : Goes b strokes b')
      (hstep : Step b' more b'') : Goes b (strokes ++ more) b''

namespace Goes

variable {a b c : Broadcast} {strokes more : List Stroke}

theorem single (h : Step a strokes b) : Goes a strokes b := .tail .refl h

theorem trans (h : Goes a strokes b) (h' : Goes b more c) : Goes a (strokes ++ more) c := by
  induction h' with
  | refl =>
    rw [List.append_nil]
    exact h
  | tail _ hstep ih =>
    rw [← List.append_assoc]
    exact ih.tail hstep

end Goes

end Broadcast

open Broadcast (Goes)

/-! ### What a run has relayed -/

/-- **The account of a broadcast** that several strokes have led to, at observers that were offered
nothing before. -/
structure Relayed (os : List Observer) (strokes : List Stroke) (b : Broadcast) : Prop where
  ring : b.ring.Holds b.events
  channels : b.channels = strikes (fresh os) strokes
  /-- What is published about the health of observers is what the strokes report, in the same
  order. -/
  health : b.events.filter (fun e ↦ isOfHealth e.kind) =
    (bulletin (fresh os) strokes).map (·.2)
  /-- The listener reads on, and what it has handed on are events in the order in which they were
  published. -/
  reading : ∃ p, b.listening = some p ∧ p ≤ b.events.length ∧
    (emitted strokes).Sublist (b.events.take p)
  /-- Observers treat events as they do. -/
  reacts : ∀ k o, os[k]? = some o → ∀ x ∈ endsOf k (fresh os) strokes, x.2 = (o.react x.1).panic

namespace Relayed

variable {os : List Observer} {strokes more : List Stroke} {b b' : Broadcast}

theorem length_channels (h : Relayed os strokes b) : b.channels.length = os.length := by
  rw [h.channels, Observer.length_strikes, fresh, List.length_map]

/-- The accounts of everyone who has a channel are settled. -/
theorem settles (h : Relayed os strokes b) {k : Nat} {c : Channel} (hc : b.channels[k]? = some c) :
    ∃ o, os[k]? = some o ∧ Observer.Settles o (Observer.offersTo k (fresh os) strokes)
      (endsOf k (fresh os) strokes) (Observer.reportsOn k (fresh os) strokes) c ∧
      (Observer.offersTo k (fresh os) strokes).map (·.1) = emitted strokes := by
  have hlt : k < os.length := by
    rw [← h.length_channels]
    exact (List.getElem?_eq_some_iff.1 hc).1
  obtain ⟨c', hc', hsettles⟩ := Observer.settles_strikes (List.getElem?_eq_getElem hlt) strokes
  rw [← h.channels, hc] at hc'
  cases hc'
  exact ⟨_, List.getElem?_eq_getElem hlt, hsettles⟩

theorem holds_publishAll {ring : Event.Ring Event} {events : List Event} (h : ring.Holds events)
    (listening : Option Nat) (channels : List Channel) (es : List Event) :
    ((⟨ring, listening, channels, events⟩ : Broadcast).publishAll es).ring.Holds
      (events ++ es) := by
  induction es generalizing ring events with
  | nil =>
    rw [List.append_nil]
    exact h
  | cons e rest ih =>
    have hrest := ih (h.send e)
    rw [List.append_assoc] at hrest
    exact hrest

/-- Reports of health are published after some strokes, and nothing else. -/
theorem of_reports (h : Relayed os strokes b) {next : Nat} {channels : List Channel}
    {es : List Event} (hchannels : channels = strikes (strikes (fresh os) strokes) more)
    (hes : es = (bulletin (strikes (fresh os) strokes) more).map (·.2))
    (hhealth : ∀ e ∈ es, isOfHealth e.kind = true) (hnext : next ≤ b.events.length)
    (hemitted : (emitted (strokes ++ more)).Sublist (b.events.take next))
    (hreacts : ∀ k o, os[k]? = some o → ∀ x ∈ endsOf k (strikes (fresh os) strokes) more,
      x.2 = (o.react x.1).panic) :
    Relayed os (strokes ++ more)
      (({ b with listening := some next, channels } : Broadcast).publishAll es) := by
  have hevents : (({ b with listening := some next, channels } : Broadcast).publishAll es).events =
      b.events ++ es := Broadcast.events_publishAll ..
  constructor
  · rw [hevents]
    exact holds_publishAll h.ring _ _ es
  · rw [Broadcast.channels_publishAll, Observer.strikes_append]
    exact hchannels
  · have hfilter : es.filter (fun e ↦ isOfHealth e.kind) = es :=
      List.filter_eq_self.2 fun e he ↦ hhealth e he
    rw [hevents, List.filter_append, hfilter, Observer.bulletin_append, List.map_append,
      h.health, hes]
  · refine ⟨next, Broadcast.listening_publishAll .., ?_, ?_⟩
    · rw [hevents, List.length_append]
      exact Nat.le_add_right_of_le hnext
    · rw [hevents, List.take_append_of_le_length hnext]
      exact hemitted
  · intro k o ho x hx
    rw [endsOf, Observer.gathered_append] at hx
    exact (List.mem_append.1 hx).elim (h.reacts k o ho x) (hreacts k o ho x)

/-- What others publish is not yet relayed. -/
theorem announces (h : Relayed os strokes b) (hannounces : Announces b b') :
    Relayed os strokes b' := by
  obtain ⟨es, hes, rfl⟩ := hannounces
  obtain ⟨p, hp, hle, hemitted⟩ := h.reading
  have hevents : (b.publishAll es).events = b.events ++ es := Broadcast.events_publishAll ..
  have hnone : es.filter (fun e ↦ isOfHealth e.kind) = [] :=
    List.filter_eq_nil_iff.2 fun e he ↦ by simp [hes e he]
  refine ⟨?_, (Broadcast.channels_publishAll ..).trans h.channels, ?_,
    ⟨p, (Broadcast.listening_publishAll ..).trans hp, ?_, ?_⟩, h.reacts⟩
  · rw [hevents]
    exact holds_publishAll h.ring _ _ es
  · rw [hevents, List.filter_append, hnone, List.append_nil]
    exact h.health
  · rw [hevents, List.length_append]
    exact Nat.le_add_right_of_le hle
  · rwa [hevents, List.take_append_of_le_length hle]

/-- **A small step keeps the account.** -/
theorem step (h : Relayed os strokes b) (hstep : Broadcast.Step b more b') :
    Relayed os (strokes ++ more) b' := by
  obtain ⟨p, hp, hle, hemitted⟩ := h.reading
  cases hstep with
  | @emit p' next e hlistening hread =>
    obtain rfl : p = p' := Option.some.inj (hp.symm.trans hlistening)
    obtain ⟨hnext, hget⟩ : next = p + 1 ∧ b.events[p]? = some e := by
      obtain ⟨-, -, hlost⟩ | ⟨e', he', hitem⟩ | ⟨-, hnone⟩ := h.ring.read_cases hle
      · rw [hread] at hlost
        exact absurd (congrArg Prod.fst hlost) (by simp)
      · rw [hread] at hitem
        cases hitem
        exact ⟨rfl, he'⟩
      · rw [hread] at hnone
        exact absurd (congrArg Prod.fst hnone) (by simp)
    subst hnext
    have hreports : Observer.refusals e (Observer.offerAll e 0 b.channels).refused =
        (bulletin (strikes (fresh os) strokes) [.emit e]).map (·.2) := by
      rw [← h.channels, ← Observer.reports_emit, bulletin, bulletin, List.append_nil]
    refine h.of_reports ?_ hreports (fun _ ↦ isOfHealth_refusals) ?_ ?_ ?_
    · rw [← h.channels]
      rfl
    · exact (List.getElem?_eq_some_iff.1 hget).1
    · rw [List.take_add_one, hget, Observer.emitted_append]
      exact hemitted.append_right _
    · intro k o _ x hx
      rw [endsOf, Observer.gathered, Observer.gathered, List.append_nil] at hx
      cases hget : (strikes (fresh os) strokes)[k]? <;>
        simp [hget, Stroke.seenBy, Channel.ends] at hx
  | @skip p' next answer hlistening hread hnone =>
    obtain rfl : p = p' := Option.some.inj (hp.symm.trans hlistening)
    obtain ⟨hpn, hnext⟩ : p ≤ next ∧ next ≤ b.events.length := by
      obtain ⟨hlt, hold, hlost⟩ | ⟨e', -, hitem⟩ | ⟨-, hempty⟩ := h.ring.read_cases hle
      · rw [hread] at hlost
        cases hlost
        exact ⟨Nat.le_of_lt hlt, hold⟩
      · rw [hread] at hitem
        exact absurd (congrArg Prod.fst hitem) (hnone e')
      · rw [hread] at hempty
        cases hempty
        exact ⟨Nat.le_refl _, hle⟩
    rw [List.append_nil]
    refine ⟨h.ring, h.channels, h.health, ⟨next, rfl, hnext, hemitted.trans ?_⟩, h.reacts⟩
    exact List.take_sublist_take_left hpn
  | @observe k now c hc =>
    rw [h.channels] at hc
    obtain ⟨hstrikes, hbulletin, hnothing⟩ := Observer.strikes_turn hc now
    have hobserve : b.observe k now c = (({ b with
        listening := some p
        channels := b.channels.set k (c.work now).1 } : Broadcast).publishAll (c.work now).2) := by
      rw [← hp]
      rfl
    rw [hobserve]
    refine h.of_reports ?_ hbulletin.symm (fun _ ↦ isOfHealth_work) hle ?_ ?_
    · rw [hstrikes, h.channels]
    · rw [Observer.emitted_append, hnothing, List.append_nil]
      exact hemitted
    · intro i o ho x hx
      obtain ⟨rfl, hreact⟩ := Observer.endsOf_turn hc now i x hx
      obtain ⟨c', hc', hsettles, -⟩ := Observer.settles_strikes ho strokes
      obtain rfl : c = c' := Option.some.inj (hc.symm.trans hc')
      rwa [hsettles.observer] at hreact

theorem goes (h : Relayed os strokes b) (hgoes : Goes b more b') :
    Relayed os (strokes ++ more) b' := by
  induction hgoes with
  | refl =>
    rw [List.append_nil]
    exact h
  | tail _ hstep ih =>
    rw [← List.append_assoc]
    exact ih.step hstep

end Relayed

/-! ### The moves of the listener and the observers -/

namespace State

variable {s : State} {m : Move}

/-- **Where the listener still reads, somebody can publish**: the set of observers that it owns. -/
theorem ringIsClosed_of_listening (h : s.listening.isSome = true) : s.ringIsClosed = false := by
  have hmem : Publisher.observers ∈ s.publishers := by
    refine List.mem_append_left _ (List.mem_append_right _ ?_)
    rw [if_pos h]
    exact List.mem_singleton_self _
  rw [ringIsClosed, List.isEmpty_eq_false_iff_exists_mem]
  exact ⟨_, hmem⟩

theorem broadcast_emit (s : State) (e : Event) (next : Nat) :
    ({ s with listening := some next }.emit e).broadcast = s.broadcast.emit e next := by
  have hqueued (ks : List Nat) (s : State) :
      (ks.foldl (fun s k ↦ s.notify (.queued k)) s).broadcast = s.broadcast := by
    induction ks generalizing s with
    | nil => rfl
    | cons k rest ih => exact ih _
  rw [emit, broadcast_publishAll, hqueued]
  rfl

/-- **The listener reads the ring in small steps.** -/
theorem goes_readRing (budget position : Nat) (s : State) (hs : s.listening = some position) :
    ∃ strokes, Goes s.broadcast strokes (readRing budget position s).broadcast := by
  have hlistening : s.broadcast.listening = some position := hs
  induction budget generalizing position s with
  | zero =>
    refine ⟨[], ?_⟩
    have hsame : (readRing 0 position s).broadcast = s.broadcast :=
      congrArg (fun listening ↦ { s.broadcast with listening }) hs.symm
    rw [hsame]
    exact .refl
  | succ budget ih =>
    have hring : s.broadcast.ring = s.ring := rfl
    rw [readRing]
    split
    · next e next hread =>
      have hnext : (s.broadcast.emit e next).listening = some next :=
        Broadcast.listening_publishAll ..
      rw [← broadcast_emit] at hnext
      obtain ⟨strokes, hgoes⟩ := ih next ({ s with listening := some next }.emit e) hnext hnext
      rw [broadcast_emit] at hgoes
      exact ⟨_, (Goes.single (.emit hlistening hread)).trans hgoes⟩
    · next lost next hread =>
      obtain ⟨strokes, hgoes⟩ := ih next { s with listening := some next } rfl rfl
      exact ⟨_, (Goes.single (.skip hlistening hread (by simp))).trans hgoes⟩
    · next next hread =>
      have hopen : State.ringIsClosed { s with listening := some next } = false :=
        ringIsClosed_of_listening rfl
      dsimp only
      rw [hopen]
      exact ⟨[], Goes.single (.skip hlistening hread (by simp))⟩

theorem goes_listenerTurn (s : State) :
    ∃ strokes, Goes s.broadcast strokes s.listenerTurn.broadcast := by
  rw [listenerTurn]
  cases hs : s.listening with
  | none =>
    have hnone : (s.forget .listener).listening = none := hs
    simp only [hnone]
    exact ⟨[], .refl⟩
  | some position =>
    have hsome : (s.forget .listener).listening = some position := hs
    simp only [hsome]
    exact goes_readRing _ _ (s.forget .listener) hsome

theorem broadcast_observerTurn {k : Nat} {c : Channel} (hc : s.channels[k]? = some c) :
    (s.observerTurn k).broadcast = s.broadcast.observe k s.now c := by
  have hchannels : (s.forget (.observer k)).channels = s.channels := rfl
  have hobserve : ({ s.forget (.observer k) with
      channels := s.channels.set k (c.work s.now).1 }.publishAll (c.work s.now).2).broadcast =
      s.broadcast.observe k s.now c := broadcast_publishAll ..
  rw [observerTurn]
  simp only [hchannels, hc]
  rw [← hobserve]
  dsimp only
  split <;> rfl

theorem observerTurn_of_none {k : Nat} (hc : s.channels[k]? = none) :
    (s.observerTurn k).broadcast = s.broadcast := by
  have hchannels : (s.forget (.observer k)).channels = s.channels := rfl
  rw [observerTurn]
  simp only [hchannels, hc]
  rfl

theorem goes_observerTurn (s : State) (k : Nat) :
    ∃ strokes, Goes s.broadcast strokes (s.observerTurn k).broadcast := by
  cases hc : s.channels[k]? with
  | none =>
    rw [observerTurn_of_none hc]
    exact ⟨[], .refl⟩
  | some c =>
    rw [broadcast_observerTurn hc]
    exact ⟨_, Goes.single (.observe hc)⟩

/-- **Every move of the listener or an observer is made of small steps.** -/
theorem goes_move (s : State) (hm : m.isOfWatcher = true) :
    ∃ strokes, Goes s.broadcast strokes (s.move m).broadcast := by
  cases m with
  | listen => exact goes_listenerTurn s
  | observe k => exact goes_observerTurn s k
  | _ => exact absurd hm (by simp [Move.isOfWatcher])

/-! ### Runs -/

/-- A supervisor that was just built has relayed nothing. -/
theorem relayed_of_build {p : Plan} (h : p.build = .ok s) :
    Relayed p.allObservers [] s.broadcast := by
  rw [Plan.build] at h
  split at h
  · exact absurd h (by simp)
  · exact absurd h (by simp)
  · split at h
    · exact absurd h (by simp)
    · cases h
      exact ⟨Event.Ring.holds_ofCapacity _, rfl, rfl,
        ⟨0, rfl, Nat.zero_le _, List.Sublist.refl _⟩, fun _ _ _ x hx ↦ absurd hx List.not_mem_nil⟩

/-- **What a run has relayed**: some strokes account for it. -/
theorem relayed_after {p : Plan} (h : p.build = .ok s) (moves : List Move) :
    ∃ strokes, Relayed p.allObservers strokes (s.after moves).broadcast := by
  induction moves using List.reverseRecOn with
  | nil => exact ⟨[], relayed_of_build h⟩
  | append_singleton moves m ih =>
    obtain ⟨strokes, hrelayed⟩ := ih
    rw [after_concat]
    cases hm : m.isOfWatcher with
    | false => exact ⟨strokes, hrelayed.announces ((s.after moves).announces_move hm)⟩
    | true =>
      obtain ⟨more, hgoes⟩ := (s.after moves).goes_move hm
      exact ⟨strokes ++ more, hrelayed.goes hgoes⟩

end State

end PullConsumer.Supervisor
