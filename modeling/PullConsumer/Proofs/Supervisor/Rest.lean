import Mathlib.Algebra.Group.Action.Defs
import Mathlib.Algebra.Order.BigOperators.Group.List
import Mathlib.Tactic.Ring
import PullConsumer.Proofs.Supervisor.Publishers

/-!
# Coming to rest

The listener reads an event; an observer takes an event out of its queue; an observer is through
with an event. Their progress is how often they have done so. It is never undone, and whatever the
listener or an observer does in its turn, it makes progress or leaves everything as it is
(`State.still_or_progress_lt`). An event is good for one step of the listener and two of each
observer, so the progress is bounded by the number of events (`Relayed.progress_le`). And where an
event is unread or an observer has not taken everything, progress is made as soon as it is time for
it (`State.exists_progress`). So the listener and the observers come to rest, unless events go on
being published.
-/

namespace PullConsumer

namespace Observer.Channel

variable {c : Channel} {now : Nat}

/-- How often the observer has taken an event out of its queue, and how often it was through with
one. -/
def progress (c : Channel) : Nat := 2 * c.taken.length + c.taking.toList.length

theorem progress_receive (c : Channel) (e : Event) : (c.receive e).progress = c.progress := by
  rw [receive]
  cases hoffer : c.offer e with
  | ok c' =>
    obtain rfl := eq_of_offer hoffer
    rfl
  | error why => rfl

theorem progress_takeAll (hidle : c.taking = none) (es : List Event) :
    c.progress ≤ (c.takeAll now es).1.progress ∧
      (es ≠ [] → c.progress < (c.takeAll now es).1.progress) := by
  induction es generalizing c with
  | nil => exact ⟨Nat.le_refl _, fun h ↦ absurd rfl h⟩
  | cons e rest ih =>
    have hlt : c.progress < (c.takeAll now (e :: rest)).1.progress := by
      rw [takeAll]
      split
      · refine Nat.lt_of_lt_of_le ?_ (ih (c := { c with taken := (now, e) :: c.taken }) hidle).1
        show 2 * c.taken.length + c.taking.toList.length <
          2 * (c.taken.length + 1) + c.taking.toList.length
        omega
      · show 2 * c.taken.length + c.taking.toList.length < 2 * c.taken.length + 1
        rw [hidle]
        exact Nat.lt_succ_self _
    exact ⟨Nat.le_of_lt hlt, fun _ ↦ hlt⟩

/-- **A turn makes progress**, unless there is nothing to take or it comes too early. -/
theorem progress_work (now : Nat) (c : Channel) :
    (c.isAtRest = true ∨ ∃ t, c.taking = some t ∧ now < t.due) ∧ c.work now = (c, []) ∨
      c.progress < (c.work now).1.progress := by
  rw [work]
  cases htaking : c.taking with
  | none =>
    cases hqueue : c.queue with
    | nil =>
      refine Or.inl ⟨Or.inl ?_, ?_⟩
      · rw [isAtRest, hqueue, htaking]
        rfl
      · rw [takeAll, ← hqueue]
    | cons e rest =>
      exact Or.inr ((progress_takeAll htaking (e :: rest)).2 (List.cons_ne_nil e rest))
  | some t =>
    dsimp only
    split
    · next hearly => exact Or.inl ⟨Or.inr ⟨t, rfl, hearly⟩, rfl⟩
    · refine Or.inr (Nat.lt_of_lt_of_le ?_ (progress_takeAll rfl c.queue).1)
      show 2 * c.taken.length + c.taking.toList.length < 2 * (c.taken.length + 1) + 0
      rw [htaking]
      show 2 * c.taken.length + 1 < _
      omega

/-- An observer is handed every event that it takes. -/
theorem progress_le (c : Channel) : c.progress ≤ 2 * c.handed.length := by
  have htaking : (c.taking.map (·.event)).toList.length = c.taking.toList.length := by
    cases c.taking <;> rfl
  rw [progress, handed, List.length_append, List.length_reverse, List.length_map, htaking]
  omega

end Observer.Channel

namespace Supervisor

open Observer (Stroke Channel emitted)

/-! ### Progress -/

namespace Broadcast

variable {a b b' : Broadcast} {strokes : List Stroke}

/-- How many events the listener has got past, and the progress of all observers. -/
def progress (b : Broadcast) : Nat := b.listening.getD 0 + (b.channels.map Channel.progress).sum

/-- Neither the listener nor an observer has moved. -/
structure Still (b b' : Broadcast) : Prop where
  listening : b'.listening = b.listening
  channels : b'.channels = b.channels

namespace Still

theorem progress (h : Still b b') : b'.progress = b.progress := by
  rw [Broadcast.progress, Broadcast.progress, h.listening, h.channels]

theorem trans (h : Still a b) (h' : Still b b') : Still a b' :=
  ⟨h'.listening.trans h.listening, h'.channels.trans h.channels⟩

theorem publishAll (b : Broadcast) (es : List Event) : Still b (b.publishAll es) :=
  ⟨listening_publishAll .., channels_publishAll ..⟩

theorem of_announces (h : Announces b b') : Still b b' := by
  obtain ⟨es, -, rfl⟩ := h
  exact publishAll b es

end Still

theorem progress_emit {p next : Nat} {e : Event} (hlistening : b.listening = some p)
    (hlt : p < next) : b.progress < (b.emit e next).progress := by
  have hchannels : ((Observer.offerAll e 0 b.channels).channels.map Channel.progress) =
      b.channels.map Channel.progress := by
    rw [Observer.channels_offerAll, List.map_map]
    exact List.map_congr_left fun c _ ↦ c.progress_receive e
  rw [emit, (Still.publishAll ..).progress, progress, progress, hlistening]
  dsimp only
  rw [hchannels]
  exact Nat.add_lt_add_right hlt _

theorem progress_observe {k now : Nat} {c : Channel} (hc : b.channels[k]? = some c)
    (hlt : c.progress < (c.work now).1.progress) : b.progress < (b.observe k now c).progress := by
  have hsum := Observer.sum_map_set Channel.progress hc (c.work now).1
  rw [observe, (Still.publishAll ..).progress, progress, progress]
  dsimp only
  omega

/-- **A small step makes progress** or leaves everything as it is. -/
theorem Step.still_or_progress_lt (h : Step b strokes b') :
    Still b b' ∨ b.progress < b'.progress := by
  cases h with
  | @emit p next e hlistening hread =>
    obtain hlt | ⟨hempty, -⟩ := Event.Ring.lt_of_read hread
    · exact Or.inr (progress_emit hlistening hlt)
    · exact absurd hempty (by simp)
  | @skip p next answer hlistening hread hnone =>
    obtain hlt | ⟨-, rfl⟩ := Event.Ring.lt_of_read hread
    · refine Or.inr ?_
      rw [progress, progress, hlistening]
      exact Nat.add_lt_add_right hlt _
    · exact Or.inl ⟨hlistening.symm, rfl⟩
  | @observe k now c hc =>
    obtain ⟨-, hsame⟩ | hlt := c.progress_work now
    · have hset : b.channels.set k c = b.channels := by
        obtain ⟨hk, rfl⟩ := List.getElem?_eq_some_iff.1 hc
        exact List.set_getElem_self hk
      rw [Broadcast.observe, hsame]
      exact Or.inl ⟨rfl, hset⟩
    · exact Or.inr (progress_observe hc hlt)

theorem Goes.still_or_progress_lt (h : Goes b strokes b') :
    Still b b' ∨ b.progress < b'.progress := by
  induction h with
  | refl => exact Or.inl ⟨rfl, rfl⟩
  | tail _ hstep ih =>
    obtain hstill | hlt := ih
    · obtain hstill' | hlt' := hstep.still_or_progress_lt
      · exact Or.inl (hstill.trans hstill')
      · exact Or.inr (hstill.progress ▸ hlt')
    · obtain hstill' | hlt' := hstep.still_or_progress_lt
      · exact Or.inr (hstill'.progress ▸ hlt)
      · exact Or.inr (Nat.lt_trans hlt hlt')

theorem Goes.progress_le (h : Goes b strokes b') : b.progress ≤ b'.progress := by
  obtain hstill | hlt := h.still_or_progress_lt
  · exact Nat.le_of_eq hstill.progress.symm
  · exact Nat.le_of_lt hlt

end Broadcast

open Broadcast (Still)

namespace Relayed

variable {os : List Observer} {strokes : List Stroke} {b : Broadcast}

/-- What was emitted are events that were published, none of them twice. -/
theorem emitted_sublist (h : Relayed os strokes b) : (emitted strokes).Sublist b.events := by
  obtain ⟨p, -, -, hemitted⟩ := h.reading
  exact hemitted.trans (List.take_sublist p b.events)

/-- **An event is good for so much progress, and no more.** -/
theorem progress_le (h : Relayed os strokes b) :
    b.progress ≤ (2 * os.length + 1) * b.events.length := by
  obtain ⟨p, hp, hle, -⟩ := h.reading
  have hsum : (b.channels.map Channel.progress).sum ≤ os.length * (2 * b.events.length) := by
    have hall : ∀ n ∈ b.channels.map Channel.progress, n ≤ 2 * b.events.length := by
      intro n hn
      obtain ⟨c, hmem, rfl⟩ := List.mem_map.1 hn
      obtain ⟨k, hc⟩ := List.mem_iff_getElem?.1 hmem
      obtain ⟨o, -, hsettles, hoffers⟩ := h.settles hc
      have hhanded := hsettles.handed_sublist
      rw [hoffers] at hhanded
      exact c.progress_le.trans
        (Nat.mul_le_mul_left 2 (hhanded.trans h.emitted_sublist).length_le)
    have hsum := List.sum_le_card_nsmul _ _ hall
    rwa [List.length_map, h.length_channels, smul_eq_mul] at hsum
  have hread : b.listening.getD 0 ≤ b.events.length := by
    rw [hp]
    exact hle
  calc b.progress = b.listening.getD 0 + (b.channels.map Channel.progress).sum := rfl
    _ ≤ b.events.length + os.length * (2 * b.events.length) := Nat.add_le_add hread hsum
    _ = (2 * os.length + 1) * b.events.length := by ring

end Relayed

/-! ### Who goes on -/

/-- The moves that are made when everyone but the listener and the observers has ceased. -/
def Move.isOfWatch : Move → Bool
  | pass .. => true
  | m => m.isOfWatcher

namespace State

variable {s t : State} {plan : Plan}

/-- **A move makes progress** or leaves the listener and all observers as they are. -/
theorem still_or_progress_lt (s : State) (m : Move) :
    Still s.broadcast (s.move m).broadcast ∨
      s.broadcast.progress < (s.move m).broadcast.progress := by
  cases hm : m.isOfWatcher with
  | false => exact Or.inl (.of_announces (s.announces_move hm))
  | true =>
    obtain ⟨strokes, hgoes⟩ := s.goes_move hm
    exact hgoes.still_or_progress_lt

/-- Nothing is left to read, and nothing to take. -/
structure AtRest (t : State) : Prop where
  read : t.HasReadAll
  taken : ∀ c ∈ t.channels, c.isAtRest = true

/-- Where something is left to read, the listener reads it in its next turn. -/
theorem progress_listenerTurn {p : Nat} (ht : t.listening = some p) {events : List Event}
    (hring : t.ring.Holds events) (hp : p < t.ring.sent) :
    t.broadcast.progress < t.listenerTurn.broadcast.progress := by
  obtain ⟨budget, hturn⟩ := exists_listenerTurn ht
  have hlistening : t.broadcast.listening = some p := ht
  have hlength : p < events.length := hring.sent ▸ hp
  obtain ⟨hlt, -, hread⟩ | ⟨e, -, hread⟩ | ⟨heq, -⟩ := hring.read_cases (Nat.le_of_lt hlength)
  · have hread' : (t.forget .listener).ring.read p = (.lagged (t.ring.oldest - p), t.ring.oldest) :=
      hread
    obtain ⟨strokes, hgoes⟩ := goes_readRing (budget + 1) t.ring.oldest
      { t.forget .listener with listening := some t.ring.oldest } rfl
    rw [hturn, readRing]
    simp only [hread']
    refine Nat.lt_of_lt_of_le ?_ hgoes.progress_le
    rw [Broadcast.progress, hlistening]
    exact Nat.add_lt_add_right hlt _
  · have hread' : (t.forget .listener).ring.read p = (.item e, p + 1) := hread
    have hemit := broadcast_emit (t.forget .listener) e (p + 1)
    obtain ⟨strokes, hgoes⟩ := goes_readRing (budget + 1) (p + 1)
      ({ t.forget .listener with listening := some (p + 1) }.emit e)
      ((congrArg Broadcast.listening hemit).trans (Broadcast.listening_publishAll ..))
    rw [hturn, readRing]
    simp only [hread']
    refine Nat.lt_of_lt_of_le ?_ hgoes.progress_le
    rw [hemit]
    exact Broadcast.progress_emit (b := t.broadcast) hlistening (Nat.lt_succ_self p)
  · exact absurd heq (Nat.ne_of_lt hlength)

/-- **Where something is left to do, progress is made** as soon as it is time for it. -/
theorem exists_progress (h : plan.build = .ok s) (moves : List Move)
    (hrest : ¬ (s.after moves).AtRest) :
    ∃ (tick : Nat) (m : Move), m.isOfWatcher = true ∧ (s.after moves).broadcast.progress <
      (((s.after moves).move (.pass { now := tick } 0 false)).move m).broadcast.progress := by
  obtain ⟨strokes, hrelayed⟩ := relayed_after h moves
  obtain ⟨p, hp, hle, -⟩ := hrelayed.reading
  have hlistening : (s.after moves).listening = some p := hp
  by_cases hread : (s.after moves).HasReadAll
  · obtain ⟨c, hc, hbusy⟩ : ∃ c ∈ (s.after moves).channels, c.isAtRest = false := by
      by_contra hnone
      refine hrest ⟨hread, fun c hc ↦ ?_⟩
      by_contra hbusy
      exact hnone ⟨c, hc, Bool.eq_false_iff.2 hbusy⟩
    obtain ⟨k, hk⟩ := List.mem_iff_getElem?.1 hc
    refine ⟨(c.taking.map (·.due)).getD 0, .observe k, rfl, ?_⟩
    generalize htick : (c.taking.map (·.due)).getD 0 = tick
    have hobserve := broadcast_observerTurn
      (s := (s.after moves).move (.pass { now := tick } 0 false)) hk
    have hmove : ((s.after moves).move (.pass { now := tick } 0 false)).move (.observe k) =
        ((s.after moves).move (.pass { now := tick } 0 false)).observerTurn k := rfl
    rw [hmove, hobserve]
    refine Broadcast.progress_observe (b := (s.after moves).broadcast) hk ?_
    obtain ⟨hnothing | ⟨t, htaking, hearly⟩, -⟩ | hlt := c.progress_work
      ((s.after moves).move (.pass { now := tick } 0 false)).now
    · rw [hbusy] at hnothing
      exact absurd hnothing (by simp)
    · rw [htaking] at htick
      have hdue : t.due ≤ ((s.after moves).move (.pass { now := tick } 0 false)).now := by
        rw [← htick]
        exact Nat.le_max_right _ _
      exact absurd hearly (Nat.not_lt.2 hdue)
    · exact hlt
  · refine ⟨0, .listen, rfl, ?_⟩
    have hsent : (s.after moves).ring.sent = (s.after moves).events.length := hrelayed.ring.sent
    have hlt : p < (s.after moves).ring.sent := by
      rw [hsent]
      refine Nat.lt_of_le_of_ne hle fun heq ↦ hread ?_
      rw [HasReadAll, hlistening, hsent, heq]
    exact progress_listenerTurn (t := (s.after moves).move (.pass { now := 0 } 0 false)) hlistening
      hrelayed.ring hlt

/-- **The listener and the observers come to rest when everyone else has ceased**, if there is a
limit to what they do. -/
theorem exists_atRest (h : plan.build = .ok s) (moves : List Move) {limit : Nat}
    (hlimit : ∀ more : List Move, (∀ m ∈ more, m.isOfWatch = true) →
      (s.after (moves ++ more)).broadcast.progress ≤ limit) :
    ∃ more : List Move, (∀ m ∈ more, m.isOfWatch = true) ∧ (s.after (moves ++ more)).AtRest := by
  generalize hleft : limit - (s.after moves).broadcast.progress = left
  induction left using Nat.strong_induction_on generalizing moves with
  | _ left ih =>
    by_cases hrest : (s.after moves).AtRest
    · refine ⟨[], fun _ hm ↦ absurd hm List.not_mem_nil, ?_⟩
      rwa [List.append_nil]
    · obtain ⟨tick, m, hm, hprogress⟩ := exists_progress h moves hrest
      have hnext : ∀ x ∈ [Move.pass { now := tick } 0 false, m], x.isOfWatch = true := by
        have hwatch : m.isOfWatch = true := by
          cases m <;> first | exact hm | rfl
        intro x hx
        obtain rfl | hx := List.mem_cons.1 hx
        · rfl
        · exact List.mem_singleton.1 hx ▸ hwatch
      have hafter : s.after (moves ++ [.pass { now := tick } 0 false, m]) =
          ((s.after moves).move (.pass { now := tick } 0 false)).move m := List.foldl_append
      have hle := hlimit _ hnext
      rw [hafter] at hle
      obtain ⟨more, hmore, hdone⟩ := ih (limit - (s.after
          (moves ++ [.pass { now := tick } 0 false, m])).broadcast.progress)
        (by rw [hafter]; omega) (moves ++ [.pass { now := tick } 0 false, m])
        (fun more hmore ↦ by
          rw [List.append_assoc]
          exact hlimit _ fun x hx ↦ (List.mem_append.1 hx).elim (hnext x) (hmore x)) rfl
      rw [List.append_assoc] at hdone
      exact ⟨_, fun x hx ↦ (List.mem_append.1 hx).elim (hnext x) (hmore x), hdone⟩

end State

end Supervisor

end PullConsumer
