import PullConsumer.Proofs.Supervisor.Rest

/-!
# Reports that bring about reports

A report about the health of an observer is an event like any other and is offered to all observers.
That such a report was refused is reported only if it was the report of a panic; and a panic over
any report is reported again. So the reports are bounded by the number of observers, of other
events, and of panics over reports (`Relayed.health_le`). Where no observer panics over reports, the
first two alone bound them, and once everyone else has ceased the listener and the observers come to
rest. One observer that panics over everything is enough to keep them going for ever: each report
that it has panicked brings about the next one (`Ringing.rounds`).
-/

namespace PullConsumer.Supervisor

open Broadcast (Still)
open Observer (Stroke Channel bulletin reportsOn fresh)

/-! ### Counting what was published -/

/-- How often an observer has panicked over a report about the health of an observer. -/
def echoesAt (c : Channel) : Nat :=
  c.taken.countP fun x ↦ isOfHealth x.2.kind && (c.observer.react x.2).panic.isSome

namespace Broadcast

/-- How many reports about the health of observers have been published. -/
def health (b : Broadcast) : Nat := b.events.countP fun e ↦ isOfHealth e.kind

/-- How many other events have been published. -/
def news (b : Broadcast) : Nat := b.events.countP fun e ↦ !isOfHealth e.kind

/-- How often observers have panicked over reports about the health of observers. -/
def echoes (b : Broadcast) : Nat := (b.channels.map echoesAt).sum

theorem news_add_health (b : Broadcast) : b.news + b.health = b.events.length := by
  rw [Nat.add_comm]
  exact Observer.countP_add_countP_not _ _

theorem news_publishAll {b : Broadcast} {es : List Event}
    (hes : ∀ e ∈ es, isOfHealth e.kind = true) : (b.publishAll es).news = b.news := by
  have hnone : es.countP (fun e ↦ !isOfHealth e.kind) = 0 :=
    List.countP_eq_zero.2 fun e he ↦ by simp [hes e he]
  rw [news, events_publishAll, List.countP_append, hnone]
  rfl

/-- The listener and the observers publish nothing but such reports. -/
theorem Step.news {b b' : Broadcast} {strokes : List Stroke} (h : Step b strokes b') :
    b'.news = b.news := by
  cases h with
  | emit => exact news_publishAll fun _ ↦ isOfHealth_refusals
  | skip => rfl
  | observe => exact news_publishAll fun _ ↦ isOfHealth_work

theorem Goes.news {b b' : Broadcast} {strokes : List Stroke} (h : Goes b strokes b') :
    b'.news = b.news := by
  induction h with
  | refl => rfl
  | tail _ hstep ih => exact hstep.news.trans ih

end Broadcast

namespace Relayed

variable {os : List Observer} {strokes : List Stroke} {b : Broadcast}

/-- Of the events that are not reports of refusals, those about health are reports of panics. -/
theorem countP_events (h : Relayed os strokes b) : b.events.countP (!·.isOverflow) =
    b.news + ((bulletin (fresh os) strokes).map (·.2)).countP (!·.isOverflow) := by
  have hnews : (b.events.filter fun e ↦ !isOfHealth e.kind).countP (!·.isOverflow) = b.news := by
    rw [List.countP_filter]
    refine List.countP_congr fun e _ ↦ ?_
    cases hkind : e.kind <;> simp [Event.isOverflow, isOfHealth, hkind]
  rw [List.countP_eq_countP_filter_add _ _ (fun e ↦ isOfHealth e.kind), h.health, hnews,
    Nat.add_comm]

/-- An observer panics over events of other kinds, or over reports. -/
theorem countP_panics_le (h : Relayed os strokes b) {k : Nat} {c : Channel}
    (hc : b.channels[k]? = some c) :
    (reportsOn k (fresh os) strokes).countP (!·.isOverflow) ≤ b.news + echoesAt c := by
  obtain ⟨o, ho, hsettles, hoffers⟩ := h.settles hc
  have hhanded : (c.taken.map (·.2)).reverse.Sublist b.events := by
    have hsub := hsettles.handed_sublist
    rw [hoffers] at hsub
    exact (List.sublist_append_left ..).trans (hsub.trans h.emitted_sublist)
  have hothers : c.taken.countP (fun x ↦ !isOfHealth x.2.kind) ≤ b.news := by
    have hle : (c.taken.map (·.2)).reverse.countP (fun e ↦ !isOfHealth e.kind) ≤ b.news :=
      hhanded.countP_le
    rwa [List.countP_reverse, List.countP_map] at hle
  rw [hsettles.countP_panics (h.reacts k o ho),
    List.countP_eq_countP_filter_add _ _ (fun x ↦ isOfHealth x.2.kind), Nat.add_comm,
    List.countP_filter, List.countP_filter, ← hsettles.observer]
  refine Nat.add_le_add ((List.countP_mono_left fun x _ hx ↦ ?_).trans hothers) (Nat.le_of_eq ?_)
  · exact (Bool.and_eq_true_iff.1 hx).2
  · exact List.countP_congr fun x _ ↦ by rw [Bool.and_comm]

/-- **All reports about the health of observers**: of refusals and panics over events of other
kinds, and of panics over reports. -/
theorem health_le (h : Relayed os strokes b) : b.health ≤
    os.length * (os.length + 2) * b.news + (os.length + 1) * b.echoes := by
  generalize hreports : (bulletin (fresh os) strokes).map (·.2) = reports
  have hhealth : b.health = reports.countP (·.isOverflow) + reports.countP (!·.isOverflow) := by
    rw [Broadcast.health, List.countP_eq_length_filter, h.health, hreports]
    exact (Observer.countP_add_countP_not _ _).symm
  have hpanics : reports.countP (!·.isOverflow) ≤ os.length * b.news + b.echoes := by
    have hle := @Observer.countP_bulletin_le os strokes (!·.isOverflow)
      (fun c ↦ b.news + echoesAt c) fun k c hc ↦ h.countP_panics_le (h.channels ▸ hc)
    rwa [hreports, ← h.channels, List.sum_map_add, List.map_const', List.sum_replicate,
      h.length_channels, smul_eq_mul] at hle
  have hoverflows : reports.countP (·.isOverflow) ≤
      os.length * (b.news + reports.countP (!·.isOverflow)) := by
    have hle := @Observer.countP_bulletin_le os strokes (·.isOverflow)
      (fun _ ↦ b.events.countP (!·.isOverflow)) fun k c hc ↦ by
        obtain ⟨o, -, hsettles, hoffers⟩ := h.settles (h.channels ▸ hc)
        have hle := hsettles.countP_overflow_le
        rw [hoffers] at hle
        exact hle.trans h.emitted_sublist.countP_le
    rwa [hreports, ← h.channels, List.map_const', List.sum_replicate, h.length_channels,
      smul_eq_mul, h.countP_events, hreports] at hle
  calc b.health = reports.countP (·.isOverflow) + reports.countP (!·.isOverflow) := hhealth
    _ ≤ os.length * (b.news + reports.countP (!·.isOverflow)) +
        reports.countP (!·.isOverflow) := Nat.add_le_add_right hoverflows _
    _ = os.length * b.news + (os.length + 1) * reports.countP (!·.isOverflow) := by ring
    _ ≤ os.length * b.news + (os.length + 1) * (os.length * b.news + b.echoes) :=
      Nat.add_le_add_left (Nat.mul_le_mul_left _ hpanics) _
    _ = os.length * (os.length + 2) * b.news + (os.length + 1) * b.echoes := by ring

end Relayed

namespace State

variable {s t : State} {plan : Plan}

/-- When everyone but the listener and the observers has ceased there is no more news. -/
theorem news_after {more : List Move} (hmore : ∀ m ∈ more, m.isOfWatch = true) (s : State) :
    (s.after more).broadcast.news = s.broadcast.news := by
  induction more generalizing s with
  | nil => rfl
  | cons m rest ih =>
    rw [List.forall_mem_cons] at hmore
    have hmove : (s.move m).broadcast.news = s.broadcast.news := by
      cases hm : m.isOfWatcher with
      | true =>
        obtain ⟨strokes, hgoes⟩ := s.goes_move hm
        exact hgoes.news
      | false =>
        cases m with
        | pass => rfl
        | _ => exact absurd hmore.1 (by simpa [Move.isOfWatch] using hm)
    exact (ih hmore.2 (s.move m)).trans hmove

end State

/-! ### Where nobody panics over reports -/

/-- No observer panics over a report about the health of an observer. -/
def Plan.Calm (p : Plan) : Prop :=
  ∀ o ∈ p.allObservers, ∀ e, isOfHealth e.kind = true → (o.react e).panic = none

theorem Plan.Calm.echoes {p : Plan} (hcalm : p.Calm) {strokes : List Stroke} {b : Broadcast}
    (h : Relayed p.allObservers strokes b) : b.echoes = 0 := by
  refine List.sum_eq_zero fun n hn ↦ ?_
  obtain ⟨c, hmem, rfl⟩ := List.mem_map.1 hn
  obtain ⟨k, hc⟩ := List.mem_iff_getElem?.1 hmem
  obtain ⟨o, ho, hsettles, -⟩ := h.settles hc
  refine List.countP_eq_zero.2 fun x _ hx ↦ ?_
  obtain ⟨hhealth, hpanic⟩ := Bool.and_eq_true_iff.1 hx
  rw [hsettles.observer, hcalm o (List.mem_of_getElem? ho) x.2 hhealth] at hpanic
  exact absurd hpanic (by simp)

namespace State

variable {s t : State} {plan : Plan}

theorem progress_le_after (h : plan.build = .ok s) (moves : List Move) :
    (s.after moves).broadcast.progress ≤ (2 * plan.allObservers.length + 1) *
      ((s.after moves).broadcast.news + (s.after moves).broadcast.health) := by
  obtain ⟨strokes, hrelayed⟩ := relayed_after h moves
  rw [Broadcast.news_add_health]
  exact hrelayed.progress_le

theorem health_le_of_calm (h : plan.build = .ok s) (hcalm : plan.Calm) (moves : List Move) :
    (s.after moves).broadcast.health ≤ plan.allObservers.length *
      (plan.allObservers.length + 2) * (s.after moves).broadcast.news := by
  obtain ⟨strokes, hrelayed⟩ := relayed_after h moves
  have hle := hrelayed.health_le
  rwa [hcalm.echoes hrelayed, Nat.mul_zero, Nat.add_zero] at hle

/-- When everyone else has ceased, progress is limited by what was published so far. -/
theorem exists_atRest_of_calm (h : plan.build = .ok s) (hcalm : plan.Calm) (moves : List Move) :
    ∃ more : List Move, (∀ m ∈ more, m.isOfWatch = true) ∧
      (s.after (moves ++ more)).AtRest ∧
      (s.after (moves ++ more)).broadcast.news = (s.after moves).broadcast.news := by
  have hnews {more : List Move} (hmore : ∀ m ∈ more, m.isOfWatch = true) :
      (s.after (moves ++ more)).broadcast.news = (s.after moves).broadcast.news := by
    rw [after_append]
    exact news_after hmore _
  have hlimit (more : List Move) (hmore : ∀ m ∈ more, m.isOfWatch = true) :
      (s.after (moves ++ more)).broadcast.progress ≤ (2 * plan.allObservers.length + 1) *
        ((s.after moves).broadcast.news + plan.allObservers.length *
          (plan.allObservers.length + 2) * (s.after moves).broadcast.news) := by
    refine (progress_le_after h (moves ++ more)).trans (Nat.mul_le_mul_left _ ?_)
    rw [← hnews hmore]
    exact Nat.add_le_add_left (health_le_of_calm h hcalm (moves ++ more)) _
  obtain ⟨more, hmore, hrest⟩ := exists_atRest h moves hlimit
  exact ⟨more, hmore, hrest, hnews hmore⟩

/-- **Reports about the health of observers bring about others only through panics over them.**

* In whatever order the parties have moved, the number of reports is bounded by the number of
  observers, of other events, and of panics over reports.
* Every move makes progress, or leaves the listener and all observers as they are; progress is
  bounded by the number of events; and as long as something is left to read or to take, progress is
  made as soon as it is time for it.
* So where no observer panics over reports, the number of observers and of other events alone bound
  the number of reports; and when everyone but the listener and the observers has ceased, these come
  to rest. -/
theorem comes_to_rest (h : plan.build = .ok s) (moves : List Move) :
    (s.after moves).broadcast.health ≤
        plan.allObservers.length * (plan.allObservers.length + 2) * (s.after moves).broadcast.news +
          (plan.allObservers.length + 1) * (s.after moves).broadcast.echoes ∧
      (s.after moves).broadcast.progress ≤ (2 * plan.allObservers.length + 1) *
        ((s.after moves).broadcast.news + (s.after moves).broadcast.health) ∧
      (∀ m, Still (s.after moves).broadcast ((s.after moves).move m).broadcast ∨
        (s.after moves).broadcast.progress < ((s.after moves).move m).broadcast.progress) ∧
      (¬ (s.after moves).AtRest → ∃ (tick : Nat) (m : Move), m.isOfWatcher = true ∧
        (s.after moves).broadcast.progress <
          (((s.after moves).move (.pass { now := tick } 0 false)).move m).broadcast.progress) ∧
      (plan.Calm →
        (s.after moves).broadcast.health ≤ plan.allObservers.length *
          (plan.allObservers.length + 2) * (s.after moves).broadcast.news ∧
        ∃ more : List Move, (∀ m ∈ more, m.isOfWatch = true) ∧
          (s.after (moves ++ more)).AtRest ∧
          (s.after (moves ++ more)).broadcast.news = (s.after moves).broadcast.news) := by
  obtain ⟨strokes, hrelayed⟩ := relayed_after h moves
  exact ⟨hrelayed.health_le, progress_le_after h moves, still_or_progress_lt _,
    exists_progress h moves,
    fun hcalm ↦ ⟨health_le_of_calm h hcalm moves, exists_atRest_of_calm h hcalm moves⟩⟩

theorem calm_lone : Plan.lone.Calm := by
  have hall : Plan.lone.allObservers = [Plan.logWriter] := rfl
  intro o ho e _
  rw [hall, List.mem_singleton] at ho
  rw [ho]
  rfl

/-- The small supervisor has handled its message and is stopped, and nothing that it published is
read yet. -/
theorem comes_to_rest_lone : ∃ s : State, Plan.lone.build = .ok s ∧ Plan.lone.Calm ∧
    ¬ (s.after (Move.handling ++ Move.stopping)).AtRest ∧
    ∃ more : List Move, (∀ m ∈ more, m.isOfWatch = true) ∧
      (s.after (Move.handling ++ Move.stopping ++ more)).AtRest := by
  obtain ⟨s, hbuild, hunread⟩ : ∃ s, Plan.lone.build = .ok s ∧
      ¬ (s.after (Move.handling ++ Move.stopping)).HasReadAll :=
    ⟨_, rfl, by rw [HasReadAll]; decide +kernel⟩
  obtain ⟨-, -, -, -, hcalm⟩ := comes_to_rest hbuild (Move.handling ++ Move.stopping)
  obtain ⟨-, more, hmore, hrest, -⟩ := hcalm calm_lone
  exact ⟨s, hbuild, calm_lone, fun h ↦ hunread h.read, more, hmore, hrest⟩

end State

/-! ### An observer that panics over everything -/

/-- The small supervisor with an observer that panics over everything. -/
def Plan.jumpy : Plan := { Plan.lone with observers := [.jumpy] }

theorem Plan.allObservers_jumpy : Plan.jumpy.allObservers = [.jumpy, Plan.logWriter] := by
  rw [allObservers, if_neg (by decide +kernel)]
  rfl

/-- The listener reads on, and the two observers have their turns. -/
def Move.round : List Move := [.listen, .observe 0, .observe 1]

/-- An observer that is not busy and needs no time takes the only event in its queue. -/
theorem work_single {c : Channel} {e : Event} (now : Nat) (hidle : c.taking = none)
    (hqueue : c.queue = [e]) (hpause : (c.observer.react e).pause = 0) :
    c.work now = ({ c with queue := [], taken := (now, e) :: c.taken },
      Channel.complaint c.observer e) := by
  rw [Channel.work]
  simp only [hidle, hqueue]
  rw [Channel.takeAll, if_pos hpause]
  simp only [Channel.takeAll, List.append_nil, hidle]

/-- One event is unread, and a jumpy observer and the log writer have taken all the others. -/
structure Ringing (n : Nat) (b : Broadcast) : Prop where
  listening : b.listening = some n
  length : b.events.length = n + 1
  channels : ∃ xs ys, b.channels =
    [{ observer := .jumpy, taken := xs }, { observer := Plan.logWriter, taken := ys }]

namespace Ringing

variable {n : Nat} {t : State}

/-- The listener hands the event on. -/
theorem listen (h : Ringing n t.broadcast) (hring : t.ring.Holds t.events) :
    ∃ e xs ys, (t.move .listen).broadcast = ⟨t.ring, some (n + 1),
      [{ observer := .jumpy, queue := [e], taken := xs },
        { observer := Plan.logWriter, queue := [e], taken := ys }], t.events⟩ := by
  obtain ⟨xs, ys, hchannels⟩ := h.channels
  have hlistening : t.listening = some n := h.listening
  have hlength : t.events.length = n + 1 := h.length
  obtain ⟨e, hread⟩ : ∃ e, (t.forget .listener).ring.read n = (.item e, n + 1) := by
    obtain ⟨hlost, -⟩ | ⟨e, -, hread⟩ | ⟨heq, -⟩ := hring.read_cases (p := n) (by omega)
    · have hplaces := hring.places
      rw [hring.oldest] at hlost
      omega
    · exact ⟨e, hread⟩
    · omega
  have hemit : ({ t.forget .listener with listening := some (n + 1) }.emit e).broadcast =
      ⟨t.ring, some (n + 1), [{ observer := .jumpy, queue := [e], taken := xs },
        { observer := Plan.logWriter, queue := [e], taken := ys }], t.events⟩ := by
    have hforget : (t.forget .listener).broadcast = t.broadcast := rfl
    have hnone : Observer.refusals e [] = [] := by
      rw [Observer.refusals]
      split <;> rfl
    have hrefused : (Observer.offerAll e 0 t.broadcast.channels).refused = [] := by
      rw [hchannels]
      rfl
    rw [State.broadcast_emit, Broadcast.emit, hforget, hrefused, hnone, hchannels]
    rfl
  generalize hu : { t.forget .listener with listening := some (n + 1) }.emit e = u at hemit
  have hringu : u.ring = t.ring := congrArg Broadcast.ring hemit
  have hsent : u.ring.sent = n + 1 := by rw [hringu, hring.sent, hlength]
  have hall : u.HasReadAll := by
    rw [State.HasReadAll, hsent]
    exact congrArg Broadcast.listening hemit
  obtain ⟨budget, hturn⟩ := State.exists_listenerTurn hlistening
  refine ⟨e, xs, ys, ?_⟩
  have hmove : t.move .listen = u.listen .posted .listener := by
    show t.listenerTurn = _
    rw [hturn, State.readRing]
    simp only [hread, hu]
    rw [← hsent]
    exact State.readRing_of_hasReadAll hall (hringu ▸ hring) budget
  rw [hmove, ← hemit]
  rfl

/-- The jumpy observer takes the event and panics. -/
theorem observe_jumpy {ring : Event.Ring Event} {listening : Option Nat} {c : Channel}
    {events : List Event} {e : Event} {xs : List (Nat × Event)} (h : t.broadcast =
      ⟨ring, listening, [{ observer := .jumpy, queue := [e], taken := xs }, c], events⟩) :
    (t.move (.observe 0)).broadcast = (⟨ring, listening,
      [{ observer := .jumpy, taken := (t.now, e) :: xs }, c], events⟩ : Broadcast).publish
        (.panicked "jumpy" "boo") := by
  have hc : t.channels[0]? = some { observer := .jumpy, queue := [e], taken := xs } :=
    congrArg (·.channels[0]?) h
  have hobserve : (t.move (.observe 0)).broadcast = _ := State.broadcast_observerTurn hc
  rw [hobserve, Broadcast.observe, work_single t.now rfl rfl rfl, h]
  rfl

/-- The log writer takes the event. -/
theorem observe_logWriter {e : Event} {c : Channel} {ys : List (Nat × Event)}
    (h : t.broadcast.channels = [c, { observer := Plan.logWriter, queue := [e], taken := ys }]) :
    (t.move (.observe 1)).broadcast = { t.broadcast with
      channels := [c, { observer := Plan.logWriter, taken := (t.now, e) :: ys }] } := by
  have hc : t.channels[1]? = some { observer := Plan.logWriter, queue := [e], taken := ys } :=
    congrArg (·[1]?) h
  have hobserve : (t.move (.observe 1)).broadcast = _ := State.broadcast_observerTurn hc
  rw [hobserve, Broadcast.observe, work_single t.now rfl rfl rfl, h]
  rfl

/-- **In a round the one event is handed on, and brings about the next one.** -/
theorem round (h : Ringing n t.broadcast) (hring : t.ring.Holds t.events) :
    Ringing (n + 1) (t.after Move.round).broadcast := by
  have hlength : t.events.length = n + 1 := h.length
  obtain ⟨e, xs, ys, hlisten⟩ := h.listen hring
  have hpanic := observe_jumpy hlisten
  have hlog := observe_logWriter (congrArg Broadcast.channels hpanic)
  have hround : t.after Move.round = ((t.move .listen).move (.observe 0)).move (.observe 1) := rfl
  rw [hround, hlog, hpanic]
  refine ⟨rfl, ?_, _, _, rfl⟩
  show (t.events ++ [_]).length = n + 2
  rw [List.length_append, hlength]
  rfl

/-- **Round after round another panic is reported**, though nothing else is published. -/
theorem rounds {plan : Plan} {s : State} (hbuild : plan.build = .ok s) {moves : List Move}
    (h : Ringing 0 (s.after moves).broadcast) (n : Nat) :
    Ringing n (s.after (moves ++ (List.replicate n Move.round).flatten)).broadcast := by
  induction n with
  | zero =>
    rw [List.replicate_zero, List.flatten_nil, List.append_nil]
    exact h
  | succ n ih =>
    obtain ⟨strokes, hrelayed⟩ :=
      State.relayed_after hbuild (moves ++ (List.replicate n Move.round).flatten)
    have hnext := ih.round hrelayed.ring
    rwa [← State.after_append, List.append_assoc, ← List.flatten_concat,
      ← List.replicate_succ'] at hnext

end Ringing

namespace State

/-- The supervisor starts, and its puller reports that. -/
theorem ringing_jumpy : ∃ s : State, Plan.jumpy.build = .ok s ∧
    Ringing 0 (s.after [.start 0, .pull 0]).broadcast ∧
    (s.after [.start 0, .pull 0]).broadcast.news = 1 := by
  obtain ⟨s, hbuild, hlistening, hlength, hnews⟩ : ∃ s, Plan.jumpy.build = .ok s ∧
      (s.after [.start 0, .pull 0]).listening = some 0 ∧
      (s.after [.start 0, .pull 0]).events.length = 1 ∧
      (s.after [.start 0, .pull 0]).broadcast.news = 1 :=
    ⟨_, rfl, by decide +kernel, by decide +kernel, by decide +kernel⟩
  have hstart : Still s.broadcast (s.after [.start 0, .pull 0]).broadcast :=
    (Still.of_announces (s.announces_move rfl)).trans
      (.of_announces ((s.move (.start 0)).announces_move (m := .pull 0) rfl))
  have hchannels : s.broadcast.channels = _ := (relayed_of_build hbuild).channels
  rw [Plan.allObservers_jumpy] at hchannels
  exact ⟨s, hbuild, ⟨hlistening, hlength, [], [], hstart.channels.trans hchannels⟩, hnews⟩

/-- **The number of observers and of other events does not bound the number of reports** about the
health of observers. -/
theorem not_bounded : ¬ ∃ bound : Nat → Nat → Nat, ∀ (plan : Plan) (s : State) (moves : List Move),
    plan.build = .ok s → (s.after moves).broadcast.health ≤
      bound (s.after moves).broadcast.news plan.allObservers.length := by
  rintro ⟨bound, hbound⟩
  obtain ⟨s, hbuild, hringing, hnews⟩ := ringing_jumpy
  generalize hrounds : (List.replicate (bound 1 2 + 1) Move.round).flatten = rounds
  have hend := hringing.rounds hbuild (bound 1 2 + 1)
  rw [hrounds] at hend
  have hwatch : ∀ m ∈ rounds, m.isOfWatch = true := by
    intro m hm
    rw [← hrounds] at hm
    obtain ⟨moves, hmoves, hm⟩ := List.mem_flatten.1 hm
    rw [List.eq_of_mem_replicate hmoves] at hm
    exact (by decide : ∀ m ∈ Move.round, m.isOfWatch = true) m hm
  have hsame : (s.after ([.start 0, .pull 0] ++ rounds)).broadcast.news = 1 := by
    rw [after_append, news_after hwatch, hnews]
  have hle := hbound Plan.jumpy s ([.start 0, .pull 0] ++ rounds) hbuild
  have hall := (s.after ([.start 0, .pull 0] ++ rounds)).broadcast.news_add_health
  rw [hend.length, hsame] at hall
  rw [hsame, Plan.allObservers_jumpy] at hle
  have htwo : [Observer.jumpy, Plan.logWriter].length = 2 := rfl
  rw [htwo] at hle
  omega

end State

end PullConsumer.Supervisor
