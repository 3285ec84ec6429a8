import PullConsumer.Proofs.Observer.Courses
import PullConsumer.Proofs.Supervisor.Relays

/-!
# Every event reaches every observer, or is accounted for

The accounts of observers (`Observer.Settles`) hold at any moment, whoever emits the events and in
whatever order things happen: at a single observer, at a set whose callers emit events themselves,
and at the observers of a supervisor, where the listener emits what it reads. A set that is shut
down has handed every event that found room to its observer when the shutdown is over.
-/

namespace PullConsumer

open Observer (Sight Stroke Channel Settles Accounted strikes bulletin emitted offersTo fresh)
open Supervisor (Plan State Move isOfHealth)
open Tasked (Happening)

namespace Observer.Desk

/-- **A set of observers at work**, after callers have emitted events, observers have had turns and
time has passed in any order. -/
structure FansOut (os : List Observer) (course : List (Happening Event Nat)) : Prop where
  /-- The strokes that the course makes account for the queues and for what is posted. -/
  accounted : Accounted os ((ofObservers os).strokes course)
    ((ofObservers os).after course).channels ((ofObservers os).after course).posted
  emitted : emitted ((ofObservers os).strokes course) = emissions course
  /-- Observers go on, after a panic as well: when nobody is ready and no alarm is set, everything
  is taken. -/
  goesOn : ((ofObservers os).after course).scheduler.ready = [] →
    ((ofObservers os).after course).scheduler.alarms = [] →
    ((ofObservers os).after course).isAtRest = true
  /-- A shutdown comes to its end, as a course on which nothing is emitted, and then every event
  that found room has been handed to its observer. -/
  shutdown : ∃ more, emissions more = [] ∧
    ((ofObservers os).after course).perform .shutdown =
      (.rested ((ofObservers os).after (course ++ more)).scheduler.now,
        (ofObservers os).after (course ++ more)) ∧
    ∀ (k : Nat) (o : Observer), os[k]? = some o →
      ∃ c, ((ofObservers os).after (course ++ more)).channels[k]? = some c ∧
        c.queue = [] ∧ c.taking = none ∧ c.handed = o.accepted
          (offersTo k (fresh os) ((ofObservers os).strokes (course ++ more)))

theorem fansOut (os : List Observer) (course : List (Happening Event Nat)) :
    FansOut os course := by
  have haccounted (course : List (Happening Event Nat)) : Accounted os
      ((ofObservers os).strokes course) ((ofObservers os).after course).channels
      ((ofObservers os).after course).posted :=
    .of_eq (channels_after _ course).1 ((channels_after _ course).2.1.trans (List.nil_append _))
  have hsound := sound_after os course
  obtain ⟨more, hmore, hperform, hrest⟩ :=
    perform_shutdown hsound (channels_after (ofObservers os) course).2.2.2
  rw [← after_append] at hperform hrest
  refine ⟨haccounted course, (channels_after _ course).2.2.1, isAtRest_of_idle hsound, more, hmore,
    hperform, fun k o ho ↦ ?_⟩
  obtain ⟨c, hc, hsettles, -⟩ := (haccounted (course ++ more)).settled k o ho
  have hempty : c.queue = [] ∧ c.taking = none := by
    have hall := List.all_eq_true.1 hrest c (List.mem_of_getElem? hc)
    simpa [Channel.isAtRest] using hall
  have hline := hsettles.line
  rw [hempty.1, List.append_nil] at hline
  exact ⟨c, hc, hempty.1, hempty.2, hline⟩

end Observer.Desk

/-- **Fan-out with an account of what is lost.**

* Whatever happens at one observer, in whatever order, its accounts are settled.
* So are those of every observer of a set, after any strokes.
* All that callers, turns and time make of a set are strokes, and a shutdown hands over everything
  that found room (`Observer.Desk.FansOut`).
* All that a run makes of the observers of a supervisor are strokes as well, which emit events in
  the order in which they were published; what the run publishes about the health of observers are
  the reports of these strokes. -/
theorem fan_out :
    (∀ (o : Observer) (xs : List Sight), Settles o
      (Channel.gather Channel.meets { observer := o } xs)
      (Channel.gather Channel.ends { observer := o } xs)
      (Channel.gather Channel.tells { observer := o } xs)
      (Channel.watch { observer := o } xs)) ∧
    (∀ (os : List Observer) (strokes : List Stroke), Accounted os strokes
      (strikes (fresh os) strokes) ((bulletin (fresh os) strokes).map (·.2))) ∧
    (∀ (os : List Observer) (course : List (Happening Event Nat)),
      Observer.Desk.FansOut os course) ∧
    ∀ (plan : Plan) (s : State) (moves : List Move), plan.build = .ok s →
      ∃ strokes, Accounted plan.allObservers strokes (s.after moves).channels
          ((s.after moves).events.filter fun e ↦ isOfHealth e.kind) ∧
        ∃ p, (s.after moves).listening = some p ∧
          (emitted strokes).Sublist ((s.after moves).events.take p) := by
  refine ⟨Settles.watch, fun os strokes ↦ .of_eq rfl rfl, Observer.Desk.fansOut, ?_⟩
  intro plan s moves hbuild
  obtain ⟨strokes, hrelayed⟩ := State.relayed_after hbuild moves
  obtain ⟨p, hp, -, hemitted⟩ := hrelayed.reading
  exact ⟨strokes, .of_eq hrelayed.channels hrelayed.health, p, hp, hemitted⟩

/-- A reluctant observer is busy with an event, another one waits, and a third one is refused. The
shutdown waits until it has panicked over the two. The listener of a small supervisor hands on what
the puller and the job have published. -/
theorem fan_out_reluctant : (∃ d d' : Observer.Desk,
    d = (Observer.Desk.ofObservers [.reluctant]).after [.act (.of .drained), .turn 0,
      .act (.of .drained), .act (.of .drained)] ∧
    d.posted = [.overflow "reluctant" "full"] ∧ d.perform .shutdown = (.rested 2, d') ∧
    d'.posted = [.overflow "reluctant" "full", .panicked "reluctant" "no",
      .panicked "reluctant" "no"] ∧
    ∃ c, d'.channels[0]? = some c ∧ c.handed = [.of .drained, .of .drained] ∧ c.queue = [] ∧
      c.taking = none) ∧
    ∃ (s : State) (strokes : List Stroke), Plan.lone.build = .ok s ∧
      (s.after (Move.handling ++ [.listen])).channels.map (·.queue.map (·.kind)) =
        [[.subscriptionStarting, .subscriptionBound, .handlerFailed, .messageNacked]] ∧
      Accounted Plan.lone.allObservers strokes (s.after (Move.handling ++ [.listen])).channels
        ((s.after (Move.handling ++ [.listen])).events.filter fun e ↦ isOfHealth e.kind) := by
  constructor
  · obtain ⟨d, hd, hposted, hposted', hnow, hhanded⟩ : ∃ d : Observer.Desk,
        d = (Observer.Desk.ofObservers [.reluctant]).after [.act (.of .drained), .turn 0,
          .act (.of .drained), .act (.of .drained)] ∧ d.posted = [.overflow "reluctant" "full"] ∧
        (d.perform .shutdown).2.posted = [.overflow "reluctant" "full",
          .panicked "reluctant" "no", .panicked "reluctant" "no"] ∧
        (d.perform .shutdown).2.scheduler.now = 2 ∧
        (d.perform .shutdown).2.channels[0]?.map Channel.handed =
          some [.of .drained, .of .drained] :=
      ⟨_, rfl, by decide +kernel, by decide +kernel, by decide +kernel, by decide +kernel⟩
    obtain ⟨more, -, hperform, hall⟩ := (fan_out.2.2.1 [.reluctant] [.act (.of .drained), .turn 0,
      .act (.of .drained), .act (.of .drained)]).shutdown
    obtain ⟨c, hc, hqueue, htaking, -⟩ := hall 0 .reluctant rfl
    rw [← hd] at hperform
    rw [hperform] at hposted' hnow hhanded
    dsimp only at hposted' hnow hhanded
    rw [hnow] at hperform
    rw [hc] at hhanded
    exact ⟨d, _, hd, hposted, hperform, hposted', c, hc, Option.some.inj hhanded, hqueue, htaking⟩
  · obtain ⟨s, hbuild, hqueue⟩ : ∃ s, Plan.lone.build = .ok s ∧
        (s.after (Move.handling ++ [.listen])).channels.map (·.queue.map (·.kind)) =
          [[.subscriptionStarting, .subscriptionBound, .handlerFailed, .messageNacked]] :=
      ⟨_, rfl, by decide +kernel⟩
    obtain ⟨strokes, haccounted, -⟩ := fan_out.2.2.2 _ s (Move.handling ++ [.listen]) hbuild
    exact ⟨s, strokes, hbuild, hqueue, haccounted⟩

end PullConsumer
