import PullConsumer.Event.LogLine
import PullConsumer.Supervisor.Handling
import PullConsumer.Supervisor.Stopping
import PullConsumer.Supervisor.Watching

/-!
# Supervisors

A supervisor is built from settings, subscriptions and observers. Building checks the settings, then
the subscriptions one after the other, and puts the observers and the listener to work; a set-up
that is refused has put nobody to work. An observer that writes the log belongs to every supervisor
and is added unless one of its name is there.

`turn` is what any task does when its turn has come. The order of turns is the scheduler's, but no
task relies on it.
-/

namespace PullConsumer.Supervisor

/-- What a supervisor is built from. -/
structure Plan where
  settings : Settings := {}
  subscriptions : List Subscription := []
  observers : List Observer := []
  broker : Broker := {}
  client : Client := {}
  clock : Clock := .exact
  timeOfDay : Int := 0
  metered : Bool := true

namespace Plan

/-- The observer that writes the log takes every event at once and never fails. -/
def logWriter : Observer where
  name := Event.LogLine.writer
  capacity := Observer.defaultCapacity
  react _ := {}

/-- The observers of a plan, with the writer of the log at the end unless one of its name is
there. -/
def allObservers (p : Plan) : List Observer :=
  if p.observers.any (·.name = Event.LogLine.writer) then p.observers
  else p.observers ++ [logWriter]

/-- The pools of subscriptions, each with as many slots as its subscription allows; the consumers
in `seen` are taken already. -/
def pools : (seen : List ConsumerId) → List Subscription → Except Refusal (List Slots)
  | _, [] => .ok []
  | seen, sub :: rest =>
    let c := sub.binding.toConsumerId
    if c ∈ seen then .error (.invalid (.duplicateSubscription c))
    else
      match Slots.create sub.maxConcurrency with
      | .error e => .error e
      | .ok pool =>
        match pools (c :: seen) rest with
        | .error e => .error e
        | .ok others => .ok (pool :: others)

/-- The supervisor of a plan, or the first fault of the plan. -/
def build (p : Plan) : Except Refusal State :=
  match p.settings.validate, p.settings.bindRetry with
  | .error e, _ => .error (.invalid e)
  | .ok (), .error e => .error (.invalid e)
  | .ok (), .ok bindRetry =>
    match pools [] p.subscriptions with
    | .error e => .error e
    | .ok slots =>
      let observers := p.allObservers
      let ring := Event.Ring.ofCapacity p.settings.ringCapacity
      .ok {
        setup := {
          settings := p.settings
          subscriptions := p.subscriptions
          bindRetry
          client := p.client
          clock := p.clock
          timeOfDay := p.timeOfDay
          metered := p.metered }
        scheduler := { ready := (List.range observers.length).map .observer ++ [.listener] }
        broker := p.broker
        slots
        ring
        listening := some ring.join
        channels := observers.map fun o => { observer := o } }

end Plan

namespace State

/-- The turn of a task. -/
def turn : Task → State → State
  | .puller n => pullerTurn n
  | .job n => jobTurn n
  | .listener => listenerTurn
  | .observer n => observerTurn n
  | .user => userTurn

instance : Tasked State Task Signal where
  scheduler := scheduler
  reschedule s scheduler := { s with scheduler }
  turn := turn

/-- The user of a supervisor lets it go. -/
def abandon (s : State) : State := { s with owned := false }.notify .posted

end State

end PullConsumer.Supervisor
