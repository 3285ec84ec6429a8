import PullConsumer.Observer
import PullConsumer.Scheduler

/-!
# Observers at work

A set of observers, each with a task that takes the events of its queue. What the observers and
their queues report goes to a list of posted events; nothing is fed back from there.
-/

namespace PullConsumer.Observer

/-- The signals of a set of observers: something has come into the queue of one of them. -/
inductive Signal where
  | queued (observer : Nat)
  deriving DecidableEq, Inhabited

/-- A set of observers, and the events reported about them, in order. A set that is dead has no
tasks any more. -/
structure Desk where
  channels : List Channel
  posted : List Event := []
  dead : Bool := false
  scheduler : Scheduler Nat Signal := {}
  deriving Inhabited

namespace Desk

/-- A set in which every observer is about to look into its queue. -/
def ofObservers (os : List Observer) : Desk where
  channels := os.map fun o => { observer := o }
  scheduler := { ready := List.range os.length }

/-- The turn of an observer. It then waits for its queue, or until it has taken an event. -/
def turn (number : Nat) (d : Desk) : Desk :=
  let scheduler := d.scheduler.forget number
  match d.channels[number]? with
  | none => { d with scheduler }
  | some c =>
    let (c, reports) := c.work scheduler.now
    { d with
      channels := d.channels.set number c
      posted := d.posted ++ reports
      scheduler :=
        match c.taking with
        | some t => scheduler.arm number 0 t.due
        | none => scheduler.listen (.queued number) number }

instance : Tasked Desk Nat Signal where
  scheduler := scheduler
  reschedule d s := { d with scheduler := s }
  turn := turn

/-- Offers an event to every observer and posts the refusals. -/
def emit (d : Desk) (e : Event) : Desk :=
  let o := offerAll e 0 d.channels
  { d with
    channels := o.channels
    posted := d.posted ++ refusals e o.refused
    scheduler := o.accepted.foldl (fun s k => s.notify (.queued k)) d.scheduler }

/-- Ends all observers where they are; their queues are closed. -/
def kill (d : Desk) : Desk :=
  { d with
    channels := d.channels.map fun c => { c with queue := [], taking := none, closed := true }
    dead := true
    scheduler := { now := d.scheduler.now } }

/-- Whether every observer has taken everything it was given. -/
def isAtRest (d : Desk) : Bool := d.channels.all Channel.isAtRest

/-- How many turns and moves of the clock it takes at most until every observer has taken
everything: what an alarm rings for is a turn, and each event that waits may need an alarm. -/
def workload (d : Desk) : Nat :=
  d.scheduler.ready.length + 2 * d.scheduler.alarms.length +
    3 * (d.channels.flatMap (·.queue)).length

/-- A step of the callers. -/
inductive Request where
  | emit (event : Event) (times : Nat)
  | settle
  | advance (ticks : Nat)
  | size
  | kill
  | shutdown

/-- What a caller is told. -/
inductive Reply where
  | none
  | size (n : Nat)
  | rested (tick : Nat)
  | dead

/-- Offers an event several times; nobody takes anything in between. -/
def emitTimes (d : Desk) (e : Event) : Nat → Desk
  | 0 => d
  | n + 1 => (d.emit e).emitTimes e n

/-- Carries out a step. -/
def perform (d : Desk) : Request → Reply × Desk
  | .emit e times => (.none, d.emitTimes e times)
  | .settle => (.none, Tasked.settle Tasked.patience d)
  | .advance ticks => (.none, Tasked.runTo (d.scheduler.now + ticks) Tasked.patience d)
  | .size => (.size d.channels.length, d)
  | .kill => (.none, d.kill)
  | .shutdown =>
    if d.dead then (.dead, d)
    else
      let d := Tasked.runUntil isAtRest d.workload d
      (.rested d.scheduler.now, d)

/-- What a step left behind: the reply, the events posted, and for each observer the events taken
since the step before. -/
structure Report where
  reply : Reply
  posted : List Event
  taken : List (List Event)

/-- Carries out a step and takes away what it left behind. -/
def serve (d : Desk) (r : Request) : Report × Desk :=
  let (reply, d) := d.perform r
  ({ reply, posted := d.posted, taken := d.channels.map fun c => (c.taken.map (·.2)).reverse },
    { d with posted := [], channels := d.channels.map fun c => { c with taken := [] } })

/-- Carries out steps one after the other. -/
def serveAll (d : Desk) : List Request → List Report
  | [] => []
  | r :: rest => let (report, d) := d.serve r; report :: serveAll d rest

end Desk

end PullConsumer.Observer
