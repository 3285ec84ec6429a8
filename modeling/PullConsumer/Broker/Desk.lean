import PullConsumer.Broker.Fetch
import PullConsumer.Scheduler

/-!
# A broker and those who fetch from it

Any number of fetches are under way at once, each as a task of its own. Whatever puts a delivery
into a queue tells all of them; those who find nothing for themselves wait on.

A fetch listens before it looks and looks before it waits, and nothing comes between its looking
and its waiting, so no arrival is missed.
-/

namespace PullConsumer.Broker

/-- The only signal of a broker: a delivery may have come into some queue. -/
inductive Signal where
  | arrival
  deriving DecidableEq, Inhabited

/-- A fetch as a task: not begun, under way, or finished, with the tick at which it was. -/
inductive Errand where
  | fresh (consumer : ConsumerId) (timeout : Duration)
  | waiting (fetch : Fetch)
  | finished (tick : Nat) (answer : Except BrokerError Delivery)
  | crashed (cause : Crash)

/-- A broker and the fetches begun, by their numbers. -/
structure Desk where
  broker : Broker
  errands : List Errand := []
  /-- The fetches in the background, with the names that their answers are told under. -/
  aside : List (Nat × String) := []
  /-- The answers of fetches in the background that are not told yet, one for each name. -/
  news : List (String × Nat × Except BrokerError Delivery) := []
  scheduler : Scheduler Nat Signal := {}

namespace Desk

/-- Puts a fetch where the last look left it. -/
def put (d : Desk) (number : Nat) (e : Errand) : Desk :=
  { d with errands := d.errands.set number e }

/-- Ends a fetch with its answer. A fetch in the background makes it known under its name, in place
of an answer under that name that was not told yet. -/
def finish (d : Desk) (number : Nat) (answer : Except BrokerError Delivery) : Desk :=
  let tick := d.scheduler.now
  let d := d.put number (.finished tick answer)
  match d.aside.lookup number with
  | some name => { d with news := (name, tick, answer) :: d.news.filter (·.1 ≠ name) }
  | none => d

/-- Takes up the result of a look: a fetch that goes on listens and sets its alarm. -/
def follow (d : Desk) (number : Nat) (f : Fetch) (r : Fetch.Progress × Broker) : Desk :=
  let d := { d with broker := r.2 }
  match r.1 with
  | .finished answer => d.finish number answer
  | .waiting =>
    { d.put number (.waiting f) with
      scheduler := (d.scheduler.listen .arrival number).arm number 0 f.deadline }

/-- The turn of a fetch. -/
def turn (number : Nat) (d : Desk) : Desk :=
  let d := { d with scheduler := d.scheduler.forget number }
  match d.errands[number]? with
  | some (Errand.fresh consumer timeout) =>
    match Fetch.start d.scheduler.now consumer timeout with
    | .ok f => d.follow number f (f.firstLook d.scheduler.now d.broker)
    | .error cause => d.put number (.crashed cause)
  | some (Errand.waiting f) => d.follow number f (f.look d.scheduler.now d.broker)
  | _ => d

instance : Tasked Desk Nat Signal where
  scheduler := scheduler
  reschedule d s := { d with scheduler := s }
  turn := turn

/-- Begins a fetch; its number. -/
def start (d : Desk) (consumer : ConsumerId) (timeout : Duration) : Nat × Desk :=
  (d.errands.length,
    { d with
      errands := d.errands ++ [.fresh consumer timeout]
      scheduler := d.scheduler.wake d.errands.length })

/-- The answer of a fetch that is finished, with the tick at which it was. -/
def answer? (d : Desk) (number : Nat) : Option (Nat × Except BrokerError Delivery) :=
  match d.errands[number]? with
  | some (Errand.finished tick answer) => some (tick, answer)
  | _ => none

/-- The crash that a fetch ended in, if it did. -/
def crash? (d : Desk) (number : Nat) : Option Crash :=
  match d.errands[number]? with
  | some (Errand.crashed cause) => some cause
  | _ => none

/-- Whether a fetch has come to an end of either kind. -/
def isOver (number : Nat) (d : Desk) : Bool := (d.answer? number).isSome || (d.crash? number).isSome

/-- Tells all fetches that something arrived. -/
def announce (d : Desk) : Desk := { d with scheduler := d.scheduler.notify .arrival }

/-- A step of the callers. -/
inductive Request where
  | declare (consumer : ConsumerId) (filter : String)
  | publish (message : Message) (stamp : Int)
  | bind (binding : Binding)
  | fetch (consumer : ConsumerId) (timeout : Duration)
  | fetchAside (name : String) (consumer : ConsumerId) (timeout : Duration)
  | advance (ticks : Nat)
  | settle (handle : Handle) (settlement : Settlement)
  | enqueuedAt (handle : Handle)
  | failFetch (cause : BrokerError)
  | failBind (cause : BrokerError)
  | failSettle (cause : Option BrokerError)
  | pending (consumer : ConsumerId)
  | state

/-- What a caller is told. -/
inductive Reply where
  | none
  | handles (hs : List Handle)
  | result (r : Except BrokerError Unit)
  | fetched (tick : Nat) (r : Except BrokerError Delivery)
  | crashed (cause : Crash)
  | time (r : Except BrokerError Int)
  | count (n : Nat)
  | state (fetches : Nat) (acked nacked : List Handle)

/-- Carries out a step. A fetch in the foreground is waited for, and so is a number of ticks; every
other step is done at once. -/
def perform (d : Desk) : Request → Reply × Desk
  | .declare c filter => (.none, { d with broker := d.broker.declare c filter })
  | .publish m stamp =>
    let (handles, broker) := d.broker.publish m stamp
    (.handles handles, announce { d with broker })
  | .bind x => let (r, broker) := d.broker.bind x; (.result r, { d with broker })
  | .fetch c timeout =>
    let (number, d) := d.start c timeout
    let d := Tasked.runUntil (isOver number) Tasked.patience d
    match d.answer? number, d.crash? number with
    | some (tick, answer), _ => (.fetched tick answer, d)
    | none, some cause => (.crashed cause, d)
    | none, none => (.none, d)
  | .fetchAside name c timeout =>
    let (number, d) := d.start c timeout
    (.none, { d with aside := (number, name) :: d.aside })
  | .advance ticks => (.none, Tasked.runTo (d.scheduler.now + ticks) Tasked.patience d)
  | .settle h s =>
    let r := d.broker.settle h s
    let d := { d with broker := r.broker }
    (.result r.result, if r.requeued then d.announce else d)
  | .enqueuedAt h => (.time (d.broker.enqueuedAt h), d)
  | .failFetch e => (.none, { d with broker := d.broker.failNextFetch e })
  | .failBind e => (.none, { d with broker := d.broker.failNextBind e })
  | .failSettle e => (.none, { d with broker := d.broker.failSettlements e })
  | .pending c => (.count (d.broker.pending c), d)
  | .state => (.state d.broker.fetches d.broker.acked d.broker.nacked, d)

/-- What is told after a step: the tick, the reply, and the answers of the fetches in the background
that have finished since the step before; of several under one name, the last. -/
structure Report where
  tick : Nat
  reply : Reply
  finished : List (String × Nat × Except BrokerError Delivery)

/-- Carries out a step and lets every task run until nothing is left to do at that tick. -/
def serve (d : Desk) (r : Request) : Report × Desk :=
  let (reply, d) := d.perform r
  let d := Tasked.settle Tasked.patience d
  ({ tick := d.scheduler.now, reply, finished := d.news }, { d with news := [] })

/-- Carries out steps one after the other. A fetch in the foreground that crashes ends everything;
one in the background ends alone and is never heard of again. -/
def serveAll (d : Desk) : List Request → Except Crash (List Report)
  | [] => .ok []
  | r :: rest =>
    let (report, d) := d.serve r
    match report.reply with
    | .crashed cause => .error cause
    | _ =>
      match d.serveAll rest with
      | .ok reports => .ok (report :: reports)
      | .error cause => .error cause

end Desk

end PullConsumer.Broker
