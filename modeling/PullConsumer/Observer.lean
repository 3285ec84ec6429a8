import PullConsumer.Event
import PullConsumer.Outcome

/-!
# Observers of events

An observer takes events one at a time from a queue of its own. Taking an event may need time, and
it may end in a panic; either way the observer goes on with the next event. An event that comes
while the queue is full is refused.

The event being taken is no longer in the queue, so a queue of capacity one holds one event besides
it.
-/

namespace PullConsumer

/-- What an observer makes of an event: how many ticks it needs before it has taken it, and whether
it panics then. -/
structure Reaction where
  pause : Nat := 0
  panic : Option Panic := none
  deriving DecidableEq, Inhabited

/-- An observer of events. -/
structure Observer where
  name : String
  capacity : Nat
  react : Event → Reaction
  deriving Inhabited

namespace Observer

/-- The number of events that wait for an observer at most, unless it says otherwise. -/
def defaultCapacity : Nat := 1024

/-- An event that an observer is busy with until a tick. -/
structure Taking where
  event : Event
  due : Nat
  deriving DecidableEq, Inhabited

/-- An observer with its queue, what it is busy with, and the events it has taken, each with its
tick, the last one first. A closed channel takes nothing any more. -/
structure Channel where
  observer : Observer
  queue : List Event := []
  taking : Option Taking := none
  taken : List (Nat × Event) := []
  closed : Bool := false
  deriving Inhabited

/-- Why an event was refused. -/
inductive Refused where
  | full
  | closed
  deriving DecidableEq, Inhabited

def Refused.text : Refused → String
  | full => "full"
  | closed => "closed"

namespace Channel

/-- The number of events that may wait: one at least. -/
def capacity (c : Channel) : Nat := max c.observer.capacity 1

/-- Puts an event into the queue or refuses it. -/
def offer (c : Channel) (e : Event) : Except Refused Channel :=
  if c.closed then .error .closed
  else if c.queue.length < c.capacity then .ok { c with queue := c.queue ++ [e] }
  else .error .full

/-- The report of an observer's panic over an event, if it panics. -/
def complaint (o : Observer) (e : Event) : List Event :=
  ((o.react e).panic.map fun p => Event.panicked o.name p.message).toList

/-- Takes the events of a queue one after the other, as far as they need no time: the channel
afterwards and the reports of the panics on the way. -/
def takeAll (now : Nat) (c : Channel) : List Event → Channel × List Event
  | [] => ({ c with queue := [] }, [])
  | e :: rest =>
    if (c.observer.react e).pause = 0 then
      let (done, reports) := takeAll now { c with taken := (now, e) :: c.taken } rest
      (done, complaint c.observer e ++ reports)
    else
      ({ c with queue := rest, taking := some ⟨e, now + (c.observer.react e).pause⟩ }, [])

/-- The turn of an observer: it goes on with the event it is busy with, if that needs no more time,
and then with its queue. -/
def work (now : Nat) (c : Channel) : Channel × List Event :=
  match c.taking with
  | none => takeAll now c c.queue
  | some t =>
    if now < t.due then (c, [])
    else
      let (done, reports) :=
        takeAll now { c with taking := none, taken := (now, t.event) :: c.taken } c.queue
      (done, complaint c.observer t.event ++ reports)

/-- Whether the observer has nothing to take. -/
def isAtRest (c : Channel) : Bool := c.queue.isEmpty && c.taking.isNone

end Channel

/-! ### Fan-out -/

/-- What became of an event that was offered to every observer. -/
structure Offered where
  channels : List Channel
  /-- The observers that took it into their queues, by number. -/
  accepted : List Nat
  /-- The observers that refused it, by name, and why. -/
  refused : List (String × Refused)
  deriving Inhabited

/-- Offers an event to every observer in order; `first` is the number of the first one. What one of
them answers has no influence on the others. -/
def offerAll (e : Event) : (first : Nat) → List Channel → Offered
  | _, [] => ⟨[], [], []⟩
  | first, c :: rest =>
    let others := offerAll e (first + 1) rest
    match c.offer e with
    | .ok c => ⟨c :: others.channels, first :: others.accepted, others.refused⟩
    | .error why =>
      ⟨c :: others.channels, others.accepted, (c.observer.name, why) :: others.refused⟩

/-- The reports of refusals. That a report of a refusal was refused is not reported, or one full
queue would go on reporting for ever. -/
def refusals (e : Event) (refused : List (String × Refused)) : List Event :=
  if e.isOverflow then [] else refused.map fun (name, why) => Event.overflow name why.text

end Observer

end PullConsumer
