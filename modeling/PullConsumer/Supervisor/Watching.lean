import PullConsumer.Supervisor.State

/-!
# What the listener and the observers do

The listener reads the ring in order and offers each event to every observer. An observer takes the
events of its queue at its own pace. What goes wrong with an observer is an event like any other: it
is published on the ring and so comes back to the observers, but a refused report of a refusal ends
there.

The listener ends, and closes the queues, once it has read everything and nobody can publish any
more.
-/

namespace PullConsumer.Supervisor.State

/-- Hands an event to every observer and publishes the refusals. -/
def emit (s : State) (e : Event) : State :=
  let o := Observer.offerAll e 0 s.channels
  let s := { s with channels := o.channels }
  let s := o.accepted.foldl (fun s k => s.notify (.queued k)) s
  s.publishAll (Observer.refusals e o.refused)

/-- The listener ends: no queue takes anything any more, and whoever waits at one is told. -/
def stopListening (s : State) : State :=
  (List.range s.channels.length).foldl (fun s k => s.notify (.queued k))
    { s with
      listening := none
      channels := s.channels.map fun c => { c with closed := true } }

/-- Reads the ring from a position on until nothing is left. A listener that has used up its budget
waits for another turn. -/
def readRing : (budget position : Nat) → State → State
  | 0, position, s => { s with listening := some position }.wake .listener
  | budget + 1, position, s =>
    match s.ring.read position with
    | (.item e, next) => readRing budget next ({ s with listening := some next }.emit e)
    | (.lagged _, next) => readRing budget next { s with listening := some next }
    | (.empty, next) =>
      let s := { s with listening := some next }
      if s.ringIsClosed then s.stopListening else s.listen .posted .listener

/-- The turn of the listener. Each event that it reads may bring one report by each observer, which
brings no further ones. -/
def listenerTurn (s : State) : State :=
  let s := s.forget .listener
  match s.listening with
  | some position =>
    readRing (4 + 2 * (s.ring.sent - position) * (s.channels.length + 1)) position s
  | none => s

/-- The turn of an observer. It then waits for its queue, or until it has taken an event. -/
def observerTurn (n : Nat) (s : State) : State :=
  let s := s.forget (.observer n)
  match s.channels[n]? with
  | none => s
  | some c =>
    let (c, reports) := c.work s.now
    let s := { s with channels := s.channels.set n c }.publishAll reports
    match c.taking with
    | some t => s.arm (.observer n) t.due
    | none => s.listen (.queued n) (.observer n)

end PullConsumer.Supervisor.State
