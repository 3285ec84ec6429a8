import PullConsumer.Broker

/-!
# Fetching one delivery

A fetch waits for a delivery until its deadline. It looks at the queue whenever something has
arrived anywhere, and takes the oldest delivery of its own consumer if there is one; only a fetch
that finds nothing looks at the clock, so a delivery that comes in the very tick of the deadline is
still taken. A fetch that times out has taken nothing.
-/

namespace PullConsumer.Broker

/-- A fetch under way. -/
structure Fetch where
  consumer : ConsumerId
  timeout : Duration
  deadline : Nat
  deriving DecidableEq, Inhabited

/-- Where a fetch stands after it has looked. -/
inductive Fetch.Progress where
  | waiting
  | finished (answer : Except BrokerError Delivery)

namespace Fetch

/-- A fetch that starts at tick `now`. A deadline past the horizon of the clock cannot be
expressed. -/
def start (now : Nat) (consumer : ConsumerId) (timeout : Duration) : Except Crash Fetch :=
  match timeout.limit? now with
  | some deadline => .ok ⟨consumer, timeout, deadline⟩
  | none => .error .deadlineOverflow

/-- Looks for a delivery, then at the clock. -/
def look (f : Fetch) (now : Nat) (b : Broker) : Progress × Broker :=
  match b.take? f.consumer with
  | .error e => (.finished (.error e), b)
  | .ok (some (d, b)) => (.finished (.ok d), b)
  | .ok none =>
    if f.deadline ≤ now then (.finished (.error (.timeout f.timeout)), b) else (.waiting, b)

/-- The first look, which also counts the fetch and may meet a planted fault. -/
def firstLook (f : Fetch) (now : Nat) (b : Broker) : Progress × Broker :=
  match b.beginFetch with
  | (some fault, b) => (.finished (.error fault), b)
  | (none, b) => f.look now b

end Fetch

end PullConsumer.Broker
