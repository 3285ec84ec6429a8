import PullConsumer.Broker.Fetch
import PullConsumer.Clock
import PullConsumer.Event.Ring
import PullConsumer.Meters
import PullConsumer.Observer
import PullConsumer.Scheduler
import PullConsumer.Settings
import PullConsumer.Slots
import PullConsumer.Subscription

/-!
# The state of a supervisor

Five kinds of tasks are at work: a *puller* for each subscription and start, which fetches
deliveries; a *job* for each delivery, which handles and settles it; the *listener*, which hands the
events of the ring to the observers; the *observers*; and the *user* of the supervisor, who makes
calls that take time and looks after those that are not over.

Everything they share is one record. A task or a call is a phase in that record and nothing else:
what it will do next can be read off its phase, and whoever waits holds exactly what the phase says,
a slot in particular. The journal tells what was done, and only what was done; no task reads it.
-/

namespace PullConsumer.Supervisor

/-- A task, by its kind and its number in the list of its kind. -/
inductive Task where
  | puller (number : Nat)
  | job (number : Nat)
  | listener
  | observer (number : Nat)
  | user
  deriving DecidableEq, Inhabited

/-- What a task can listen for. -/
inductive Signal where
  /-- A delivery may have come into some queue of the broker. -/
  | arrival
  /-- A slot of a subscription was given back. -/
  | released (sub : Nat)
  /-- A token was cancelled. -/
  | cancelled (token : Nat)
  /-- A puller has come to its end. -/
  | finished (puller : Nat)
  /-- An event was published. -/
  | posted
  /-- An event has come into the queue of an observer. -/
  | queued (observer : Nat)
  /-- A fatal failure was reported to a call. -/
  | reported (call : Nat)
  /-- The process was asked to end. -/
  | interrupted
  deriving DecidableEq, Inhabited

/-- A token says whether to stop. To cancel it cancels all that descend from it as well. -/
structure Token where
  parent : Option Nat
  cancelled : Bool
  deriving DecidableEq, Inhabited

namespace Token

/-- The parent of one of some tokens. -/
def parent? (tokens : List Token) (n : Nat) : Option Nat := (tokens[n]?).bind parent

/-- Those of the first tokens that descend from a token, the youngest first. A token is younger than
its parent, so it is known of the parent already whether it descends. -/
def descendants (tokens : List Token) (token : Nat) : (first : Nat) → List Nat
  | 0 => []
  | n + 1 =>
    let older := descendants tokens token n
    if (parent? tokens n).any fun p => p = token || p ∈ older then n :: older else older

end Token

/-- Who is told of the fatal failure of a puller: the callback given at the start, or the call that
made the start. -/
inductive Reporter where
  | callback
  | call (number : Nat)
  deriving DecidableEq, Inhabited

/-! ### Pullers -/

/-- What a puller is about to do or waits for. -/
inductive Puller.Phase where
  /-- Has not had a turn yet. -/
  | fresh
  /-- About to bind, after attempts that ended with these errors. -/
  | binding (errors : List String)
  /-- Waits between two attempts to bind. -/
  | rebinding (errors : List String) (due : Nat)
  /-- About to look whether to go on, and for a slot. -/
  | head
  /-- Every slot is taken. -/
  | crowded (due : Nat)
  /-- Holds a slot; its fetch reaches the broker at a tick. -/
  | reaching (due : Nat)
  /-- Holds a slot and waits for a delivery. -/
  | fetching (fetch : Broker.Fetch)
  /-- Fetches no more and waits until no slot is in use. -/
  | leaving
  | finished
  | crashed (cause : Crash)
  deriving DecidableEq, Inhabited

/-- A puller of a subscription, given by its number. -/
structure Puller where
  sub : Nat
  token : Nat
  reporter : Reporter
  phase : Puller.Phase
  deriving DecidableEq, Inhabited

namespace Puller

/-- A puller that is over has left nothing to do. -/
def isOver (p : Puller) : Bool :=
  match p.phase with
  | .finished => true
  | .crashed _ => true
  | _ => false

/-- A puller holds a slot while it fetches. -/
def holdsSlot (p : Puller) : Bool :=
  match p.phase with
  | .reaching _ => true
  | .fetching _ => true
  | _ => false

end Puller

/-! ### Jobs -/

/-- What a job is about to do or waits for. -/
inductive Job.Phase where
  /-- Has not had a turn yet. -/
  | fresh
  /-- Its handler sleeps until a tick and then goes on with its plan. -/
  | asleep (due : Nat) (rest : List Handler.Act)
  /-- Its handler waits for the cancellation and then goes on with its plan. -/
  | awaiting (rest : List Handler.Act)
  /-- The broker answers its settlement at one tick, and it gives up waiting at another, if ever. -/
  | settling (outcome : Outcome) (answerDue : Nat) (giveUpDue : Option Nat)
  deriving DecidableEq, Inhabited

/-- A job holds a slot of its subscription for as long as it exists. -/
structure Job where
  number : Nat
  puller : Nat
  sub : Nat
  token : Nat
  delivery : Delivery
  count : Nat
  phase : Job.Phase
  deriving DecidableEq, Inhabited

/-! ### Calls -/

/-- What a call is about to do or waits for. -/
inductive Call.Phase where
  /-- A run waits for what ends it. -/
  | watching
  /-- Waits for its turn to drain. -/
  | queued
  /-- Waits until the pullers to be stopped are over. -/
  | joining
  /-- Waits until no slot of a subscription is in use; those before it have been idle. -/
  | emptying (sub : Nat)
  | returned (tick : Nat) (result : Except RuntimeError Unit)
  | dropped (tick : Nat)

/-- A call that takes time. A run also has what ended it: a reason for the shutdown, and the failure
if it was one. The two limits are ticks: when the grace period ends, and when the user loses
patience. -/
structure Call where
  phase : Call.Phase
  reason : Option String := none
  failure : Option RuntimeError := none
  reports : List RuntimeError := []
  interrupt : Option String := none
  graceDue : Option Nat := none
  patienceDue : Option Nat := none

namespace Call

/-- The answer of a call that has returned, with its tick. -/
def answer? (c : Call) : Option (Nat × Except RuntimeError Unit) :=
  match c.phase with
  | .returned tick result => some (tick, result)
  | _ => none

/-- A call is over when it has returned or the user has given it up. -/
def isOver (c : Call) : Bool :=
  match c.phase with
  | .returned .. => true
  | .dropped _ => true
  | _ => false

end Call

/-! ### The journal -/

/-- Something that was done. -/
inductive Entry where
  /-- A puller reported the slots in use. -/
  | gauge (sub inUse : Nat)
  /-- A puller began to fetch. -/
  | fetchBegun (puller : Nat)
  /-- A puller was given a delivery, for which a job was started. -/
  | fetched (puller job : Nat) (handle : Handle)
  /-- A job called its handler. -/
  | started (job sub : Nat) (message : Message) (count : Nat)
  /-- The handler of a job ended. -/
  | ended (job sub : Nat) (message : Message) (count : Nat) (result : HandlerResult)
  /-- The settlement of a job was answered, or was given up without an answer. -/
  | settled (job : Nat) (handle : Handle) (settlement : Settlement) (failure : Option String)
  /-- A puller reported the failure that ended it. -/
  | fatal (puller : Nat) (cause : BrokerError)
  /-- An event was published. -/
  | published (event : Event)
  deriving DecidableEq, Inhabited

/-! ### The whole -/

/-- How the broker is reached: the ticks that each request needs on its way, whether the broker
knows when a delivery was published, and whether it looks at bindings at all. -/
structure Client where
  fetchTicks : Nat := 0
  ackTicks : Nat := 0
  nackTicks : Nat := 0
  knowsTimes : Bool := true
  checksBindings : Bool := true
  deriving DecidableEq, Inhabited

/-- What does not change while a supervisor runs. -/
structure Setup where
  settings : Settings
  subscriptions : List Subscription
  bindRetry : Retry.Policy BrokerError
  client : Client
  clock : Clock
  /-- The time of day, in nanoseconds since the epoch. Next to the age of a message a run takes no
  time. -/
  timeOfDay : Int
  /-- Whether measurements are kept. -/
  metered : Bool

/-- A start that no stop has taken over yet. -/
structure Running where
  token : Nat
  pullers : List Nat
  deriving DecidableEq, Inhabited

/-- The state of a supervisor and of everything it works with. -/
structure State where
  setup : Setup
  scheduler : Scheduler Task Signal := {}
  broker : Broker
  slots : List Slots
  ring : Event.Ring Event
  /-- Where the listener reads the ring; nothing once it has ended. -/
  listening : Option Nat
  channels : List Observer.Channel
  meters : Meters := {}
  tokens : List Token := []
  pullers : List Puller := []
  jobs : List Job := []
  jobsBegun : Nat := 0
  calls : List Call := []
  /-- How many turns the user has had since the last call was made. -/
  looks : Nat := 0
  /-- Whether the user has something more to look after and is ready again as soon as it waits. -/
  roused : Bool := false
  running : Option Running := none
  /-- Pullers that were told to stop and are not known to be over. -/
  stopping : List Nat := []
  /-- The calls that drain or wait to do so; the first one drains. -/
  draining : List Nat := []
  /-- How often each text came to the handler of each subscription. -/
  counts : List ((Nat × String) × Nat) := []
  /-- What was done, the last first, each with its tick. -/
  journal : List (Nat × Entry) := []
  /-- Whether the supervisor is still there for its user. -/
  owned : Bool := true

namespace State

/-! ### Small changes that the tasks share -/

def now (s : State) : Nat := s.scheduler.now

/-- Writes into the journal. -/
def note (s : State) (e : Entry) : State := { s with journal := (s.now, e) :: s.journal }

/-- Wakes everyone who listens for a signal. -/
def notify (s : State) (x : Signal) : State := { s with scheduler := s.scheduler.notify x }

/-- Makes a task ready. -/
def wake (s : State) (t : Task) : State := { s with scheduler := s.scheduler.wake t }

/-- Lets a task listen for a signal. -/
def listen (s : State) (x : Signal) (t : Task) : State :=
  { s with scheduler := s.scheduler.listen x t }

/-- Sets the alarm of a task. -/
def arm (s : State) (t : Task) (due : Nat) : State :=
  { s with scheduler := s.scheduler.arm t 0 due }

/-- Ends all waiting of a task. -/
def forget (s : State) (t : Task) : State := { s with scheduler := s.scheduler.forget t }

/-- Publishes an event on the ring. -/
def publish (s : State) (e : Event) : State :=
  ({ s with ring := s.ring.send e }.note (.published e)).notify .posted

def publishAll (s : State) (es : List Event) : State := es.foldl publish s

def subscription? (s : State) (sub : Nat) : Option Subscription := s.setup.subscriptions[sub]?

/-- The binding of a subscription. -/
def binding (s : State) (sub : Nat) : Binding :=
  ((s.subscription? sub).map Subscription.binding).getD default

/-- The name of a subscription. -/
def name (s : State) (sub : Nat) : String := (s.binding sub).toConsumerId.text

/-- Publishes an event about a subscription. -/
def publishFor (s : State) (sub : Nat) (e : Event) : State :=
  s.publish (e.withBinding (s.binding sub))

/-- The label that measurements of a subscription are kept under. -/
def label (s : State) (sub : Nat) : Label := ⟨(s.binding sub).subject, (s.binding sub).consumer⟩

/-- Records a measurement for a subscription. -/
def measure (s : State) (sub : Nat) (m : Measurement) : State :=
  if s.setup.metered then { s with meters := s.meters.record (s.label sub) m } else s

/-! ### Slots -/

def inUse (s : State) (sub : Nat) : Nat := ((s.slots[sub]?).map Slots.inUse).getD 0

def isIdle (s : State) (sub : Nat) : Bool := s.inUse sub = 0

/-- Takes a slot of a subscription, if one is free. -/
def takeSlot? (s : State) (sub : Nat) : Option State :=
  match s.slots[sub]? with
  | some pool => pool.take?.map fun pool => { s with slots := s.slots.set sub pool }
  | none => none

/-- Gives a slot of a subscription back and tells everyone who waits for that. -/
def giveBackSlot (s : State) (sub : Nat) : State :=
  { s with slots := s.slots.modify sub Slots.giveBack }.notify (.released sub)

/-! ### Tokens -/

def isCancelled (s : State) (token : Nat) : Bool :=
  ((s.tokens[token]?).map Token.cancelled).getD false

/-- A new token, and its number. The child of a cancelled token is cancelled. -/
def newToken (s : State) (parent : Option Nat) : Nat × State :=
  (s.tokens.length,
    { s with tokens := s.tokens ++ [⟨parent, (parent.map s.isCancelled).getD false⟩] })

/-- The tokens that a cancellation reaches: all that descend from the one cancelled, which comes
last, unless they are cancelled already. -/
def reachedBy (s : State) (token : Nat) : List Nat :=
  (Token.descendants s.tokens token s.tokens.length ++ [token]).filter fun n => !s.isCancelled n

/-- Cancels a token and all that descend from it, and tells everyone who waits for that. -/
def cancel (s : State) (token : Nat) : State :=
  (s.reachedBy token).foldl
    (fun s n => { s with tokens := s.tokens.modify n fun t => { t with cancelled := true } }.notify
      (.cancelled n))
    s

/-! ### Who can still publish -/

/-- Those who hold a handle of the ring and may publish: the supervisor, its pullers and jobs, the
set of observers that the listener owns, and each observer for its own reports. -/
inductive Publisher where
  | supervisor
  | puller (number : Nat)
  | job (number : Nat)
  | observers
  | observer (number : Nat)
  deriving DecidableEq, Inhabited

/-- The publishers that are still there. -/
def publishers (s : State) : List Publisher :=
  (if s.owned then [.supervisor] else []) ++
  ((List.range s.pullers.length).filter fun n =>
    ((s.pullers[n]?).map Puller.isOver) = some false).map .puller ++
  s.jobs.map (fun j => .job j.number) ++
  (if s.listening.isSome then [.observers] else []) ++
  ((List.range s.channels.length).filter fun n =>
    ((s.channels[n]?).map fun c => c.closed && c.isAtRest) = some false).map .observer

/-- A ring that nobody can publish on is closed. -/
def ringIsClosed (s : State) : Bool := s.publishers.isEmpty

end State

end PullConsumer.Supervisor
