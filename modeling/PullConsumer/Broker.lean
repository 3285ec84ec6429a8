import PullConsumer.Failure
import PullConsumer.Message
import PullConsumer.Outcome
import PullConsumer.Subject

/-!
# An in-memory broker

The broker keeps a queue for each durable consumer. A published message is put, as a delivery of its
own, into the queue of every consumer whose filter selects its subject. A delivery that was fetched
is in flight until it is settled; one that is settled negatively goes back to the end of the queue
it was fetched for, unless the broker drops such deliveries.

A delivery is known by its handle, which names the consumer and ends in a number that counts all
deliveries ever issued. A message may be dealt out to its consumers in any order, since nothing
orders the consumers of a broker. Here they are kept in the order of their routes, so that the
deliveries of one message are numbered in that order. That is one choice among those that are open:
another one changes which of the new handles a consumer gets, and in what order they are listed, but
not how many there are or which message each of them stands for.

Faults can be planted: for fetching and binding, each is answered once, in the order of planting,
whoever asks; for settling, one is answered until it is taken away.
-/

namespace PullConsumer

/-- The name of a delivery. -/
structure Handle where
  text : String
  deriving DecidableEq, Inhabited

namespace Handle

/-- The handle of delivery number `n`, to the consumer `c`. -/
def ofNumber (c : ConsumerId) (n : Nat) : Handle := ⟨c.route ++ "." ++ toString n⟩

/-- What stands before the last point of a handle. -/
def route (h : Handle) : String :=
  String.ofList ((h.text.toList.reverse.dropWhile (· ≠ '.')).drop 1).reverse

end Handle

/-- A message on its way to one consumer. Its time is counted in nanoseconds since the epoch. -/
structure Delivery where
  handle : Handle
  message : Message
  enqueuedAt : Int
  deriving DecidableEq, Inhabited

/-- The deliveries that wait for one consumer, the oldest first. -/
structure Queue where
  filter : String
  ready : List Delivery := []
  deriving DecidableEq, Inhabited

/-- A delivery that was fetched and is not settled, with the consumer it was fetched for. -/
structure Flight where
  consumer : ConsumerId
  delivery : Delivery
  deriving DecidableEq, Inhabited

/-- The state of a broker. -/
structure Broker where
  redelivers : Bool := true
  queues : List (ConsumerId × Queue) := []
  inFlight : List Flight := []
  issued : Nat := 0
  fetches : Nat := 0
  acked : List Handle := []
  nacked : List Handle := []
  fetchFaults : List BrokerError := []
  bindFaults : List BrokerError := []
  settleFault : Option BrokerError := none
  deriving DecidableEq, Inhabited

namespace Broker

/-! ### Consumers -/

/-- Queues with the one of `c` set, at the place its route asks for. The order by routes is a choice:
any order of the consumers would do. -/
def setQueue (c : ConsumerId) (q : Queue) : List (ConsumerId × Queue) → List (ConsumerId × Queue)
  | [] => [(c, q)]
  | (k, old) :: rest =>
    if k = c then (c, q) :: rest
    else if c.route < k.route then (c, q) :: (k, old) :: rest
    else (k, old) :: setQueue c q rest

/-- Declares a consumer. One that exists already starts again with an empty queue. -/
def declare (b : Broker) (c : ConsumerId) (filter : String) : Broker :=
  { b with queues := setQueue c { filter } b.queues }

/-- The queue of a consumer. -/
def queue? (b : Broker) (c : ConsumerId) : Option Queue := b.queues.lookup c

/-- The number of deliveries that wait for a consumer; none for an unknown one. -/
def pending (b : Broker) (c : ConsumerId) : Nat :=
  match b.queue? c with
  | some q => q.ready.length
  | none => 0

/-- Queues with the one of `c` changed by `f`, if it exists. -/
def changeQueue (c : ConsumerId) (f : Queue → Queue) (queues : List (ConsumerId × Queue)) :
    List (ConsumerId × Queue) :=
  queues.map fun entry => if entry.1 = c then (entry.1, f entry.2) else entry

def Queue.push (q : Queue) (d : Delivery) : Queue := { q with ready := q.ready ++ [d] }

/-! ### Publishing -/

/-- Deals a message out to the queues whose filter selects it, in the order in which they are kept,
with `issued` deliveries issued before: the queues afterwards, and the handles of the new
deliveries. -/
def deal (m : Message) (stamp : Int) :
    (issued : Nat) → List (ConsumerId × Queue) → List (ConsumerId × Queue) × List Handle
  | _, [] => ([], [])
  | issued, (c, q) :: rest =>
    if Subject.isSelected q.filter m.subject then
      let h := Handle.ofNumber c (issued + 1)
      let (others, handles) := deal m stamp (issued + 1) rest
      ((c, Queue.push q ⟨h, m, stamp⟩) :: others, h :: handles)
    else
      let (others, handles) := deal m stamp issued rest
      ((c, q) :: others, handles)

/-- Publishes a message; the handles of its deliveries. -/
def publish (b : Broker) (m : Message) (enqueuedAt : Int) : List Handle × Broker :=
  let (queues, handles) := deal m enqueuedAt b.issued b.queues
  (handles, { b with queues, issued := b.issued + handles.length })

/-! ### Binding -/

/-- Checks that a consumer exists and has the filter that a subscription expects of it. -/
def bind (b : Broker) (x : Binding) : Except BrokerError Unit × Broker :=
  match b.bindFaults with
  | fault :: rest => (.error fault, { b with bindFaults := rest })
  | [] =>
    (match b.queue? x.toConsumerId with
      | some q =>
        if q.filter = x.subject then .ok ()
        else .error (.binding ("consumer " ++ x.toConsumerId.text ++ " filters " ++
          Text.quoted q.filter ++ ", not " ++ Text.quoted x.subject))
      | none => .error (.binding ("consumer " ++ x.toConsumerId.text ++ " not found")), b)

/-! ### Fetching -/

/-- Counts a fetch and answers it with a planted fault, if there is one. -/
def beginFetch (b : Broker) : Option BrokerError × Broker :=
  match b.fetchFaults with
  | fault :: rest => (some fault, { b with fetches := b.fetches + 1, fetchFaults := rest })
  | [] => (none, { b with fetches := b.fetches + 1 })

/-- Takes the oldest delivery that waits for a consumer, which is in flight from then on. -/
def take? (b : Broker) (c : ConsumerId) : Except BrokerError (Option (Delivery × Broker)) :=
  match b.queue? c with
  | none => .error (.binding ("consumer " ++ c.text ++ " not found"))
  | some q =>
    match q.ready with
    | [] => .ok none
    | d :: rest =>
      .ok (some (d, { b with
        queues := changeQueue c (fun q => { q with ready := rest }) b.queues
        inFlight := b.inFlight ++ [⟨c, d⟩] }))

/-! ### Settling -/

/-- What became of an attempt to settle a delivery. -/
structure Settled where
  result : Except BrokerError Unit
  requeued : Bool
  broker : Broker

/-- Settles a delivery in flight. A negative settlement puts it back into its queue if the broker
redelivers and the consumer still exists. -/
def settle (b : Broker) (h : Handle) (s : Settlement) : Settled :=
  match b.settleFault with
  | some fault => ⟨.error fault, false, b⟩
  | none =>
    match b.inFlight.find? (·.delivery.handle = h) with
    | none =>
      ⟨.error (.ack ("unknown or already settled delivery " ++ h.text)), false, b⟩
    | some flight =>
      let b := { b with inFlight := b.inFlight.filter (·.delivery.handle ≠ h) }
      match s with
      | .ack => ⟨.ok (), false, { b with acked := b.acked ++ [h] }⟩
      | .nack =>
        let b := { b with nacked := b.nacked ++ [h] }
        if b.redelivers && (b.queue? flight.consumer).isSome then
          ⟨.ok (), true, { b with
            queues := changeQueue flight.consumer (Queue.push · flight.delivery) b.queues }⟩
        else ⟨.ok (), false, b⟩

/-- The time at which a delivery in flight was published. -/
def enqueuedAt (b : Broker) (h : Handle) : Except BrokerError Int :=
  match b.inFlight.find? (·.delivery.handle = h) with
  | some flight => .ok flight.delivery.enqueuedAt
  | none => .error (.metadata ("no in-flight delivery " ++ h.text))

/-! ### Faults -/

def failNextFetch (b : Broker) (e : BrokerError) : Broker :=
  { b with fetchFaults := b.fetchFaults ++ [e] }

def failNextBind (b : Broker) (e : BrokerError) : Broker :=
  { b with bindFaults := b.bindFaults ++ [e] }

/-- Makes every settlement fail with `e`, or none any more. -/
def failSettlements (b : Broker) (e : Option BrokerError) : Broker := { b with settleFault := e }

end Broker

end PullConsumer
