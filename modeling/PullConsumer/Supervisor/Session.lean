import PullConsumer.Supervisor

/-!
# Sessions with a supervisor

A session is a list of steps that the user of one supervisor and of its broker takes one after the
other. Most steps are done at once, without a turn for anybody; the others let tasks run until the
calls of the step are over, or until nothing is left to do. While a call is not over, the user is a
task among the others and looks after it in turn.

The token that starts are made under belongs to the session and can be cancelled and replaced.
-/

namespace PullConsumer.Supervisor

/-- A step of the user. -/
inductive Step where
  | publish (message : Message) (stamp : Int) (times : Nat)
  | declare (consumer : ConsumerId) (filter : String)
  | failFetch (cause : BrokerError)
  | failBind (cause : BrokerError)
  | failSettle (cause : Option BrokerError)
  /-- Settles a delivery behind the back of its job. -/
  | settle (handle : Handle) (settlement : Settlement)
  | start
  | cancelParent
  | newParent
  | advance (ticks : Nat)
  | rest
  | stop
  | stopWithin (ticks : Nat)
  | stopTwice
  /-- A run that is given up after a number of ticks. Once everything has come to rest, a signal may
  be sent to the process. -/
  | run (patience : Nat) (interrupt : Option String)
  | look

/-- What can be seen of a supervisor and its broker from outside. -/
structure View where
  running : Bool
  busy : List String
  acked : List Handle
  nacked : List Handle
  pending : List (String × Nat)
  fetches : Nat
  deriving DecidableEq, Inhabited

/-- What the user is told after a step. -/
inductive Reply where
  | none
  | handles (hs : List Handle)
  | result (r : Except RuntimeError Unit)
  | broker (r : Except BrokerError Unit)
  | gaveUp
  | both (answers : List (Nat × Except RuntimeError Unit))
  | view (v : View)

/-- A supervisor with the token that starts are made under. -/
structure Session where
  state : State
  parent : Nat

namespace Session

/-- A session with a supervisor that was just built. -/
def ofState (s : State) : Session :=
  let (parent, s) := s.newToken none
  ⟨s, parent⟩

/-- Handles ordered by route; those of one route stay in their order. -/
def byRoute (hs : List Handle) : List Handle := hs.mergeSort fun a b => a.route ≤ b.route

def view (s : State) : View where
  running := s.running.isSome
  busy := s.busy
  acked := byRoute s.broker.acked
  nacked := byRoute s.broker.nacked
  pending := s.broker.queues.map fun (c, q) => (c.text, q.ready.length)
  fetches := s.broker.fetches

/-- Publishes a message several times. -/
def publishTimes (m : Message) (stamp : Int) : (times : Nat) → State → List Handle × State
  | 0, s => ([], s)
  | times + 1, s =>
    let (handles, broker) := s.broker.publish m stamp
    let (more, s) := publishTimes m stamp times ({ s with broker }.notify .arrival)
    (handles ++ more, s)

/-- Waits until all of the calls are over. -/
def await (calls : List Nat) (s : State) : State :=
  if calls.all s.isOver then s
  else Tasked.runUntil (fun s : State => calls.all s.isOver) Tasked.patience s.userWaits

def answer? (s : State) (n : Nat) : Option (Nat × Except RuntimeError Unit) :=
  (s.calls[n]?).bind Call.answer?

/-- What the user was told when a call was over. -/
def replyOf (s : State) (n : Nat) : Reply :=
  match answer? s n with
  | some (_, r) => .result r
  | none => .gaveUp

def atRest (s : State) : State := Tasked.settle Tasked.patience s.userWaits

/-- A change of the broker that tells nobody. -/
def onBroker (s : State) (f : Broker → Broker) : Reply × State :=
  (.none, { s with broker := f s.broker })

/-- Takes a step that leaves the parent token as it is. -/
def act (parent : Nat) (s : State) : Step → Reply × State
  | .publish m stamp times =>
    let (handles, s) := publishTimes m stamp times s
    (.handles handles, s)
  | .declare c filter => onBroker s (·.declare c filter)
  | .failFetch e => onBroker s (·.failNextFetch e)
  | .failBind e => onBroker s (·.failNextBind e)
  | .failSettle e => onBroker s (·.failSettlements e)
  | .settle h x =>
    let r := s.broker.settle h x
    let s := { s with broker := r.broker }
    (.broker r.result, if r.requeued then s.notify .arrival else s)
  | .start => let (r, s) := s.start parent .callback; (.result r, s)
  | .cancelParent => (.none, s.cancel parent)
  | .newParent => (.none, s)
  | .advance ticks => (.none, Tasked.runTo (s.now + ticks) Tasked.patience s.userWaits)
  | .rest => (.none, atRest s)
  | .stop =>
    let (n, s) := s.callStop none
    let s := await [n] s
    (replyOf s n, s)
  | .stopWithin ticks =>
    let (n, s) := s.callStop (some ticks)
    let s := await [n] s
    (replyOf s n, s)
  | .stopTwice =>
    let (first, s) := s.callStop none
    let (second, s) := s.callStop none
    let s := await [first, second] s
    (.both ([first, second].filterMap (answer? s)), s)
  | .run patience interrupt =>
    let (n, s) := s.callRun (some patience)
    let s := match interrupt with
      | some name => (atRest s).interrupt name
      | none => s
    let s := await [n] s
    (replyOf s n, s)
  | .look => (.view (view s), s)

/-- Takes a step. -/
def take (x : Session) (step : Step) : Reply × Session :=
  match step with
  | .newParent =>
    let (parent, s) := x.state.newToken none
    (.none, ⟨s, parent⟩)
  | step =>
    let (reply, s) := act x.parent x.state step
    (reply, ⟨s, x.parent⟩)

/-- Takes steps one after the other; for each, the tick after it and the reply. At the end
everything comes to rest. -/
def takeAll (x : Session) : List Step → List (Nat × Reply) × State
  | [] => ([], atRest x.state)
  | step :: rest =>
    let (reply, x) := x.take step
    let (replies, s) := x.takeAll rest
    ((x.state.now, reply) :: replies, s)

end Session

end PullConsumer.Supervisor
