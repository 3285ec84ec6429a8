import PullConsumer.Supervisor.State

/-!
# What pullers do

A puller binds to its consumer, then goes round: it looks whether to go on, takes a slot, and only
then fetches; the delivery goes with its slot to a job of its own, and the puller goes on at once.
When it is told to stop, or when the broker fails, it starts no further fetch, waits until no slot
of its subscription is in use, and ends.

A turn is a chain of steps (`Puller.step`), each of which takes the puller from one phase to the
next or finds that it has to wait. Between a look at the token and the start of the fetch that
follows there is no waiting, so a puller whose token is cancelled never starts another fetch.
-/

namespace PullConsumer.Supervisor.State

/-- Puts a puller into a phase. -/
def setPhase (s : State) (n : Nat) (phase : Puller.Phase) : State :=
  { s with pullers := s.pullers.modify n fun p => { p with phase } }

/-- Tells the failure that ends a puller to whoever is to know. -/
def reportFatal (s : State) (n : Nat) (p : Puller) (cause : BrokerError) : State :=
  let s := s.note (.fatal n cause)
  match p.reporter with
  | .callback => s
  | .call c =>
    { s with calls := s.calls.modify c fun call : Call =>
        { call with
          reports := call.reports ++ [RuntimeError.subscriptionFailed (s.name p.sub) cause] } }.notify
      (.reported c)

/-- Whether a step was taken and the turn goes on, or the puller has to wait. -/
inductive Onward where
  | go
  | wait
  deriving DecidableEq, Inhabited

/-- Moves a puller to a phase from which its turn goes on. -/
def goTo (s : State) (n : Nat) (phase : Puller.Phase) : State × Onward := (s.setPhase n phase, .go)

/-- The answer of the broker to an attempt to bind. -/
def tryBind (s : State) (p : Puller) : Except BrokerError Unit × State :=
  if s.setup.client.checksBindings then
    let (r, broker) := s.broker.bind (s.binding p.sub)
    (r, { s with broker })
  else (.ok (), s)

/-- An attempt to bind, after those that ended with `errors`. A failure is not reported any more
once the token is cancelled. -/
def bindStep (s : State) (n : Nat) (p : Puller) (errors : List String) : State × Onward :=
  let policy := s.setup.bindRetry
  let (answer, s) := s.tryBind p
  match answer with
  | .ok () =>
    (s.publishFor p.sub
      ((Event.of .subscriptionBound).withAttempt (errors.length + 1))).goTo n .head
  | .error cause =>
    let errors := errors ++ [cause.message]
    match policy.verdict errors.length cause with
    | .again =>
      if s.isCancelled p.token then s.goTo n .leaving
      else if policy.delay.isZero then s.goTo n (.binding errors)
      else s.goTo n (.rebinding errors (s.setup.clock.wakes policy.delay s.now))
    | .giveUp =>
      if s.isCancelled p.token then s.goTo n .leaving
      else
        let report : Retry.Report := ⟨policy.maxAttempts, false, Retry.failures errors⟩
        let s := s.measure p.sub (.error cause.label)
        let s := s.publishFor p.sub
          (((Event.of .bindFailed).withAttempt errors.length).withReason report.text)
        (s.reportFatal n p cause).goTo n .leaving

/-- The times that a subscription has of its own, or else those of all. -/
def pollInterval (s : State) (sub : Nat) : Duration :=
  ((s.subscription? sub).bind Subscription.pollInterval).getD s.setup.settings.pollInterval

def fetchTimeout (s : State) (sub : Nat) : Duration :=
  ((s.subscription? sub).bind Subscription.fetchTimeout).getD s.setup.settings.fetchTimeout

/-- The look before a fetch: whether to go on, and whether there is a slot. -/
def headStep (s : State) (n : Nat) (p : Puller) : State × Onward :=
  if s.isCancelled p.token then s.goTo n .leaving
  else
    let s := (s.note (.gauge p.sub (s.inUse p.sub))).measure p.sub (.concurrency (s.inUse p.sub))
    match s.takeSlot? p.sub with
    | some s => s.goTo n (.reaching (s.now + s.setup.client.fetchTicks))
    | none => s.goTo n (.crowded (s.setup.clock.wakes (s.pollInterval p.sub) s.now))

/-- Starts a job for a delivery; the slot of the puller becomes the slot of the job. -/
def startJob (s : State) (n : Nat) (p : Puller) (d : Delivery) : State :=
  let job : Job :=
    { number := s.jobsBegun, puller := n, sub := p.sub, token := p.token, delivery := d,
      count := 0, phase := .fresh }
  { s with jobs := s.jobs ++ [job], jobsBegun := s.jobsBegun + 1 }.note
    (.fetched n job.number d.handle) |>.wake (.job job.number)

/-- Takes up what a look of a fetch has found. Only a fetch that goes on keeps its slot. -/
def fetchStep (s : State) (n : Nat) (p : Puller) (f : Broker.Fetch)
    (found : Broker.Fetch.Progress × Broker) : State × Onward :=
  let s := { s with broker := found.2 }
  match found.1 with
  | .waiting =>
    ((s.setPhase n (.fetching f)).listen .arrival (.puller n) |>.arm (.puller n) f.deadline, .wait)
  | .finished (.ok d) => (s.startJob n p d).goTo n .head
  | .finished (.error (.timeout _)) => (s.giveBackSlot p.sub).goTo n .head
  | .finished (.error cause) =>
    let s := (s.giveBackSlot p.sub).measure p.sub (.error cause.label)
    let s := s.publishFor p.sub ((Event.of .fetchFailed).withReason cause.message)
    (s.reportFatal n p cause).goTo n .leaving

/-- The broker is reached and the fetch begins. A deadline that cannot be expressed ends the puller
on the spot. -/
def reachStep (s : State) (n : Nat) (p : Puller) : State × Onward :=
  match Broker.Fetch.start s.now (s.binding p.sub).toConsumerId (s.fetchTimeout p.sub) with
  | .ok f =>
    let s := s.note (.fetchBegun n)
    s.fetchStep n p f (f.firstLook s.now s.broker)
  | .error cause =>
    (((s.giveBackSlot p.sub).setPhase n (.crashed cause)).notify (.finished n), .wait)

/-- One step of a puller. -/
def pullerStep (s : State) (n : Nat) (p : Puller) : State × Onward :=
  match p.phase with
  | .fresh => (s.publishFor p.sub (Event.of .subscriptionStarting)).goTo n (.binding [])
  | .binding errors => s.bindStep n p errors
  | .rebinding errors due =>
    if s.isCancelled p.token then s.goTo n .leaving
    else if due ≤ s.now then s.goTo n (.binding errors)
    else (s.listen (.cancelled p.token) (.puller n) |>.arm (.puller n) due, .wait)
  | .head => s.headStep n p
  | .crowded due =>
    if s.isCancelled p.token then s.goTo n .leaving
    else if due ≤ s.now then s.goTo n .head
    else (s.listen (.cancelled p.token) (.puller n) |>.arm (.puller n) due, .wait)
  | .reaching due => if due ≤ s.now then s.reachStep n p else (s.arm (.puller n) due, .wait)
  | .fetching f => s.fetchStep n p f (f.look s.now s.broker)
  | .leaving =>
    if s.isIdle p.sub then
      ((s.publishFor p.sub (Event.of .subscriptionStopped)).setPhase n .finished |>.notify
        (.finished n), .wait)
    else (s.listen (.released p.sub) (.puller n), .wait)
  | .finished => (s, .wait)
  | .crashed _ => (s, .wait)

/-- A number of steps that no turn of a puller needs: each round takes a slot for good, or uses up a
planted fault, or is the last one. -/
def pullerBudget (s : State) (p : Puller) : Nat :=
  8 + 2 * (((s.slots[p.sub]?).map Slots.free).getD 0 + s.broker.fetchFaults.length +
    s.broker.bindFaults.length)

/-- Steps of a puller until it has to wait. One that has used up its budget waits for another
turn. -/
def pullerSteps (n : Nat) : (budget : Nat) → State → State
  | 0, s => s.wake (.puller n)
  | budget + 1, s =>
    match s.pullers[n]? with
    | none => s
    | some p =>
      match s.pullerStep n p with
      | (s, .go) => pullerSteps n budget s
      | (s, .wait) => s

/-- The turn of a puller. -/
def pullerTurn (n : Nat) (s : State) : State :=
  let s := s.forget (.puller n)
  match s.pullers[n]? with
  | some p => pullerSteps n (s.pullerBudget p) s
  | none => s

end PullConsumer.Supervisor.State
