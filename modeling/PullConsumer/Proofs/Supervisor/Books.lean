import PullConsumer.Proofs.Supervisor.Schedule

/-!
# The books of a supervisor

Most of what a task does in a step concerns the scheduler: who listens, who is woken, which alarm is
set. What theorems speak of is the rest: the slots, the pullers and jobs with their phases, the
broker, the meters and the journal. This rest is the `Books` of a state, and everything that can
become of it is a `Deed`.

A deed is one thing that is done: a slot is reserved, a delivery received, a handler called, a
settlement answered. One step of a puller or one turn of a job is a short chain of deeds. An
invariant of the books is therefore shown once for each deed, and not for each way through the
program.

A turn of a job may call the handler, end it and settle the delivery without waiting in between. In
the chain of its deeds the job passes through the phases that it would wait in. The state never
shows them, and at the end of the turn nothing of them is left.
-/

namespace PullConsumer.Supervisor

/-- The binding of a subscription. -/
def Setup.binding (x : Setup) (sub : Nat) : Binding :=
  ((x.subscriptions[sub]?).map Subscription.binding).getD default

/-- The label that measurements of a subscription are kept under. -/
def Setup.label (x : Setup) (sub : Nat) : Label :=
  ⟨(x.binding sub).subject, (x.binding sub).consumer⟩

/-- The ticks that a settlement needs on its way to the broker. -/
def Client.settleTicks (c : Client) : Settlement → Nat
  | .ack => c.ackTicks
  | .nack => c.nackTicks

/-- A handler is at work. -/
def Job.Phase.isLive : Job.Phase → Bool
  | asleep .. => true
  | awaiting _ => true
  | _ => false

/-- A phase in which a puller holds a slot. -/
def Puller.Phase.holdsSlot : Puller.Phase → Bool
  | reaching _ => true
  | fetching _ => true
  | _ => false

/-- The events that jobs publish are of these kinds, and nobody else's are. -/
def isOfHandling : EventKind → Bool
  | .handlerFailed | .handlerFatal | .handlerPanicked | .messageNacked | .ackFailed
  | .nackFailed => true
  | _ => false

/-- The events that observers give rise to are of these kinds, and nobody else's are. -/
def isOfHealth : EventKind → Bool
  | .subscriberPanicked | .subscriberOverflow => true
  | _ => false

theorem isOfHandling_of_isOfHealth {kind : EventKind} (h : isOfHealth kind = true) :
    isOfHandling kind = false := by
  cases kind <;> first | rfl | exact absurd h (by simp [isOfHealth])

/-- A state without its scheduler and without what listener, observers and calls have of their
own. -/
structure Books where
  setup : Setup
  now : Nat
  slots : List Slots
  pullers : List Puller
  jobs : List Job
  jobsBegun : Nat
  broker : Broker
  meters : Meters
  journal : List (Nat × Entry)

def State.books (s : State) : Books where
  setup := s.setup
  now := s.now
  slots := s.slots
  pullers := s.pullers
  jobs := s.jobs
  jobsBegun := s.jobsBegun
  broker := s.broker
  meters := s.meters
  journal := s.journal

namespace Books

/-! ### Changes -/

def note (b : Books) (e : Entry) : Books := { b with journal := (b.now, e) :: b.journal }

def publishFor (b : Books) (sub : Nat) (e : Event) : Books :=
  b.note (.published (e.withBinding (b.setup.binding sub)))

def measure (b : Books) (sub : Nat) (m : Measurement) : Books :=
  { b with meters := if b.setup.metered then b.meters.record (b.setup.label sub) m else b.meters }

def setPhase (b : Books) (n : Nat) (phase : Puller.Phase) : Books :=
  { b with pullers := b.pullers.modify n fun p ↦ { p with phase } }

def inUse (b : Books) (sub : Nat) : Nat := ((b.slots[sub]?).map Slots.inUse).getD 0

def giveBack (b : Books) (sub : Nat) : Books :=
  { b with slots := b.slots.modify sub Slots.giveBack }

/-- Puts a puller to work for each of `count` subscriptions from number `first` on. -/
def spawn (b : Books) (token : Nat) (reporter : Reporter) (first count : Nat) : Books :=
  { b with pullers := b.pullers ++ (List.range' first count).map fun sub ↦
    { sub, token, reporter, phase := .fresh } }

/-- Begins a job for a delivery that a puller was given. -/
def beginJob (b : Books) (n : Nat) (p : Puller) (d : Delivery) : Books :=
  let job : Job :=
    { number := b.jobsBegun, puller := n, sub := p.sub, token := p.token, delivery := d,
      count := 0, phase := .fresh }
  { b with jobs := b.jobs ++ [job], jobsBegun := b.jobsBegun + 1 }.note
    (.fetched n b.jobsBegun d.handle)

def changeJob (b : Books) (n : Nat) (f : Job → Job) : Books :=
  { b with jobs := b.jobs.map fun j ↦ if j.number = n then f j else j }

def setJobPhase (b : Books) (n : Nat) (phase : Job.Phase) : Books :=
  b.changeJob n fun j ↦ { j with phase }

def dropJob (b : Books) (n : Nat) : Books := { b with jobs := b.jobs.filter (·.number ≠ n) }

/-- Counts and reports the result of a handler, unless it is a success. -/
def reportResult (b : Books) (sub : Nat) (r : HandlerResult) : Books :=
  match failureOf r with
  | some (label, kind, reason) =>
    (b.measure sub (.error label)).publishFor sub ((Event.of kind).withReason reason)
  | none => b

/-- Reports a settlement that succeeded, if it was negative. -/
def reportSettled (b : Books) (sub : Nat) (outcome : Outcome) : Books :=
  match outcome.settlement with
  | .ack => b
  | .nack => b.publishFor sub ((Event.of .messageNacked).withReason (outcome.detail?.getD ""))

/-- Counts and reports a settlement that failed. -/
def reportUnsettled (b : Books) (sub : Nat) (x : Settlement) (reason : String) : Books :=
  (b.measure sub (.error (settlementFailure x).1)).publishFor sub
    ((Event.of (settlementFailure x).2).withReason reason)

end Books

/-! ### Deeds -/

/-- **Everything that can become of the books.** -/
inductive Deed (b : Books) : Books → Prop
  /-- Time passes. -/
  | pass {now : Nat} (h : b.now ≤ now) : Deed b { b with now }
  /-- An event is published that is not about the handling of a message. -/
  | report {e : Event} (h : isOfHandling e.kind = false) : Deed b (b.note (.published e))
  /-- A failure of the broker is counted. -/
  | blame (sub : Nat) (cause : BrokerError) : Deed b (b.measure sub (.error cause.label))
  /-- The failure that ends a puller is told to whoever is to know. -/
  | fatal (n : Nat) (cause : BrokerError) : Deed b (b.note (.fatal n cause))
  /-- The broker is asked whether a consumer is there. -/
  | bind (x : Binding) : Deed b { b with broker := (b.broker.bind x).2 }
  | supply (x : Broker.Supply) : Deed b { b with broker := b.broker.supply x }
  /-- A puller that holds no slot goes on without one. -/
  | turn {n : Nat} {p : Puller} {phase : Puller.Phase} (hp : b.pullers[n]? = some p)
      (hover : p.isOver = false) (hfree : p.phase.holdsSlot = false)
      (hfree' : phase.holdsSlot = false) : Deed b (b.setPhase n phase)
  /-- The number of slots in use is reported. -/
  | gauge {n : Nat} {p : Puller} (hp : b.pullers[n]? = some p) (hhead : p.phase = .head) :
      Deed b ((b.note (.gauge p.sub (b.inUse p.sub))).measure p.sub
        (.concurrency (b.inUse p.sub)))
  | reserve {n : Nat} {p : Puller} {pool pool' : Slots} {due : Nat}
      (hp : b.pullers[n]? = some p) (hhead : p.phase = .head)
      (hpool : b.slots[p.sub]? = some pool) (htake : pool.take? = some pool') :
      Deed b ({ b with slots := b.slots.set p.sub pool' }.setPhase n (.reaching due))
  /-- The broker is asked for a delivery. -/
  | ask {n : Nat} {p : Puller} (hp : b.pullers[n]? = some p) (hslot : p.phase.holdsSlot = true) :
      Deed b ({ b with broker := b.broker.beginFetch.2 }.note (.fetchBegun n))
  /-- A fetch goes on. -/
  | expect {n : Nat} {p : Puller} {phase : Puller.Phase} (hp : b.pullers[n]? = some p)
      (hslot : p.phase.holdsSlot = true) (hslot' : phase.holdsSlot = true) :
      Deed b (b.setPhase n phase)
  /-- A fetch ends with a delivery; the slot of the puller becomes the slot of a new job. -/
  | receive {n : Nat} {p : Puller} {c : ConsumerId} {d : Delivery} {x : Broker}
      (hp : b.pullers[n]? = some p) (hslot : p.phase.holdsSlot = true)
      (htake : b.broker.take? c = .ok (some (d, x))) :
      Deed b (({ b with broker := x }.beginJob n p d).setPhase n .head)
  /-- A fetch ends without a delivery. -/
  | release {n : Nat} {p : Puller} {phase : Puller.Phase} (hp : b.pullers[n]? = some p)
      (hslot : p.phase.holdsSlot = true) (hfree : phase.holdsSlot = false) :
      Deed b ((b.giveBack p.sub).setPhase n phase)
  /-- The lag of a message is measured and its handler is called. -/
  | call {j : Job} {lag : Measurement} {count : Nat} {phase : Job.Phase} (hj : j ∈ b.jobs)
      (hfresh : j.phase = .fresh) (hlag : lag = .error timeUnknownLabel ∨ ∃ d, lag = .lag d)
      (hlive : phase.isLive = true) :
      Deed b (((b.measure j.sub lag).note
        (.started j.number j.sub j.delivery.message count)).changeJob j.number
          fun k ↦ { k with count, phase })
  /-- A handler goes on. -/
  | rest {j : Job} {phase : Job.Phase} (hj : j ∈ b.jobs) (hlive : j.phase.isLive = true)
      (hlive' : phase.isLive = true) :
      Deed b (b.setJobPhase j.number phase)
  /-- A handler ends. -/
  | finish {j : Job} {r : HandlerResult} {giveUpDue : Option Nat} (hj : j ∈ b.jobs)
      (hlive : j.phase.isLive = true) :
      Deed b ((((b.note (.ended j.number j.sub j.delivery.message j.count r)).measure j.sub
        .processed).reportResult j.sub r).setJobPhase j.number (.settling (.ofResult r)
          (b.now + b.setup.client.settleTicks (Outcome.ofResult r).settlement) giveUpDue))
  /-- A settlement goes on. -/
  | await {j : Job} {outcome : Outcome} {answerDue : Nat} {giveUpDue : Option Nat}
      (hj : j ∈ b.jobs) (hphase : j.phase = .settling outcome answerDue giveUpDue) :
      Deed b (b.setJobPhase j.number (.settling outcome answerDue giveUpDue))
  /-- A settlement succeeds and ends the job. -/
  | settle {j : Job} {outcome : Outcome} {answerDue : Nat} {giveUpDue : Option Nat}
      (hj : j ∈ b.jobs) (hphase : j.phase = .settling outcome answerDue giveUpDue)
      (hok : (b.broker.settle j.delivery.handle outcome.settlement).result = .ok ()) :
      Deed b ((((({ b with
        broker := (b.broker.settle j.delivery.handle outcome.settlement).broker }.note
          (.settled j.number j.delivery.handle outcome.settlement none)).reportSettled j.sub
            outcome).dropJob j.number).giveBack j.sub))
  /-- A settlement is answered with an error, or given up before it is answered, and ends the
  job. -/
  | fail {j : Job} {outcome : Outcome} {answerDue : Nat} {giveUpDue : Option Nat} {reason : String}
      (hj : j ∈ b.jobs) (hphase : j.phase = .settling outcome answerDue giveUpDue)
      (hwhy : (∃ cause : BrokerError, reason = cause.message) ∨ b.now < answerDue) :
      Deed b ((((b.note (.settled j.number j.delivery.handle outcome.settlement
        (some reason))).reportUnsettled j.sub outcome.settlement reason).dropJob
          j.number).giveBack j.sub)

/-- A chain of deeds. -/
def Deeds : Books → Books → Prop := Relation.ReflTransGen Deed

/-! ### The books of a changed state -/

namespace State

@[simp] theorem books_note (s : State) (e : Entry) : (s.note e).books = s.books.note e := rfl

@[simp] theorem books_notify (s : State) (x : Signal) : (s.notify x).books = s.books := by
  simp [books, notify, now]

@[simp] theorem books_wake (s : State) (t : Task) : (s.wake t).books = s.books := by
  simp [books, wake, now]

@[simp] theorem books_listen (s : State) (x : Signal) (t : Task) :
    (s.listen x t).books = s.books := by
  simp [books, listen, now]

@[simp] theorem books_arm (s : State) (t : Task) (due : Nat) : (s.arm t due).books = s.books := rfl

@[simp] theorem books_forget (s : State) (t : Task) : (s.forget t).books = s.books := rfl

@[simp] theorem books_hangUp (s : State) : s.hangUp.books = s.books := rfl

@[simp] theorem books_publish (s : State) (e : Event) :
    (s.publish e).books = s.books.note (.published e) := by
  simp only [publish, books_notify, books_note]
  rfl

@[simp] theorem books_publishFor (s : State) (sub : Nat) (e : Event) :
    (s.publishFor sub e).books = s.books.publishFor sub e := by
  simp only [publishFor, books_publish]
  rfl

@[simp] theorem books_measure (s : State) (sub : Nat) (m : Measurement) :
    (s.measure sub m).books = s.books.measure sub m := by
  rw [measure]
  split
  · next h => simp [books, Books.measure, h, now, label, binding, subscription?, Setup.label,
      Setup.binding]
  · next h => simp [books, Books.measure, h]

@[simp] theorem books_setPhase (s : State) (n : Nat) (phase : Puller.Phase) :
    (s.setPhase n phase).books = s.books.setPhase n phase := rfl

@[simp] theorem books_giveBackSlot (s : State) (sub : Nat) :
    (s.giveBackSlot sub).books = s.books.giveBack sub := by
  simp only [giveBackSlot, books_notify]
  rfl

@[simp] theorem books_reportFatal (s : State) (n : Nat) (p : Puller) (cause : BrokerError) :
    (s.reportFatal n p cause).books = s.books.note (.fatal n cause) := by
  rw [reportFatal]
  split
  · rfl
  · rw [books_notify]
    rfl

@[simp] theorem books_startJob (s : State) (n : Nat) (p : Puller) (d : Delivery) :
    (s.startJob n p d).books = s.books.beginJob n p d := by
  simp only [startJob, books_wake]
  rfl

@[simp] theorem books_setJobPhase (s : State) (n : Nat) (phase : Job.Phase) :
    (s.setJobPhase n phase).books = s.books.setJobPhase n phase := rfl

@[simp] theorem books_finishJob (s : State) (j : Job) :
    (s.finishJob j).books = (s.books.dropJob j.number).giveBack j.sub := by
  simp only [finishJob, books_giveBackSlot]
  rfl

theorem books_cancel (s : State) (token : Nat) : (s.cancel token).books = s.books := by
  have key : ∀ (ns : List Nat) (s : State),
      (ns.foldl (fun s n ↦ { s with tokens := s.tokens.modify n fun t ↦
        { t with cancelled := true } }.notify (.cancelled n)) s).books = s.books := by
    intro ns
    induction ns with
    | nil => exact fun s ↦ rfl
    | cons n rest ih => exact fun s ↦ (ih _).trans (books_notify _ _)
  exact key _ s

theorem books_answerCall (s : State) (n : Nat) (r : Except RuntimeError Unit) :
    (s.answerCall n r).books = s.books := by
  rw [answerCall, leaveLine]
  rw [books_hangUp]
  dsimp only
  split <;> rfl

theorem books_dropCall (s : State) (n : Nat) : (s.dropCall n).books = s.books := by
  rw [dropCall, leaveLine]
  rw [books_hangUp]
  dsimp only
  split <;> rfl

end State

end PullConsumer.Supervisor
