import PullConsumer.Supervisor.State

/-!
# What jobs do

A job takes one delivery from its fetch to its settlement. It records the lag of the message, calls
the handler once, counts and reports what came of it, and settles the delivery: negatively after a
transient failure, positively after anything else. The settlement is tried once; an error and the
lack of an answer are counted and reported, and nothing more. Whatever happens, the job gives its
slot back at the very end.
-/

namespace PullConsumer.Supervisor

/-- The labels under which failures of a job are counted that are not errors of its handler. -/
def panicLabel : String := "handler_panic"
def ackFailedLabel : String := "ack_failed"
def nackFailedLabel : String := "nack_failed"
def timeUnknownLabel : String := "metadata_unavailable"

/-- Where a handler stands after it has acted as far as it could. -/
inductive Stance where
  | ended (result : HandlerResult)
  | asleep (due : Nat) (rest : List Handler.Act)
  | awaiting (rest : List Handler.Act)
  deriving DecidableEq, Inhabited

/-- Acts until a handler has to wait or ends. -/
def Stance.after (now : Nat) (cancelled : Bool) : List Handler.Act → Stance
  | [] => ended .ok
  | .sleep ticks :: rest =>
    if ticks = 0 then after now cancelled rest else asleep (now + ticks) rest
  | .awaitCancel :: rest => if cancelled then after now cancelled rest else awaiting rest
  | .endIfCancelled r :: rest => if cancelled then ended r else after now cancelled rest
  | .finish r :: _ => ended r

/-- What is counted and reported of a handler result: a label, and the kind and the reason of an
event. Nothing for a success. -/
def failureOf : HandlerResult → Option (String × EventKind × String)
  | .ok => none
  | .failed e =>
    some (e.label, if e.isTransient then .handlerFailed else .handlerFatal, e.reason)
  | .panicked p => some (panicLabel, .handlerPanicked, p.message)

/-- What a failed settlement is counted and reported as. -/
def settlementFailure : Settlement → String × EventKind
  | .ack => (ackFailedLabel, .ackFailed)
  | .nack => (nackFailedLabel, .nackFailed)

namespace State

/-- Puts a job into a phase. -/
def setJobPhase (s : State) (n : Nat) (phase : Job.Phase) : State :=
  { s with jobs := s.jobs.map fun j => if j.number = n then { j with phase } else j }

/-- Records how long a message has waited. One from the future has not waited at all. -/
def recordLag (s : State) (j : Job) : State :=
  let unknown := s.measure j.sub (.error timeUnknownLabel)
  if s.setup.client.knowsTimes then
    match s.broker.enqueuedAt j.delivery.handle with
    | .ok enqueued => s.measure j.sub (.lag ⟨(s.setup.timeOfDay - enqueued).toNat⟩)
    | .error _ => unknown
  else unknown

/-- Counts a text that comes to the handler of a subscription: how often it came, this time
included. -/
def countText (s : State) (sub : Nat) (text : String) : Nat × State :=
  let count := (s.counts.lookup (sub, text)).getD 0 + 1
  (count, { s with counts := ((sub, text), count) :: s.counts.filter (·.1 ≠ (sub, text)) })

/-- Ends a job: its slot goes back and nothing of it is left. -/
def finishJob (s : State) (j : Job) : State :=
  { s with jobs := s.jobs.filter (·.number ≠ j.number) }.giveBackSlot j.sub

/-- Counts and reports a settlement that did not succeed. -/
def settlementFailed (s : State) (j : Job) (x : Settlement) (reason : String) : State :=
  let (label, kind) := settlementFailure x
  let s := s.note (.settled j.number j.delivery.handle x (some reason))
  let s := s.measure j.sub (.error label)
  s.publishFor j.sub ((Event.of kind).withReason reason)

/-- The broker answers a settlement. -/
def settleNow (s : State) (j : Job) (outcome : Outcome) : State :=
  let x := outcome.settlement
  let answer := s.broker.settle j.delivery.handle x
  let s := { s with broker := answer.broker }
  let s := if answer.requeued then s.notify .arrival else s
  match answer.result with
  | .error cause => s.settlementFailed j x cause.message
  | .ok () =>
    let s := s.note (.settled j.number j.delivery.handle x none)
    match x with
    | .ack => s
    | .nack =>
      s.publishFor j.sub ((Event.of .messageNacked).withReason (outcome.detail?.getD ""))

/-- A job in its settlement: it is answered, or given up, or waited for. -/
def settleStep (s : State) (j : Job) (outcome : Outcome) (answerDue : Nat)
    (giveUpDue : Option Nat) : State :=
  if answerDue ≤ s.now then (s.settleNow j outcome).finishJob j
  else if giveUpDue.any (· ≤ s.now) then
    (s.settlementFailed j outcome.settlement
      ("timed out after " ++ s.setup.settings.ackTimeout.text)).finishJob j
  else
    (s.setJobPhase j.number (.settling outcome answerDue giveUpDue)).arm (.job j.number)
      (giveUpDue.elim answerDue (min answerDue))

/-- The handler of a job has ended: its result is counted and reported, then the delivery is
settled. -/
def handled (s : State) (j : Job) (r : HandlerResult) : State :=
  let outcome := Outcome.ofResult r
  let s := s.note (.ended j.number j.sub j.delivery.message j.count r)
  let s := s.measure j.sub .processed
  let s := match failureOf r with
    | some (label, kind, reason) =>
      (s.measure j.sub (.error label)).publishFor j.sub ((Event.of kind).withReason reason)
    | none => s
  let ticks := match outcome.settlement with
    | .ack => s.setup.client.ackTicks
    | .nack => s.setup.client.nackTicks
  s.settleStep j outcome (s.now + ticks) (s.setup.clock.expires s.setup.settings.ackTimeout s.now)

/-- Goes on with the plan of a handler. -/
def actOn (s : State) (j : Job) (plan : List Handler.Act) : State :=
  match Stance.after s.now (s.isCancelled j.token) plan with
  | .ended r => s.handled j r
  | .asleep due rest => (s.setJobPhase j.number (.asleep due rest)).arm (.job j.number) due
  | .awaiting rest =>
    (s.setJobPhase j.number (.awaiting rest)).listen (.cancelled j.token) (.job j.number)

/-- The first turn of a job: the lag is recorded and the handler is called. -/
def callHandler (s : State) (j : Job) : State :=
  let s := s.recordLag j
  let m := j.delivery.message
  let (count, s) := s.countText j.sub m.text
  let s := s.note (.started j.number j.sub m count)
  let s := { s with
    jobs := s.jobs.map fun k : Job => if k.number = j.number then { k with count } else k }
  let handler := ((s.subscription? j.sub).map Subscription.handler).getD default
  s.actOn { j with count } (handler ⟨(s.binding j.sub).consumer, m, Trace.ofMessage m, count⟩)

/-- The turn of a job. -/
def jobTurn (n : Nat) (s : State) : State :=
  let s := s.forget (.job n)
  match s.jobs.find? (·.number = n) with
  | none => s
  | some j =>
    match j.phase with
    | .fresh => s.callHandler j
    | .asleep due rest => if due ≤ s.now then s.actOn j rest else s.arm (.job n) due
    | .awaiting rest =>
      if s.isCancelled j.token then s.actOn j rest
      else s.listen (.cancelled j.token) (.job n)
    | .settling outcome answerDue giveUpDue => s.settleStep j outcome answerDue giveUpDue

end State

end PullConsumer.Supervisor
