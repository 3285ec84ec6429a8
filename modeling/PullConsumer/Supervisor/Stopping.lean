import PullConsumer.Supervisor.Pulling

/-!
# Starting and stopping

A start puts a puller to work for every subscription, under a token of its own. A stop takes over
what was started, cancels its token, waits for the pullers one by one, the last one first, and then
for the slots of every subscription, in order. Only one stop drains at a time; the others wait for
their turn and then find what it left.

A stop may be given up by the user at any time. Nothing is undone by that: the pullers stay
cancelled, and those that are not known to be over are left for the next stop. A grace period ends
the waiting in the same way, but with an answer that names the subscriptions still holding slots.

A run is a start that waits for a signal to the process, or for the first fatal failure, and then
stops; a failure outweighs the result of the stop.

Who waits for signals has to install listeners for them first. That this succeeds is taken for
granted. Whether it does is up to the system and not to anything that is described here; where it
does not, the run drains at once, like a stop and without a reason, and its answer is
`RuntimeError.signal` whatever the drain comes to.
-/

namespace PullConsumer.Supervisor.State

/-! ### Starting -/

/-- Puts a puller to work for each subscription from number `first` on. -/
def spawnPullers (s : State) (token : Nat) (reporter : Reporter) : (first left : Nat) → State
  | _, 0 => s
  | first, left + 1 =>
    let p : Puller := { sub := first, token, reporter, phase := .fresh }
    let s := { s with pullers := s.pullers ++ [p] }.wake (.puller s.pullers.length)
    spawnPullers s token reporter (first + 1) left

/-- Starts, under a child of the token `parent`, unless a start has not been taken over yet. -/
def start (s : State) (parent : Nat) (reporter : Reporter) : Except RuntimeError Unit × State :=
  match s.running with
  | some _ => (.error .alreadyStarted, s)
  | none =>
    let (token, s) := s.newToken (some parent)
    let first := s.pullers.length
    let s := s.spawnPullers token reporter 0 s.setup.subscriptions.length
    (.ok (), { s with
      running := some ⟨token, (List.range (s.pullers.length - first)).map (first + ·)⟩ })

/-! ### Calls -/

def changeCall (s : State) (n : Nat) (f : Call → Call) : State :=
  { s with calls := s.calls.modify n f }

/-- Takes a call out of the line of those who drain. The user has to look after the next one, which
may drain now. -/
def leaveLine (s : State) (n : Nat) : State :=
  let wasFirst := s.draining.head? = some n
  let s := { s with draining := s.draining.erase n }
  if wasFirst && !s.draining.isEmpty then { s with roused := true } else s

/-- The user waits, which gives the others their turns. A user who was roused meanwhile stands in
the queue behind everyone who became ready before. -/
def userWaits (s : State) : State :=
  if s.roused then { s with roused := false }.wake .user else s

/-- The user waits for nothing any more; but once the end of a puller has been waited for, the user
is told of it, even if the call that waited is over by then. -/
def hangUp (s : State) : State :=
  { s with scheduler := s.scheduler.forgetBut (fun
      | .finished _ => true
      | _ => false) .user }

/-- A call returns. The failure that ended a run outweighs what came after it. -/
def answerCall (s : State) (n : Nat) (result : Except RuntimeError Unit) : State :=
  (s.changeCall n fun c =>
    { c with phase := .returned s.now (match c.failure with
        | some f => .error f
        | none => result) }).leaveLine n |>.hangUp

/-- The user gives a call up. -/
def dropCall (s : State) (n : Nat) : State :=
  (s.changeCall n fun c => { c with phase := .dropped s.now }).leaveLine n |>.hangUp

/-- Takes over what was started, if anything was: the shutdown is announced and the token
cancelled. -/
def takeOver (s : State) (reason : Option String) : State :=
  match s.running with
  | none => s
  | some r =>
    let e := Event.of .shutdownRequested
    let s := s.publish (match reason with
      | some text => e.withReason text
      | none => e)
    let s := s.cancel r.token
    { s with running := none, stopping := s.stopping ++ r.pullers }

/-- The names of the subscriptions that hold slots. -/
def busy (s : State) : List String :=
  ((List.range s.setup.subscriptions.length).filter fun sub => !s.isIdle sub).map s.name

/-- A drain that has to wait: until a signal, but no longer than its grace period. -/
def waitDraining (s : State) (n : Nat) (c : Call) (x : Signal) : State × Onward :=
  let s := s.listen x .user
  match c.graceDue with
  | none => (s, .wait)
  | some due =>
    if due ≤ s.now then
      let grace := s.setup.settings.grace
      let busy := s.busy
      let s := s.publish (((Event.of .graceExceeded).withTimeout grace).withReason
        (Text.joined ", " busy))
      (s.answerCall n (.error (.graceExceeded grace busy)), .wait)
    else ({ s with scheduler := s.scheduler.armOnce .user 0 due }, .wait)

/-- Puts a call into the line of those who drain. -/
def joinLine (s : State) (n : Nat) (change : Call → Call) : State × Onward :=
  ({ s.changeCall n fun c => { change c with phase := .queued } with
      draining := s.draining ++ [n] }, .go)

/-- One step of a call. A run that watches has its listeners for signals installed, so it is ended by
a signal or by a failure that was reported. -/
def callStep (s : State) (n : Nat) (c : Call) : State × Onward :=
  match c.phase with
  | .watching =>
    match c.interrupt, c.reports with
    | some name, _ => s.joinLine n fun c => { c with reason := some name }
    | none, failure :: _ =>
      s.joinLine n fun c => { c with reason := some "fatal", failure := some failure }
    | none, [] => ((s.listen (.reported n) .user).listen .interrupted .user, .wait)
  | .queued =>
    if s.draining.head? = some n then
      let s := s.takeOver c.reason
      let graceDue := s.setup.settings.graceLimit.bind (s.setup.clock.expires · s.now)
      (s.changeCall n fun c => { c with phase := .joining, graceDue }, .go)
    else (s, .wait)
  | .joining =>
    match s.stopping.getLast? with
    | none => (s.changeCall n fun c => { c with phase := .emptying 0 }, .go)
    | some p =>
      if ((s.pullers[p]?).map Puller.isOver).getD true then
        ({ s with stopping := s.stopping.dropLast }, .go)
      else s.waitDraining n c (.finished p)
  | .emptying sub =>
    if sub < s.setup.subscriptions.length then
      if s.isIdle sub then
        (s.changeCall n fun c => { c with phase := .emptying (sub + 1) }, .go)
      else s.waitDraining n c (.released sub)
    else ((s.publish (Event.of .drained)).answerCall n (.ok ()), .wait)
  | .returned .. => (s, .wait)
  | .dropped _ => (s, .wait)

/-- Steps of a call until it has to wait. -/
def callSteps (n : Nat) : (budget : Nat) → State → State
  | 0, s => s
  | budget + 1, s =>
    match s.calls[n]? with
    | none => s
    | some c =>
      match s.callStep n c with
      | (s, .go) => callSteps n budget s
      | (s, .wait) => s

/-- As many steps as a call can take without waiting: one for each puller and each subscription, and
a few more. -/
def callBudget (s : State) : Nat := 4 + s.pullers.length + s.setup.subscriptions.length

/-- The user looks after a call and takes it as far as it goes. One that still has to wait may have
run out of the user's patience. -/
def look (s : State) (n : Nat) : State :=
  let s := callSteps n s.callBudget s
  match s.calls[n]? with
  | none => s
  | some c =>
    match c.isOver, c.patienceDue with
    | false, some due =>
      if due ≤ s.now then s.dropCall n
      else { s with scheduler := s.scheduler.armOnce .user 1 due }
    | _, _ => s

/-- Whether a call is over. -/
def isOver (s : State) (n : Nat) : Bool := ((s.calls[n]?).map Call.isOver).getD true

/-- The turn of the user, who looks after every call that is not over. Each turn begins with another
one of them, so that none is always the last. It ends with waiting unless no call is left: then the
user goes on to something else first. -/
def userTurn (s : State) : State :=
  let s := { s with looks := s.looks + 1 }
  let pending := (List.range s.calls.length).filter fun n => !s.isOver n
  let s := (pending.rotateLeft s.looks).foldl look s
  if pending.all s.isOver then s else s.userWaits

/-- Makes a call, which is looked at at once; its number. -/
def call (s : State) (c : Call) : Nat × State :=
  let n := s.calls.length
  let line := match c.phase with
    | .queued => s.draining ++ [n]
    | _ => s.draining
  (n, look { s with calls := s.calls ++ [c], draining := line, looks := 0 } n)

/-- Calls for a stop, with as much patience as given. -/
def callStop (s : State) (patience : Option Nat) : Nat × State :=
  s.call { phase := .queued, patienceDue := patience.map (s.now + ·) }

/-- Calls for a run. Nothing is changed if a start has not been taken over yet. -/
def callRun (s : State) (patience : Option Nat) : Nat × State :=
  let n := s.calls.length
  let (root, t) := s.newToken none
  match t.start root (.call n) with
  | (.error e, _) => s.call { phase := .returned s.now (.error e) }
  | (.ok (), t) => t.call { phase := .watching, patienceDue := patience.map (s.now + ·) }

/-- A signal to the process reaches every run that waits for one. -/
def interrupt (s : State) (name : String) : State :=
  { s with calls := s.calls.map fun c : Call =>
      match c.phase with
      | .watching => { c with interrupt := some name }
      | _ => c }.notify .interrupted

end PullConsumer.Supervisor.State
