import PullConsumer.Supervisor

/-!
# An account of what happened

What is told about a run after it has come to its end, read off the journal and off the events that
the observers have taken. Facts about one subscription, or one consumer, stand together under its
name, in the order in which they happened.
-/

namespace PullConsumer.Supervisor

namespace Account

/-- Collects named things in groups of one name, the groups in the order of their first things. -/
def grouped {α : Type} (xs : List (String × α)) : List (String × List α) :=
  (xs.map (·.1)).eraseDups.map fun name => (name, (xs.filter (·.1 = name)).map (·.2))

/-- Everything in the journal, the first entry first. -/
def history (s : State) : List (Nat × Entry) := s.journal.reverse

/-- The events that observer number `n` has taken, each with its tick. -/
def takenBy (s : State) (n : Nat) : List (Nat × Event) :=
  ((s.channels[n]?).map fun c => c.taken.reverse).getD []

/-- Events by subscription; those about no subscription stand under a dash. -/
def bySubscription (events : List (Nat × Event)) : List (String × List (Nat × Event)) :=
  grouped (events.map fun (t, e) => (e.subscription?.getD "-", (t, e)))

/-- A call of a handler that began or ended. -/
structure Handled where
  tick : Nat
  ended : Bool
  text : String
  count : Nat
  deriving DecidableEq, Inhabited

/-- The calls of handlers, by subscription. -/
def handled (s : State) : List (String × List Handled) :=
  grouped ((history s).filterMap fun (t, e) =>
    match e with
    | .started _ sub m count => some (s.name sub, ⟨t, false, m.text, count⟩)
    | .ended _ sub m count _ => some (s.name sub, ⟨t, true, m.text, count⟩)
    | _ => none)

/-- The most calls that were under way at once. -/
def mostAtOnce (calls : List Handled) : Nat :=
  (calls.foldl (fun (live, most) c =>
    if c.ended then (live - 1, most) else (live + 1, max most (live + 1))) (0, 0)).2

/-- The fatal failures reported to the callback, each with its tick and subscription. -/
def fatals (s : State) : List (Nat × Nat × BrokerError) :=
  (history s).filterMap fun (t, e) =>
    match e with
    | .fatal n cause =>
      match s.pullers[n]? with
      | some p => if p.reporter = .callback then some (t, p.sub, cause) else none
      | none => none
    | _ => none

/-- The reports of slots in use, by consumer. -/
def gauges (s : State) : List (String × List (Nat × Nat)) :=
  grouped ((history s).filterMap fun (t, e) =>
    match e with
    | .gauge sub n => some ((s.binding sub).consumer, (t, n))
    | _ => none)

/-- What is recorded about the handling of one message. -/
structure Span where
  subject : String
  consumer : String
  size : Nat
  trace : Trace
  outcome : Option String
  deriving DecidableEq, Inhabited

/-- The label that a handler result is recorded with. -/
def outcomeLabel (r : HandlerResult) : String :=
  match failureOf r with
  | some (label, _) => label
  | none => "success"

/-- The result of the handler that a job called, if it has ended. -/
def resultOf (entries : List (Nat × Entry)) (job : Nat) : Option HandlerResult :=
  entries.findSome? fun (_, e) =>
    match e with
    | .ended n _ _ _ r => if n = job then some r else none
    | _ => none

/-- What is recorded about the handling of messages, by consumer. -/
def spans (s : State) : List (String × List Span) :=
  grouped ((history s).filterMap fun (_, e) =>
    match e with
    | .started job sub m _ =>
      let consumer := (s.binding sub).consumer
      some (consumer, {
        subject := m.subject
        consumer
        size := m.payload.length
        trace := Trace.ofMessage m
        outcome := (resultOf s.journal job).map outcomeLabel })
    | _ => none)

/-- The series of measurements of each subscription. -/
def series (s : State) : List (String × Series) :=
  (List.range s.setup.subscriptions.length).map fun sub =>
    (s.name sub, s.meters.series (s.label sub))

end Account

end PullConsumer.Supervisor
