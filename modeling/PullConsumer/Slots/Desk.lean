import PullConsumer.Scheduler
import PullConsumer.Slots

/-!
# A pool of slots and those who wait for it

Callers take slots under a name of their choice, at once or by waiting, wait until no slot is in
use, and give slots back. Each slot that is given back wakes everyone who waits; each of them looks
again, and those who find nothing go back to waiting. Nothing is reserved for a waiter before its
turn, so one that is called off takes nothing with it.

Names are not owned. Several tasks may wait under one name, and a name that says it was granted may
have another task behind it that still waits; only the last one to come under a name can be called
off by it.
-/

namespace PullConsumer.Slots

/-- What a task at the desk waits for: a slot, or that no slot is in use. -/
inductive Wish where
  | slot
  | idle
  deriving DecidableEq, Inhabited

/-- The only signal of a pool: a slot was given back. -/
inductive Signal where
  | released
  deriving DecidableEq, Inhabited

/-- A task that waits at the desk under a name. -/
structure Visitor where
  number : Nat
  name : String
  wish : Wish
  deriving DecidableEq, Inhabited

/-- A pool, the names slots are held under, and the tasks that wait for it. -/
structure Desk where
  slots : Slots
  held : List String := []
  visitors : List Visitor := []
  /-- The number of the task that came last under each name. -/
  latest : List (String × Nat) := []
  /-- For each name under which a task came, whether a wish was granted under it since then. -/
  progress : List (String × Bool) := []
  visits : Nat := 0
  scheduler : Scheduler Nat Signal := {}
  deriving Inhabited

namespace Desk

/-- Gives a slot back and tells everyone who waits. -/
def release (d : Desk) : Desk :=
  { d with slots := d.slots.giveBack, scheduler := d.scheduler.notify .released }

/-- Keeps a slot just taken under a name. A slot held under that name before is given back. -/
def keep (d : Desk) (name : String) : Desk :=
  if name ∈ d.held then d.release else { d with held := d.held ++ [name] }

/-- Takes a slot for a name, if one is free. -/
def tryTake? (d : Desk) (name : String) : Option Desk :=
  d.slots.take?.map fun slots => keep { d with slots } name

/-- Gives back the slot held under a name; whether there was one. -/
def giveBack (d : Desk) (name : String) : Bool × Desk :=
  if name ∈ d.held then (true, release { d with held := d.held.erase name }) else (false, d)

/-- Notes under a name whether a wish was granted. -/
def mark (d : Desk) (name : String) (granted : Bool) : Desk :=
  { d with progress := (name, granted) :: d.progress.filter (·.1 ≠ name) }

/-- Sends a task home with its wish granted. -/
def grant (d : Desk) (v : Visitor) : Desk :=
  mark { d with visitors := d.visitors.filter (·.number ≠ v.number) } v.name true

/-- A task looks whether its wish can be granted and goes back to waiting if not. -/
def look (d : Desk) (v : Visitor) : Desk :=
  let granted? := match v.wish with
    | .slot => d.tryTake? v.name
    | .idle => if d.slots.isIdle then some d else none
  match granted? with
  | some d => d.grant v
  | none => { d with scheduler := d.scheduler.listen .released v.number }

/-- The turn of a task. -/
def turn (number : Nat) (d : Desk) : Desk :=
  match d.visitors.find? (·.number = number) with
  | some v => d.look v
  | none => d

instance : Tasked Desk Nat Signal where
  scheduler := scheduler
  reschedule d s := { d with scheduler := s }
  turn := turn

/-- Starts a task with a wish under a name. -/
def receive (d : Desk) (name : String) (wish : Wish) : Desk :=
  mark { d with
    visits := d.visits + 1
    visitors := d.visitors ++ [⟨d.visits, name, wish⟩]
    latest := (name, d.visits) :: d.latest.filter (·.1 ≠ name)
    scheduler := d.scheduler.wake d.visits } name false

/-- Forgets how things stand under a name, and calls off the task that came last under it. A slot
the task has already taken stays held. -/
def callOff (d : Desk) (name : String) : Desk :=
  let d := { d with progress := d.progress.filter (·.1 ≠ name) }
  match d.latest.lookup name with
  | some number =>
    { d with
      latest := d.latest.filter (·.1 ≠ name)
      visitors := d.visitors.filter (·.number ≠ number)
      scheduler := (d.scheduler.forget number).take number }
  | none => d

/-- A step of the callers. -/
inductive Request where
  | tryTake (name : String)
  | take (name : String)
  | awaitIdle (name : String)
  | callOff (name : String)
  | giveBack (name : String)
  | loseHolder (name : String)
  | look
  deriving DecidableEq, Inhabited

/-- What a caller is told at once. -/
inductive Reply where
  | none
  | slot (text : Option String)
  | done (ok : Bool)
  deriving DecidableEq, Inhabited

/-- Carries out a step and lets every task run until nothing is left to do. A holder that is lost
gives its slot back like any other. -/
def serve (d : Desk) (r : Request) : Reply × Desk :=
  let (reply, d) : Reply × Desk :=
    match r with
    | .tryTake name =>
      match d.tryTake? name with
      | some d => (.slot (some d.slots.slotDebug), d)
      | none => (.slot none, d)
    | .take name => (.none, d.receive name .slot)
    | .awaitIdle name => (.none, d.receive name .idle)
    | .callOff name => (.none, d.callOff name)
    | .giveBack name => let (ok, d) := d.giveBack name; (.done ok, d)
    | .loseHolder name => let (_, d) := d.giveBack name; (.done true, d)
    | .look => (.none, d)
  (reply, Tasked.settle Tasked.patience d)

/-- Carries out steps one after the other; for each, the reply and the desk after it. -/
def serveAll (d : Desk) : List Request → List (Reply × Desk)
  | [] => []
  | r :: rest => let next := d.serve r; next :: serveAll next.2 rest

end Desk

end PullConsumer.Slots
