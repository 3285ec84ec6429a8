import Mathlib.Logic.Relation
import PullConsumer.Proofs.Broker.Supply
import PullConsumer.Supervisor.Session

/-!
# Runs of a supervisor

A run is a sequence of moves. A move is one step of one party: of a puller, a job, the listener, an
observer, a call, the user, those who supply the broker, and strangers who work with the broker at
their own will. Any party may move at any time, whether the scheduler would give it its turn or not,
and time may pass between any two moves; so what holds of all runs holds for every order of tasks.

## How runs relate to sessions

`Session` lets tasks take turns in one particular order. Every such turn is a sequence of moves, and
so is every step of a session (`Session.runs_take`): the runs contain everything that a session can
bring about, and much more.

## Which moves a run may make

A statement about runs says which moves it allows. `anything` allows all of them. `onlyJobsSettle`
lets strangers fetch, but not settle. `own` forbids `Move.meddle`: then only pullers fetch and only
jobs settle. `quiet` also forbids a start that succeeds.
-/

namespace PullConsumer.Supervisor

/-- A step of one of the parties. -/
inductive Move where
  /-- A puller takes a step. -/
  | pull (puller : Nat)
  /-- A job has its turn. -/
  | work (job : Nat)
  | listen
  | observe (observer : Nat)
  /-- A call takes a step. -/
  | pursue (call : Nat)
  /-- The user gives a call up. -/
  | giveUp (call : Nat)
  | start (parent : Nat)
  | callStop (patience : Option Nat)
  | callRun (patience : Option Nat)
  | interrupt (name : String)
  | newToken (parent : Option Nat)
  | cancel (token : Nat)
  | abandon
  /-- The broker is supplied. -/
  | supply (x : Broker.Supply)
  /-- A stranger fetches from the broker, settles with it, or changes it in any other way. -/
  | meddle (b : Broker)
  /-- Time passes; who waits for what may change in any way. -/
  | pass (scheduler : Scheduler Task Signal) (looks : Nat) (roused : Bool)

namespace Move

/-- Nobody but pullers fetches, nobody but jobs settles. -/
def isOwn : Move → Bool
  | meddle _ => false
  | _ => true

/-- A start is attempted, by the user or in a run. -/
def isStart : Move → Bool
  | start _ => true
  | callRun _ => true
  | _ => false

end Move

namespace State

/-- A call is made but not looked at yet. -/
def enter (s : State) (c : Call) : State :=
  let line := match c.phase with
    | .queued => s.draining ++ [s.calls.length]
    | _ => s.draining
  { s with calls := s.calls ++ [c], draining := line, looks := 0 }

/-- A run is called for but not looked at yet. -/
def enterRun (s : State) (patience : Option Nat) : State :=
  let (root, t) := s.newToken none
  match t.start root (.call s.calls.length) with
  | (.error e, _) => s.enter { phase := .returned s.now (.error e) }
  | (.ok (), t) => t.enter { phase := .watching, patienceDue := patience.map (s.now + ·) }

/-- What a move makes of a state. A party that is not there does nothing, and the clock never goes
back. -/
def move (s : State) : Move → State
  | .pull n =>
    match s.pullers[n]? with
    | some p => (s.pullerStep n p).1
    | none => s
  | .work n => s.jobTurn n
  | .listen => s.listenerTurn
  | .observe n => s.observerTurn n
  | .pursue n =>
    match s.calls[n]? with
    | some c => (s.callStep n c).1
    | none => s
  | .giveUp n => if s.isOver n then s else s.dropCall n
  | .start parent => (s.start parent .callback).2
  | .callStop patience => s.enter { phase := .queued, patienceDue := patience.map (s.now + ·) }
  | .callRun patience => s.enterRun patience
  | .interrupt name => s.interrupt name
  | .newToken parent => (s.newToken parent).2
  | .cancel token => s.cancel token
  | .abandon => s.abandon
  | .supply x => { s with broker := s.broker.supply x }
  | .meddle b => { s with broker := b }
  | .pass x looks roused =>
    { s with scheduler := { x with now := max s.now x.now }, looks, roused }

end State

/-! ### Runs -/

/-- The second state can be reached from the first one by allowed moves. -/
def Runs (allowed : State → Move → Prop) : State → State → Prop :=
  Relation.ReflTransGen fun s t ↦ ∃ m, allowed s m ∧ s.move m = t

def anything : State → Move → Prop := fun _ _ ↦ True

/-- All that strangers do is to begin fetches and to take deliveries. -/
def onlyJobsSettle : State → Move → Prop := fun s m ↦ ∀ b, m = .meddle b →
  b = s.broker.beginFetch.2 ∨ ∃ c d, s.broker.take? c = .ok (some (d, b))

def own : State → Move → Prop := fun _ m ↦ m.isOwn = true

def quiet : State → Move → Prop :=
  fun s m ↦ m.isOwn = true ∧ (m.isStart = true → s.running.isSome = true)

namespace Runs

variable {allowed allowed' : State → Move → Prop} {s t u : State}

theorem refl (s : State) : Runs allowed s s := Relation.ReflTransGen.refl

theorem trans (h : Runs allowed s t) (h' : Runs allowed t u) : Runs allowed s u :=
  Relation.ReflTransGen.trans h h'

theorem single {m : Move} (h : allowed s m) : Runs allowed s (s.move m) :=
  Relation.ReflTransGen.single ⟨m, h, rfl⟩

theorem mono (h : Runs allowed s t) (hle : ∀ s m, allowed s m → allowed' s m) :
    Runs allowed' s t :=
  Relation.ReflTransGen.mono (fun _ _ ⟨m, hm, ht⟩ ↦ ⟨m, hle _ _ hm, ht⟩) _ _ h

theorem own_of_quiet (h : Runs quiet s t) : Runs own s t := h.mono fun _ _ hm ↦ hm.1

/-- Where strangers do nothing, they do not settle. -/
theorem onlyJobsSettle_of_own (h : Runs own s t) : Runs onlyJobsSettle s t := by
  refine h.mono fun u m hown b hmeddle ↦ ?_
  subst hmeddle
  exact absurd hown (by simp [own, Move.isOwn])

/-- A run given by the list of its moves. -/
theorem of_list {moves : List Move} (h : ∀ m ∈ moves, ∀ s, allowed s m) :
    Runs allowed s (moves.foldl State.move s) := by
  induction moves generalizing s with
  | nil => exact refl s
  | cons m rest ih =>
    rw [List.forall_mem_cons] at h
    exact (single (h.1 s)).trans (ih h.2)

end Runs

/-! ### A small supervisor -/

/-- A supervisor with one subscription that handles one message at a time. A text is handled within
a tick, and fails for the moment, when it comes for the first time; afterwards it is handled at
once. One message waits. -/
def Plan.lone : Plan where
  subscriptions := [{
    binding := { stream := "s", consumer := "c", subject := "a" }
    maxConcurrency := 1
    pollInterval := none
    fetchTimeout := none
    handler := fun c ↦
      if c.count = 1 then [.sleep 1, .finish (.failed (.transient "busy"))] else [] }]
  broker := [Broker.Supply.declare ⟨"s", "c"⟩ "a",
    .publish { (default : Message) with subject := "a" } 0].foldl Broker.supply {}

theorem Plan.untouched_lone : Plan.lone.broker.Untouched := ⟨true, _, rfl⟩

/-- The supervisor starts, fetches the message and calls its handler. -/
def Move.fetching : List Move :=
  [.start 0, .pull 0, .pull 0, .pull 0, .pull 0, .work 0]

/-- The handler fails a tick later; the message is fetched and handled again. -/
def Move.handling : List Move :=
  Move.fetching ++ [.pass { now := 1 } 0 false, .work 0, .pull 0, .pull 0, .work 1]

/-- A stop is called for and drains. -/
def Move.stopping : List Move :=
  [.callStop none, .pursue 0, .pull 0, .pull 0, .pursue 0, .pursue 0, .pursue 0, .pursue 0]

theorem Runs.own_handling (s : State) : Runs own s (Move.handling.foldl State.move s) := by
  have hown : ∀ m ∈ Move.handling, m.isOwn = true := by decide
  exact of_list fun m hm _ ↦ hown m hm

theorem Runs.quiet_stopping (s : State) : Runs quiet s (Move.stopping.foldl State.move s) := by
  have hquiet : ∀ m ∈ Move.stopping, m.isOwn = true ∧ m.isStart = false := by decide
  refine of_list fun m hm _ ↦ ⟨(hquiet m hm).1, fun hstart ↦ ?_⟩
  exact absurd hstart (by simp [hquiet m hm])

end PullConsumer.Supervisor
