/-!
# A cooperative scheduler with a virtual clock

Tasks of type `τ` take turns. A task that has its turn runs until it has to wait; it then waits for
signals of type `σ`, for alarms of the clock, or for both, and the first of them to come makes it
ready again. The scheduler holds nothing but who is ready and who waits for what; what a task does
in its turn is not its business.

* Ready tasks stand in a queue, each at most once (`wake`).
* A signal wakes everyone who listens for it, in the order in which they began to (`notify`). It is
  not kept for those who come later: who listens looks first whether there is anything to wait for.
* The clock stands still while anyone is ready. When nobody is, it moves to the next alarm and rings
  every alarm of that tick, in the order in which they were set (`elapse?`).

A task may have several alarms, one for each *layer* of its waiting: a limit around an operation
that itself sleeps is a second layer.
-/

namespace PullConsumer

/-- A promise of the clock to wake a task at a tick. -/
structure Alarm (τ : Type) where
  due : Nat
  task : τ
  layer : Nat
  deriving DecidableEq, Inhabited

/-- Who is ready, who listens for what, and which alarms are set, in the order of setting. -/
structure Scheduler (τ σ : Type) where
  now : Nat := 0
  ready : List τ := []
  waiting : List (σ × τ) := []
  alarms : List (Alarm τ) := []
  deriving DecidableEq, Inhabited

namespace Scheduler

variable {τ σ : Type} [DecidableEq τ] [DecidableEq σ]

/-! ### Becoming ready -/

/-- Puts a task at the end of the queue, unless it is queued already. -/
def wake (s : Scheduler τ σ) (t : τ) : Scheduler τ σ :=
  if t ∈ s.ready then s else { s with ready := s.ready ++ [t] }

omit [DecidableEq σ] in
/-- Nobody else becomes ready, and nobody stops being ready. -/
theorem mem_ready_wake {s : Scheduler τ σ} {t u : τ} :
    u ∈ (s.wake t).ready ↔ u ∈ s.ready ∨ u = t := by
  unfold wake
  split
  · next h => exact ⟨Or.inl, fun hu => hu.elim id fun he => he ▸ h⟩
  · simp

omit [DecidableEq σ] in
/-- A task is never queued twice. -/
theorem nodup_ready_wake {s : Scheduler τ σ} (h : s.ready.Nodup) (t : τ) :
    (s.wake t).ready.Nodup := by
  unfold wake
  split
  · exact h
  · next ht =>
    refine List.nodup_append.2 ⟨h, by simp, ?_⟩
    intro a ha b hb
    rw [List.mem_singleton.1 hb]
    exact fun he => ht (he ▸ ha)

/-- Puts several tasks at the end of the queue, one after the other. -/
def wakeAll (s : Scheduler τ σ) (ts : List τ) : Scheduler τ σ := ts.foldl wake s

omit [DecidableEq σ] in
/-- Tasks that are not queued yet are queued in their order. -/
theorem wakeAll_of_nodup {s : Scheduler τ σ} {ts : List τ} (hts : ts.Nodup)
    (hnew : ∀ t ∈ ts, t ∉ s.ready) : s.wakeAll ts = { s with ready := s.ready ++ ts } := by
  induction ts generalizing s with
  | nil => rw [List.append_nil, wakeAll, List.foldl_nil]
  | cons t rest ih =>
    obtain ⟨ht, hrest⟩ := List.nodup_cons.1 hts
    obtain ⟨hfree, hnew⟩ := List.forall_mem_cons.1 hnew
    have hwoken : ∀ u ∈ rest, u ∉ (s.wake t).ready := by
      intro u hu hmem
      rcases mem_ready_wake.1 hmem with hmem | rfl
      · exact hnew u hu hmem
      · exact ht hu
    rw [wakeAll, List.foldl_cons, ← wakeAll, ih hrest hwoken, wake, if_neg hfree]
    simp only [List.append_assoc, List.singleton_append]

/-- The task whose turn it is, and the scheduler without it in the queue. -/
def next? (s : Scheduler τ σ) : Option (τ × Scheduler τ σ) :=
  match s.ready with
  | [] => none
  | t :: rest => some (t, { s with ready := rest })

/-- Takes a task out of the queue, wherever it stands. -/
def take (s : Scheduler τ σ) (t : τ) : Scheduler τ σ := { s with ready := s.ready.erase t }

/-! ### Signals -/

/-- Begins to listen for a signal. Who listens already keeps the place. -/
def listen (s : Scheduler τ σ) (signal : σ) (t : τ) : Scheduler τ σ :=
  if (signal, t) ∈ s.waiting then s else { s with waiting := s.waiting ++ [(signal, t)] }

/-- Wakes everyone who listens for a signal; they stop listening for it. -/
def notify (s : Scheduler τ σ) (signal : σ) : Scheduler τ σ :=
  wakeAll { s with waiting := s.waiting.filter fun w => w.1 ≠ signal }
    ((s.waiting.filter fun w => w.1 = signal).map (·.2))

/-! ### Alarms -/

/-- Cancels the alarm of one layer of a task. -/
def disarm (s : Scheduler τ σ) (t : τ) (layer : Nat) : Scheduler τ σ :=
  { s with alarms := s.alarms.filter fun a => !(a.task = t && a.layer = layer) }

/-- Sets the alarm of one layer of a task, after all alarms that are set already. -/
def arm (s : Scheduler τ σ) (t : τ) (layer due : Nat) : Scheduler τ σ :=
  let s := s.disarm t layer
  { s with alarms := s.alarms ++ [⟨due, t, layer⟩] }

/-- Sets the alarm of one layer of a task, unless it is set already. -/
def armOnce (s : Scheduler τ σ) (t : τ) (layer due : Nat) : Scheduler τ σ :=
  if s.alarms.any fun a => a.task = t && a.layer = layer then s else s.arm t layer due

/-- Ends all waiting of a task, except for the signals that it goes on to listen for. -/
def forgetBut (s : Scheduler τ σ) (keep : σ → Bool) (t : τ) : Scheduler τ σ :=
  { s with
    waiting := s.waiting.filter fun w => w.2 ≠ t || keep w.1
    alarms := s.alarms.filter fun a => a.task ≠ t }

omit [DecidableEq σ] in
/-- A task that forgets listens only for what it keeps, and nobody else is concerned. -/
theorem mem_waiting_forgetBut {s : Scheduler τ σ} {keep : σ → Bool} {t u : τ} {x : σ} :
    (x, u) ∈ (s.forgetBut keep t).waiting ↔ (x, u) ∈ s.waiting ∧ (u = t → keep x = true) := by
  simp [forgetBut, Decidable.imp_iff_not_or]

/-- Ends all waiting of a task. -/
def forget (s : Scheduler τ σ) (t : τ) : Scheduler τ σ := s.forgetBut (fun _ => false) t

/-- The tick of the next alarm. -/
def nextAlarm? (s : Scheduler τ σ) : Option Nat := (s.alarms.map (·.due)).min?

/-- Moves the clock to a tick and rings every alarm that is due then. -/
def ringAt (s : Scheduler τ σ) (tick : Nat) : Scheduler τ σ :=
  wakeAll { s with
      now := tick
      alarms := s.alarms.filter fun a => tick < a.due }
    ((s.alarms.filter fun a => a.due ≤ tick).map (·.task))

/-- Moves the clock to the next alarm, if there is one and it does not lie past the limit. -/
def elapse? (s : Scheduler τ σ) (limit : Option Nat) : Option (Scheduler τ σ) :=
  match s.nextAlarm? with
  | some due => if limit.all (due ≤ ·) then some (s.ringAt (max due s.now)) else none
  | none => none

end Scheduler

/-! ### Systems of tasks -/

/-- A system with tasks: where its scheduler is, and what a task does in its turn. -/
class Tasked (S : Type) (τ σ : outParam Type) where
  scheduler : S → Scheduler τ σ
  reschedule : S → Scheduler τ σ → S
  turn : τ → S → S

namespace Tasked

variable {S τ σ : Type} [Tasked S τ σ] [DecidableEq τ] [DecidableEq σ]

/-- Gives the first task in the queue its turn. -/
def step? (s : S) : Option S :=
  match (scheduler s).next? with
  | some (t, rest) => some (turn t (reschedule s rest))
  | none => none

/-- Gives one turn after the other until nobody is ready, at most `turns` of them. -/
def settle : (turns : Nat) → S → S
  | 0, s => s
  | turns + 1, s =>
    match step? s with
    | some s => settle turns s
    | none => s

/-- The next thing that happens by itself: a turn, or else the clock moves, but not past a limit. -/
def proceed? (limit : Option Nat) (s : S) : Option S :=
  match step? s with
  | some s => some s
  | none => ((scheduler s).elapse? limit).map (reschedule s)

/-- Lets the system run until the clock has reached `tick` and nobody is ready. -/
def runTo (tick : Nat) : (turns : Nat) → S → S
  | 0, s => s
  | turns + 1, s =>
    match proceed? (some tick) s with
    | some s => runTo tick turns s
    | none => reschedule s { scheduler s with now := max tick (scheduler s).now }

/-- Lets the system run until `done` holds, looking after each turn, or until nothing can happen any
more. The tasks that are ready then stay ready. -/
def runUntil (done : S → Bool) : (turns : Nat) → S → S
  | 0, s => s
  | turns + 1, s =>
    if done s then s
    else match proceed? none s with
      | some s => runUntil done turns s
      | none => s

/-- Enough turns for every run that comes to rest. -/
def patience : Nat := Nat.pow 2 40

end Tasked

end PullConsumer
