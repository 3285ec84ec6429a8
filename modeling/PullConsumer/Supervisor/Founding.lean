import PullConsumer.Supervisor

/-!
# Founding a supervisor

`Plan.build` says what comes of a plan. Here the same is told step by step, in a world where others
may be at work: a step may refuse the plan, which ends everything, but who was put to work before
that stays at work. So it counts here, as it cannot in `Plan.build`, that all checks are made before
the first task is put to work.

Both come to the same (`Plan.run_founding`).
-/

namespace PullConsumer.Supervisor

/-- Steps that may put tasks to work and may end with a refusal. -/
abbrev Founding := ExceptT Refusal (StateM (Scheduler Task Signal))

namespace Founding

/-- Puts a task to work. -/
def spawn (t : Task) : Founding Unit := modify (·.wake t)

/-- Goes on with what was found, or refuses the plan for the fault that was found. -/
def checked {α : Type} (found : Except ConfigError α) : Founding α :=
  MonadExcept.ofExcept (found.mapError .invalid)

/-- Opens a channel for each observer, the first of which has the number `first`, and puts the
observers to work. -/
def employ (first : Nat) : List Observer → Founding (List Observer.Channel)
  | [] => return []
  | o :: rest => do
    spawn (.observer first)
    let others ← employ (first + 1) rest
    return { observer := o } :: others

end Founding

open Founding in
/-- Builds the supervisor of a plan. -/
def Plan.founding (p : Plan) : Founding State := do
  checked p.settings.validate
  let bindRetry ← checked p.settings.bindRetry
  let slots ← MonadExcept.ofExcept (pools [] p.subscriptions)
  let ring := Event.Ring.ofCapacity p.settings.ringCapacity
  let channels ← employ 0 p.allObservers
  spawn .listener
  return {
    setup := {
      settings := p.settings
      subscriptions := p.subscriptions
      bindRetry
      client := p.client
      clock := p.clock
      timeOfDay := p.timeOfDay
      metered := p.metered }
    scheduler := ← get
    broker := p.broker
    slots
    ring
    listening := some ring.join
    channels }

/-! ### What the steps come to -/

variable {w : Scheduler Task Signal}

namespace Founding

/-- A step follows another one that is done, and finds at work whom that one has left there. -/
theorem run_bind {α β : Type} (x : Founding α) (f : α → Founding β) :
    (x >>= f).run w = match x.run w with
      | (.ok a, w) => (f a).run w
      | (.error r, w) => (.error r, w) := by
  rw [ExceptT.run_bind]
  show StateT.bind x.run _ w = _
  rw [StateT.bind]
  rcases x.run w with ⟨_ | _, w'⟩ <;> rfl

/-- A look at what was found puts nobody to work. -/
theorem run_ofExcept {α : Type} (found : Except Refusal α) :
    (MonadExcept.ofExcept found : Founding α).run w = (found, w) := by
  cases found <;> rfl

theorem run_checked {α : Type} (found : Except ConfigError α) :
    (checked found).run w = match found with
      | .ok a => (.ok a, w)
      | .error e => (.error (.invalid e), w) := by
  cases found <;> rfl

theorem run_employ (first : Nat) (os : List Observer) (w : Scheduler Task Signal) :
    (employ first os).run w =
      (.ok (os.map fun o => { observer := o }),
        w.wakeAll ((List.range' first os.length).map Task.observer)) := by
  induction os generalizing first w with
  | nil => rfl
  | cons o rest ih =>
    rw [employ, run_bind]
    show (employ (first + 1) rest >>= fun others => pure ({ observer := o } :: others)).run
      (w.wake (.observer first)) = _
    rw [run_bind, ih]
    rfl

end Founding

open Founding in
/-- **Nobody is put to work for a plan that is refused.** For a plan that is accepted, those are put
to work who are ready in a supervisor that was just built. -/
theorem Plan.run_founding (p : Plan) (w : Scheduler Task Signal) :
    p.founding.run w = match p.build with
      | .error r => (.error r, w)
      | .ok s => (.ok { s with scheduler := w.wakeAll s.scheduler.ready },
          w.wakeAll s.scheduler.ready) := by
  rw [founding, build, run_bind, run_checked]
  cases hvalid : p.settings.validate with
  | error e => rfl
  | ok =>
    dsimp only
    rw [run_bind, run_checked]
    cases hretry : p.settings.bindRetry with
    | error e => rfl
    | ok bindRetry =>
      dsimp only
      rw [run_bind, run_ofExcept]
      cases hpools : pools [] p.subscriptions with
      | error r => rfl
      | ok slots =>
        dsimp only
        rw [run_bind, run_employ, List.range_eq_range', Scheduler.wakeAll, Scheduler.wakeAll,
          List.foldl_append]
        rfl

end PullConsumer.Supervisor
