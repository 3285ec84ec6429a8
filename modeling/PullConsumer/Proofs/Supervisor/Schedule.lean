import PullConsumer.Proofs.Supervisor.Move
import PullConsumer.Proofs.Tasks

/-!
# Sessions are runs

Whatever order the scheduler gives the tasks, and whatever the user does in a session, the states
that are passed through are states of a run. So a statement about all runs is one about all
sessions (`Session.runs_takeAll`).

The argument goes by the layers of the program: a change of the scheduler alone is the passing of
time, a turn is a sequence of steps with such changes in between, and a session is a sequence of
turns and of changes by the user.
-/

namespace PullConsumer

namespace Supervisor

namespace Runs

variable {allowed : State → Move → Prop} {s t : State}

/-- Whatever becomes of the scheduler, if the clock does not go back, is the passing of time. -/
theorem pass (s : State) {x : Scheduler Task Signal} {looks : Nat} {roused : Bool}
    (hx : s.now ≤ x.now) : Runs own s { s with scheduler := x, looks, roused } := by
  have hmove : s.move (.pass x looks roused) = { s with scheduler := x, looks, roused } := by
    have hnow : max s.now x.now = x.now := Nat.max_eq_right hx
    simp only [State.move, hnow]
  exact hmove ▸ single rfl

theorem then_pass (h : Runs own s t) {x : Scheduler Task Signal} (hx : t.now ≤ x.now) :
    Runs own s { t with scheduler := x } :=
  h.trans (pass t hx)

end Runs

/-! ### Turns -/

namespace State

theorem runs_wake (s : State) (t : Task) : Runs own s (s.wake t) :=
  Runs.pass s (by simp [now])

theorem runs_notify (s : State) (x : Signal) : Runs own s (s.notify x) :=
  Runs.pass s (by simp [now])

theorem runs_forget (s : State) (t : Task) : Runs own s (s.forget t) :=
  Runs.pass s (Nat.le_refl _)

theorem runs_userWaits (s : State) : Runs own s s.userWaits := by
  rw [userWaits]
  split
  · exact Runs.pass s (by simp [now])
  · exact Runs.refl s

theorem runs_pullerSteps (n budget : Nat) (s : State) : Runs own s (pullerSteps n budget s) := by
  induction budget generalizing s with
  | zero => exact runs_wake s _
  | succ budget ih =>
    rw [pullerSteps]
    split
    · exact Runs.refl s
    · next p hp =>
      have hstep : Runs own s (s.pullerStep n p).1 := by
        have hmove : s.move (.pull n) = (s.pullerStep n p).1 := by simp only [move, hp]
        exact hmove ▸ Runs.single rfl
      split
      · next t hgo => exact hstep.trans (hgo ▸ ih t)
      · next t hwait => rwa [hwait] at hstep

theorem runs_callSteps (n budget : Nat) (s : State) : Runs own s (callSteps n budget s) := by
  induction budget generalizing s with
  | zero => exact Runs.refl s
  | succ budget ih =>
    rw [callSteps]
    split
    · exact Runs.refl s
    · next c hc =>
      have hstep : Runs own s (s.callStep n c).1 := by
        have hmove : s.move (.pursue n) = (s.callStep n c).1 := by simp only [move, hc]
        exact hmove ▸ Runs.single rfl
      split
      · next t hgo => exact hstep.trans (hgo ▸ ih t)
      · next t hwait => rwa [hwait] at hstep

theorem runs_look (s : State) (n : Nat) : Runs own s (s.look n) := by
  unfold look
  refine (runs_callSteps n s.callBudget s).trans ?_
  generalize callSteps n s.callBudget s = t
  dsimp only
  split
  · exact Runs.refl t
  · next c hc =>
    split
    · next due hover _ =>
      split
      · have hmove : t.move (.giveUp n) = t.dropCall n := by
          simp [move, isOver, hc, hover]
        exact hmove ▸ Runs.single rfl
      · exact Runs.pass t (by simp [now])
    · exact Runs.refl t

theorem runs_foldl_look (calls : List Nat) (s : State) : Runs own s (calls.foldl look s) := by
  induction calls generalizing s with
  | nil => exact Runs.refl s
  | cons n rest ih => exact (runs_look s n).trans (ih _)

/-- **Every turn of every task is a run.** -/
theorem runs_turn (s : State) (t : Task) : Runs own s (turn t s) := by
  cases t with
  | puller n =>
    show Runs own s (pullerTurn n s)
    unfold pullerTurn
    refine (runs_forget s (.puller n)).trans ?_
    dsimp only
    split
    · exact runs_pullerSteps n _ _
    · exact Runs.refl _
  | job n => exact Runs.single (m := .work n) rfl
  | listener => exact Runs.single (m := .listen) rfl
  | observer n => exact Runs.single (m := .observe n) rfl
  | user =>
    show Runs own s s.userTurn
    rw [userTurn]
    have hlooks (pending : List Nat) :
        Runs own s (pending.foldl look { s with looks := s.looks + 1 }) :=
      (Runs.pass s (x := s.scheduler) (Nat.le_refl _)).trans (runs_foldl_look pending _)
    dsimp only
    split
    · exact hlooks _
    · exact (hlooks _).trans (runs_userWaits _)

/-! ### Letting tasks run -/

theorem keeps_runs : Tasked.Keeps (Runs own) where
  refl := Runs.refl
  trans := Runs.trans
  turn task s := runs_turn s task
  pass s _ hnow := (Runs.refl s).then_pass hnow

/-! ### Calls -/

theorem runs_callStop (s : State) (patience : Option Nat) : Runs own s (s.callStop patience).2 :=
  (Runs.single (m := .callStop patience) rfl).trans (runs_look _ _)

@[simp] theorem calls_spawnPullers (s : State) (token : Nat) (reporter : Reporter)
    (first left : Nat) : (s.spawnPullers token reporter first left).calls = s.calls := by
  induction left generalizing s first with
  | zero => rfl
  | succ left ih => exact ih _ _

theorem calls_of_start {s t : State} {parent : Nat} {reporter : Reporter}
    (h : s.start parent reporter = (.ok (), t)) : t.calls = s.calls := by
  rw [start] at h
  split at h
  · exact absurd h (by simp)
  · cases h
    exact calls_spawnPullers _ _ _ _ _

theorem callRun_eq (s : State) (patience : Option Nat) :
    (s.callRun patience).2 = (s.enterRun patience).look s.calls.length := by
  rcases hstart : (s.newToken none).2.start (s.newToken none).1 (.call s.calls.length) with
    ⟨cause | _, t⟩
  · simp only [callRun, enterRun, hstart]
    rfl
  · -- The number of the new call is read off before the start here and after it there.
    have hcalls : t.calls.length = s.calls.length :=
      congrArg List.length (calls_of_start (s := (s.newToken none).2) hstart)
    simp only [callRun, enterRun, hstart]
    rw [← hcalls]
    rfl

theorem runs_callRun (s : State) (patience : Option Nat) : Runs own s (s.callRun patience).2 := by
  rw [callRun_eq]
  exact (Runs.single (m := .callRun patience) rfl).trans (runs_look _ _)

end State

/-! ### Sessions -/

namespace Session

open State

theorem runs_publishTimes (m : Message) (stamp : Int) (times : Nat) (s : State) :
    Runs own s (publishTimes m stamp times s).2 := by
  induction times generalizing s with
  | zero => exact Runs.refl s
  | succ times ih =>
    have hsupply : Runs own s (s.move (.supply (.publish m stamp))) := Runs.single rfl
    exact hsupply.trans ((runs_notify _ .arrival).trans (ih _))

theorem runs_await (calls : List Nat) (s : State) : Runs own s (await calls s) := by
  rw [await]
  split
  · exact Runs.refl s
  · exact (runs_userWaits s).trans (keeps_runs.runUntil _ _ _)

theorem runs_atRest (s : State) : Runs own s (atRest s) :=
  (runs_userWaits s).trans (keeps_runs.settle _ _)

/-- Settling a delivery behind the back of its job is the only step of a session that is not the
supervisor's own. -/
def stepAllows : Step → State → Move → Prop
  | .settle .. => anything
  | _ => own

/-- **A step of a session is a run.** -/
theorem runs_take (x : Session) (step : Step) :
    Runs (stepAllows step) x.state (x.take step).2.state := by
  cases step with
  | publish m stamp times => exact runs_publishTimes m stamp times x.state
  | declare c filter => exact Runs.single (m := .supply (.declare c filter)) rfl
  | failFetch e => exact Runs.single (m := .supply (.failFetch e)) rfl
  | failBind e => exact Runs.single (m := .supply (.failBind e)) rfl
  | failSettle e => exact Runs.single (m := .supply (.failSettle e)) rfl
  | settle h settlement =>
    have hmeddle : Runs anything x.state
        (x.state.move (.meddle (x.state.broker.settle h settlement).broker)) := Runs.single trivial
    refine hmeddle.trans ?_
    show Runs anything _ (act x.parent x.state (.settle h settlement)).2
    rw [act]
    simp only
    split
    · exact (runs_notify _ .arrival).mono fun _ _ _ ↦ trivial
    · exact Runs.refl _
  | start => exact Runs.single (m := .start x.parent) rfl
  | cancelParent => exact Runs.single (m := .cancel x.parent) rfl
  | newParent => exact Runs.single (m := .newToken none) rfl
  | advance ticks => exact (runs_userWaits _).trans (keeps_runs.runTo _ _ _)
  | rest => exact runs_atRest x.state
  | stop => exact (runs_callStop _ _).trans (runs_await _ _)
  | stopWithin ticks => exact (runs_callStop _ _).trans (runs_await _ _)
  | stopTwice =>
    exact (runs_callStop _ _).trans ((runs_callStop _ _).trans (runs_await _ _))
  | run patience interrupt =>
    refine (runs_callRun x.state (some patience)).trans ?_
    cases interrupt with
    | none => exact runs_await _ _
    | some name =>
      have hsignal : Runs own (atRest (x.state.callRun (some patience)).2)
          ((atRest (x.state.callRun (some patience)).2).interrupt name) :=
        Runs.single (m := .interrupt name) rfl
      exact (runs_atRest _).trans (hsignal.trans (runs_await _ _))
  | look => exact Runs.refl _

/-- **A session is a run**, and one in which only pullers fetch and only jobs settle unless the user
settles a delivery behind the back of its job. -/
theorem runs_takeAll {allowed : State → Move → Prop} (x : Session) (steps : List Step)
    (hown : ∀ s m, own s m → allowed s m)
    (hsteps : ∀ step ∈ steps, ∀ s m, stepAllows step s m → allowed s m) :
    Runs allowed x.state (x.takeAll steps).2 := by
  induction steps generalizing x with
  | nil => exact (runs_atRest x.state).mono hown
  | cons step rest ih =>
    rw [List.forall_mem_cons] at hsteps
    exact ((runs_take x step).mono hsteps.1).trans (ih (x.take step).2 hsteps.2)

end Session

end Supervisor

end PullConsumer
