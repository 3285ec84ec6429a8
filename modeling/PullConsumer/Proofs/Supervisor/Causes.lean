import PullConsumer.Proofs.Supervisor.Hearing
import PullConsumer.Proofs.Supervisor.Stops

/-!
# What ends a run

A run watches until there is a cause to end it: a signal to the process, or the failure of one of
its subscriptions. What it finds first it keeps: the reason that it will give for the shutdown, and
the failure, if it was one (`Course.ended`). From then on it is a stop like any other, and whatever
else fails while it drains changes neither. So the answer is settled by the cause and the result of
the drain together (`Cause.answer`), and the cause can be read off what has happened before the
step that found it (`State.cause?`).

A signal and a failure may both be there when the run looks. It finds the signal then; that it finds
the failure is the course in which the signal comes after that step, and is ignored.
-/

namespace PullConsumer.Supervisor

/-- What ends a run. -/
inductive Cause where
  | signal (name : String)
  | failure (f : RuntimeError)
  deriving DecidableEq, Inhabited

namespace Cause

/-- The reason that is given for the shutdown. -/
def reason : Cause → String
  | signal name => name
  | failure _ => "fatal"

def failure? : Cause → Option RuntimeError
  | signal _ => none
  | failure f => some f

/-- The answer of a run whose drain has a result: a failure outweighs it. -/
def answer (result : Except RuntimeError Unit) : Cause → Except RuntimeError Unit
  | signal _ => result
  | failure f => .error f

/-- The announcement of the shutdown. -/
def shutdown (x : Cause) : Event := (Event.of .shutdownRequested).withReason x.reason

end Cause

/-- A call that has just begun to watch. -/
structure Call.Watches (c : Call) : Prop where
  phase : c.phase = .watching
  reports : c.reports = []
  interrupt : c.interrupt = none
  reason : c.reason = none
  failure : c.failure = none

/-- The last signal to the process. -/
def signalled (moves : List Move) : Option String := (moves.filterMap Move.signal?).getLast?

theorem signalled_concat (moves : List Move) (m : Move) :
    signalled (moves ++ [m]) = m.signal?.or (signalled moves) := by
  rw [signalled, List.filterMap_append, signalled]
  cases hm : m.signal? with
  | none => simp [hm]
  | some name => simp [hm]

theorem interrupt_mem_of_signalled {moves : List Move} {name : String}
    (h : signalled moves = some name) : .interrupt name ∈ moves := by
  obtain ⟨m, hm, hname⟩ := List.mem_filterMap.1 (List.mem_of_getLast? h)
  cases m with
  | interrupt other => exact Option.some.inj hname ▸ hm
  | _ => exact absurd hname (by simp [Move.signal?])

namespace State

variable {s u : State} {i : Nat} {c c' : Call} {moves : List Move} {m : Move} {cause : Cause}

/-- What there is to end a run that has watched for some moves: a signal, or else the first failure
that was reported to it. -/
def cause? (u : State) (i : Nat) (moves : List Move) : Option Cause :=
  match signalled moves, u.heard i moves with
  | some name, _ => some (.signal name)
  | none, f :: _ => some (.failure f)
  | none, [] => none

theorem head?_heard_of_cause? {f : RuntimeError} (h : u.cause? i moves = some (.failure f)) :
    (u.heard i moves).head? = some f := by
  rw [cause?] at h
  split at h
  · exact absurd h (by simp)
  · next g rest _ hheard =>
    rw [hheard]
    simpa using h
  · exact absurd h (by simp)

theorem signalled_of_cause? {name : String} (h : u.cause? i moves = some (.signal name)) :
    signalled moves = some name := by
  rw [cause?] at h
  split at h
  · next hsignalled =>
    rw [hsignalled]
    simpa using h
  · exact absurd h (by simp)
  · exact absurd h (by simp)

/-! ### The watch -/

/-- **What a run that watches does in its own step**: it finds a cause and stands in line to drain,
or watches on. -/
theorem watching_pursue (hc : s.calls[i]? = some c) (hwatching : c.phase = .watching) :
    (∃ name, c.interrupt = some name ∧ (s.move (.pursue i)).calls[i]? =
      some { c with phase := .queued, reason := some name }) ∨
    (∃ f rest, c.interrupt = none ∧ c.reports = f :: rest ∧ (s.move (.pursue i)).calls[i]? =
      some { c with phase := .queued, reason := some "fatal", failure := some f }) ∨
    (c.interrupt = none ∧ c.reports = [] ∧ (s.move (.pursue i)).calls[i]? = some c) := by
  have hjoin (f : Call → Call) : (s.joinLine i f).1.calls[i]? =
      some { f c with phase := .queued } := by
    show (s.calls.modify i fun c ↦ { f c with phase := .queued })[i]? = _
    rw [List.getElem?_modify_eq, hc]
    rfl
  rw [move_pursue hc, callStep, hwatching]
  dsimp only
  split
  · next name hsignal => exact Or.inl ⟨name, hsignal, hjoin _⟩
  · next f rest hsignal hreports => exact Or.inr (Or.inl ⟨f, rest, hsignal, hreports, hjoin _⟩)
  · next hsignal hreports => exact Or.inr (Or.inr ⟨hsignal, hreports, hc⟩)

/-- A call that is not in line takes nothing over. -/
theorem takenOver?_of_not_queued (hc : s.calls[i]? = some c) (hphase : c.phase ≠ .queued) :
    s.takenOver? (.pursue i) = none := by
  rcases s.takenOver?_cases i with ⟨hnone, -⟩ | ⟨r, d, -, hd, hqueued, -⟩
  · exact hnone
  · obtain rfl : d = c := Option.some.inj (hd.symm.trans hc)
    exact absurd hqueued hphase

/-! ### The course of a run -/

/-- A run has watched until its own step found a cause. -/
def Triggered (u : State) (i : Nat) (moves : List Move) (cause : Cause) : Prop :=
  ∃ before after c, moves = before ++ .pursue i :: after ∧ (u.after before).calls[i]? = some c ∧
    c.phase = .watching ∧ u.cause? i before = some cause

theorem Triggered.concat (h : Triggered u i moves cause) (m : Move) :
    Triggered u i (moves ++ [m]) cause := by
  obtain ⟨before, after, c, rfl, hc, hwatching, hcause⟩ := h
  exact ⟨before, after ++ [m], c, by simp, hc, hwatching, hcause⟩

/-- A call was in a watch that some moves ago had just begun. -/
inductive Course (u : State) (i : Nat) (moves : List Move) (c : Call) : Prop
  /-- It watches, knows what has happened, and has taken nothing over. -/
  | watches (hphase : c.phase = .watching) (hreports : c.reports = u.heard i moves)
      (hinterrupt : c.interrupt = signalled moves) (hreason : c.reason = none)
      (hfailure : c.failure = none)
      (hnothing : ∀ x ∈ u.steps moves, x.2 = .pursue i → x.1.takenOver? x.2 = none)
  /-- It was given up while it watched. -/
  | forsaken {tick : Nat} (hphase : c.phase = .dropped tick)
  /-- A cause was found. It is the one that is told of when something is taken over. -/
  | ended (cause : Cause) (htriggered : Triggered u i moves cause) (hphase : c.phase ≠ .watching)
      (hreason : c.reason = some cause.reason) (hfailure : c.failure = cause.failure?)
      (htold : ∀ x ∈ u.steps moves, x.2 = .pursue i → (x.1.takenOver? x.2).isSome →
        x.1.tells x.2 = [.published cause.shutdown])

/-- A call that does not watch keeps its reason and its failure, whoever moves. -/
theorem kept_of_fares (hfares : Fares s m i c c') (hphase : c.phase ≠ .watching) :
    c'.phase ≠ .watching ∧ c'.reason = c.reason ∧ c'.failure = c.failure := by
  cases hfares with
  | hears h =>
    obtain ⟨reports, interrupt, -, rfl⟩ := h
    exact ⟨hphase, rfl, rfl⟩
  | dropped _ _ h => rw [h]; exact ⟨by simp, rfl, rfl⟩
  | pursues _ h _ =>
    cases h with
    | rest _ => exact ⟨hphase, rfl, rfl⟩
    | join _ _ _ => exact ⟨hphase, rfl, rfl⟩
    | line hwatching _ => exact absurd hwatching hphase
    | _ => exact ⟨by simp [Call.returns], rfl, rfl⟩

/-- A call that is over stays so. -/
theorem phase_of_over (hfares : Fares s m i c c') (hover : c.isOver = true) :
    c'.phase = c.phase := by
  have hopen {phase : Call.Phase} (h : c.phase = phase)
      (hphase : ({ c with phase } : Call).isOver = false) : c'.phase = c.phase := by
    subst h
    exact absurd hover (by simp [show c.isOver = false from hphase])
  cases hfares with
  | hears h =>
    obtain ⟨reports, interrupt, -, rfl⟩ := h
    rfl
  | dropped _ hopen _ => exact absurd hover (by simp [hopen])
  | pursues _ h _ =>
    cases h with
    | rest _ => rfl
    | join _ _ _ => rfl
    | line h _ => exact hopen h rfl
    | take h _ => exact hopen h rfl
    | onward h =>
      rcases h with ⟨h, -⟩ | ⟨before, h⟩
      · exact hopen h rfl
      · exact hopen h rfl
    | finish h _ => exact hopen h rfl
    | expire h _ _ =>
      generalize hphase : c.phase = phase at h
      cases h with
      | joining _ _ _ => exact (hopen hphase rfl).trans hphase
      | emptying _ _ => exact (hopen hphase rfl).trans hphase

/-- What is true of every step stays true if it is true of one more. -/
theorem forall_steps_concat {P : State × Move → Prop} (h : ∀ x ∈ u.steps moves, P x)
    (hlast : P (u.after moves, m)) : ∀ x ∈ u.steps (moves ++ [m]), P x := by
  intro x hx
  rw [steps_concat] at hx
  rcases List.mem_append.1 hx with hx | hx
  · exact h x hx
  · rw [List.mem_singleton.1 hx]
    exact hlast

/-- **A run that watches.** -/
theorem course_of_watching (hc : (u.after moves).calls[i]? = some c)
    (h : Course u i moves c) (hwatching : c.phase = .watching) (m : Move) :
    ∃ c', (u.after (moves ++ [m])).calls[i]? = some c' ∧ Course u i (moves ++ [m]) c' := by
  cases h with
  | forsaken hphase => exact absurd (hphase.symm.trans hwatching) (by simp)
  | ended _ _ hphase _ _ _ => exact absurd hwatching hphase
  | watches hphase hreports hinterrupt hreason hfailure hnothing =>
    rw [after_concat]
    by_cases hpursue : m = .pursue i
    · subst hpursue
      have hnone : (u.after moves).takenOver? (.pursue i) = none :=
        takenOver?_of_not_queued hc (by simp [hwatching])
      have hsteps : ∀ x ∈ u.steps (moves ++ [.pursue i]), x.2 = .pursue i →
          x.1.takenOver? x.2 = none := forall_steps_concat hnothing fun _ ↦ hnone
      have htold (e : Entry) : ∀ x ∈ u.steps (moves ++ [.pursue i]), x.2 = .pursue i →
          (x.1.takenOver? x.2).isSome → x.1.tells x.2 = [e] := by
        intro x hx hpursue htaken
        rw [hsteps x hx hpursue] at htaken
        exact absurd htaken (by simp)
      have htriggered {cause : Cause} (hcause : u.cause? i moves = some cause) :
          Triggered u i (moves ++ [.pursue i]) cause :=
        ⟨moves, [], c, rfl, hc, hwatching, hcause⟩
      rcases watching_pursue hc hwatching with
        ⟨name, hsignal, hcalls⟩ | ⟨f, rest, hsignal, hfailed, hcalls⟩ | ⟨hsignal, hquiet, hcalls⟩
      · refine ⟨_, hcalls, .ended (.signal name) (htriggered ?_) (by simp) rfl hfailure (htold _)⟩
        rw [cause?, ← hinterrupt, hsignal]
      · refine ⟨_, hcalls, .ended (.failure f) (htriggered ?_) (by simp) rfl rfl (htold _)⟩
        rw [cause?, ← hinterrupt, ← hreports, hsignal, hfailed]
      · have hheard : (u.after moves).heardIn i (.pursue i) = [] := heardIn_eq_nil (by simp)
        refine ⟨c, hcalls, .watches hphase ?_ ?_ hreason hfailure hsteps⟩
        · rw [heard_concat, hheard, List.append_nil, hreports]
        · rw [signalled_concat, hinterrupt]
          rfl
    · have hsteps : ∀ x ∈ u.steps (moves ++ [m]), x.2 = .pursue i →
          x.1.takenOver? x.2 = none := forall_steps_concat hnothing fun h ↦ absurd h hpursue
      by_cases hgiveUp : m = .giveUp i
      · subst hgiveUp
        have hover : (u.after moves).isOver i = false := by
          simp [isOver, hc, Call.isOver, hwatching]
        have hmove : (u.after moves).move (.giveUp i) = (u.after moves).dropCall i :=
          if_neg (by simp [hover])
        refine ⟨{ c with phase := .dropped (u.after moves).now }, ?_, .forsaken rfl⟩
        rw [hmove, calls_dropCall, List.getElem?_modify_eq, hc]
        rfl
      · refine ⟨_, watching_move hc hwatching hpursue hgiveUp,
          .watches hphase ?_ ?_ hreason hfailure hsteps⟩
        · rw [heard_concat, ← hreports]
        · rw [signalled_concat, ← hinterrupt]

/-- **The course of a run goes on.** -/
theorem Course.concat (h : Course u i moves c) (hc : (u.after moves).calls[i]? = some c) (m : Move) :
    ∃ c', (u.after (moves ++ [m])).calls[i]? = some c' ∧ Course u i (moves ++ [m]) c' := by
  by_cases hwatching : c.phase = .watching
  · exact course_of_watching hc h hwatching m
  · obtain ⟨c', hc', hfares⟩ := call_of_move hc m
    refine ⟨c', by rw [after_concat, hc'], ?_⟩
    cases h with
    | watches hphase _ _ _ _ _ => exact absurd hphase hwatching
    | forsaken hphase =>
      exact .forsaken ((phase_of_over hfares (by rw [Call.isOver, hphase])).trans hphase)
    | ended cause htriggered hphase hreason hfailure htold =>
      obtain ⟨hphase', hreason', hfailure'⟩ := kept_of_fares hfares hphase
      refine .ended cause (htriggered.concat m) hphase' (hreason'.trans hreason)
        (hfailure'.trans hfailure) (forall_steps_concat htold fun hpursue htaken ↦ ?_)
      dsimp only at hpursue htaken ⊢
      subst hpursue
      obtain ⟨r, htaken⟩ := Option.isSome_iff_exists.1 htaken
      obtain ⟨n, d, hn, hd, -, htells, -⟩ := takeover htaken
      cases hn
      obtain rfl : d = c := Option.some.inj (hd.symm.trans hc)
      rw [htells, Call.shutdown, hreason]
      rfl

/-- **Every run has its course**, whatever is done since it was called for. -/
theorem course_after (hc : u.calls[i]? = some c) (h : c.Watches) (moves : List Move) :
    ∃ c', (u.after moves).calls[i]? = some c' ∧ Course u i moves c' := by
  induction moves using List.reverseRecOn with
  | nil =>
    exact ⟨c, hc, .watches h.phase h.reports h.interrupt h.reason h.failure
      fun x hx ↦ absurd hx List.not_mem_nil⟩
  | append_singleton moves m ih =>
    obtain ⟨c', hc', hcourse⟩ := ih
    exact hcourse.concat hc' m

end State

end PullConsumer.Supervisor
