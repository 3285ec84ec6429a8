import PullConsumer.Proofs.Supervisor.Causes

/-!
# What a run returns

A run that is called for while another start has not been taken over is refused, and that is all
that becomes of it. Any other run starts a puller for each subscription, which report to it, and
watches. It returns in a step of its own and from nothing but a drain, whose beginning and end are
both steps of the run (`State.Begun`, `State.Concluded`); how far it has come in between is told by
its phase (`State.Progress`). At the beginning nothing is left running, so what the run started was
taken over by then, by the run itself or by another stop before it, and its pullers are told to stop.

What it returns is settled by what ended its watch and by the result of the drain together.
-/

namespace PullConsumer.Supervisor

namespace State

variable {s u : State} {i k began tick : Nat} {c c' : Call} {moves : List Move} {m : Move}
  {r : Running} {result answer : Except RuntimeError Unit}

/-! ### What a run starts -/

/-- A puller is one of those that were put to work for a run. -/
def Serves (s : State) (i : Nat) (r : Running) (k : Nat) : Prop :=
  ∃ p, s.pullers[k]? = some p ∧ p.token = r.token ∧ p.reporter = .call i

/-- No puller passes to another run. -/
theorem Serves.move (h : s.Serves i r k) (m : Move) : (s.move m).Serves i r k := by
  obtain ⟨p, hp, htoken, hreporter⟩ := h
  by_cases hm : m = .pull k
  · subst hm
    obtain ⟨⟨phase, entries, -, hstrode, -⟩, -⟩ := strides_move hp
    exact ⟨{ p with phase }, hstrode.puller hp, htoken, hreporter⟩
  · rcases puller_of_move (s := s) hm with hsame | ⟨hnone, -⟩
    · exact ⟨p, hsame.trans hp, htoken, hreporter⟩
    · exact absurd (hp.symm.trans hnone) (by simp)

theorem Serves.after (h : s.Serves i r k) (moves : List Move) : (s.after moves).Serves i r k := by
  induction moves using List.reverseRecOn with
  | nil => exact h
  | append_singleton moves m ih =>
    rw [after_concat]
    exact ih.move m

/-- What there is when a run has begun: a call that watches, and for each subscription a puller that
reports to it. -/
structure Opens (s t : State) (r : Running) : Prop where
  running : t.running = some r
  call : ∃ c, t.calls[s.calls.length]? = some c ∧ c.Watches
  pullers : r.pullers = (List.range s.setup.subscriptions.length).map (s.pullers.length + ·)
  serves : ∀ k ∈ r.pullers, t.Serves s.calls.length r k

/-- **A run begins where nothing is running.** -/
theorem opens_enterRun (hfree : s.running = none) (patience : Option Nat) :
    ∃ r, Opens s (s.enterRun patience) r := by
  set root := s.newToken none
  set first := root.2.newToken (some root.1)
  set t := first.2.spawnPullers first.1 (.call s.calls.length) 0 s.setup.subscriptions.length
  have hbooks : t.books =
      s.books.spawn first.1 (.call s.calls.length) 0 s.setup.subscriptions.length :=
    books_spawnPullers ..
  have hpullers : t.pullers = s.pullers ++ _ := congrArg Books.pullers hbooks
  have hcalls : t.calls = s.calls := calls_spawnPullers ..
  have hlength : t.pullers.length - s.pullers.length = s.setup.subscriptions.length := by
    simp [hpullers]
  set r : Running := ⟨first.1,
    (List.range (t.pullers.length - s.pullers.length)).map (s.pullers.length + ·)⟩ with hr
  have hstart : (s.newToken none).2.start (s.newToken none).1 (.call s.calls.length) =
      (.ok (), { t with running := some r }) := by
    rw [start, show (s.newToken none).2.running = none from hfree]
    rfl
  have henter : s.enterRun patience = { t with running := some r }.enter
      { phase := .watching, patienceDue := patience.map (s.now + ·) } := by
    simp only [enterRun, hstart]
  rw [hlength] at hr
  rw [henter]
  refine ⟨r, rfl, ⟨{ phase := .watching, patienceDue := patience.map (s.now + ·) }, ?_,
    ⟨rfl, rfl, rfl, rfl, rfl⟩⟩, by rw [hr], fun k hk ↦ ?_⟩
  · show (t.calls ++ [_])[s.calls.length]? = _
    rw [hcalls]
    simp
  · obtain ⟨sub, hsub, rfl⟩ := List.mem_map.1 (hr ▸ hk)
    refine ⟨{ sub, token := first.1, reporter := .call s.calls.length, phase := .fresh }, ?_, rfl,
      rfl⟩
    show t.pullers[_]? = _
    rw [hpullers, List.getElem?_append_right (Nat.le_add_right ..), Nat.add_sub_cancel_left,
      List.getElem?_map, List.getElem?_range' (List.mem_range.1 hsub)]
    simp

/-! ### The drain -/

/-- A call has begun to drain at a tick, which leaves nothing running. -/
def Begun (u : State) (i : Nat) (moves : List Move) (began : Nat) : Prop :=
  ∃ before after, moves = before ++ .pursue i :: after ∧ (u.after before).now = began ∧
    (u.after (before ++ [.pursue i])).running = none

theorem Begun.concat (h : u.Begun i moves began) (m : Move) : u.Begun i (moves ++ [m]) began := by
  obtain ⟨before, after, rfl, hnow, hrunning⟩ := h
  exact ⟨before, after ++ [m], by simp, hnow, hrunning⟩

/-- **How a drain comes to its end** that has begun at a tick: everyone is over, or the grace period
is. -/
inductive Completes (s : State) (began : Nat) (phase : Call.Phase) : Except RuntimeError Unit → Prop
  | drained {sub : Nat} (hphase : phase = .emptying sub)
      (hsub : s.setup.subscriptions.length ≤ sub) (hstopping : s.stopping = []) :
      Completes s began phase (.ok ())
  | exceeded {due : Nat} (h : s.Lingers phase)
      (hgrace : s.setup.settings.graceLimit.bind (s.setup.clock.expires · began) = some due)
      (hdue : due ≤ s.now) :
      Completes s began phase (.error (.graceExceeded s.setup.settings.grace s.busy))

/-- The drain of a call came to its end in a step of the call, with a result. -/
def Concluded (u : State) (i : Nat) (moves : List Move) (tick : Nat)
    (result : Except RuntimeError Unit) : Prop :=
  ∃ before after c began, moves = before ++ .pursue i :: after ∧
    (u.after before).calls[i]? = some c ∧ (u.after before).now = tick ∧
    u.Begun i before began ∧ (u.after before).Completes began c.phase result

theorem Concluded.concat (h : u.Concluded i moves tick result) (m : Move) :
    u.Concluded i (moves ++ [m]) tick result := by
  obtain ⟨before, after, c, began, rfl, h⟩ := h
  exact ⟨before, after ++ [m], c, began, by simp, h⟩

/-- How far a call has come with its drain, some moves after it was made. -/
inductive Progress (u : State) (i : Nat) (moves : List Move) (c : Call) : Prop
  | waits (h : c.phase = .watching ∨ c.phase = .queued)
  | drains {began : Nat} (hphase : c.phase.isDraining = true) (hbegun : u.Begun i moves began)
      (hgrace : c.graceDue = u.setup.settings.graceLimit.bind (u.setup.clock.expires · began))
  | returned {tick : Nat} {result : Except RuntimeError Unit}
      (hphase : c.phase = .returned tick (c.answer result))
      (hconcluded : u.Concluded i moves tick result)
  | dropped {tick : Nat} (hphase : c.phase = .dropped tick)

/-- **A call in line drains when it is the first one**: it takes over what is running, and its grace
period begins. -/
theorem queued_pursue (hc : s.calls[i]? = some c) (hqueued : c.phase = .queued) :
    (s.move (.pursue i)).calls[i]? = some c ∨
    (s.move (.pursue i)).running = none ∧ (s.move (.pursue i)).calls[i]? = some { c with
      phase := .joining
      graceDue := s.setup.settings.graceLimit.bind (s.setup.clock.expires · s.now) } := by
  rw [move_pursue hc, callStep, hqueued]
  dsimp only
  split
  · obtain ⟨hbooks, -, -, hcalls, hrunning, -, -⟩ := pursued_takeOver hc
    have hsetup : (s.takeOver c.reason).setup = s.setup := congrArg Books.setup hbooks
    have hnow : (s.takeOver c.reason).now = s.now := congrArg Books.now hbooks
    refine Or.inr ⟨?_, ?_⟩
    · show (s.takeOver c.reason).running = none
      rw [hrunning]
      cases s.running <;> rfl
    · show ((s.takeOver c.reason).calls.modify i _)[i]? = _
      rw [hcalls, set_self hc, List.getElem?_modify_eq, hc, hsetup, hnow]
      rfl
  · exact Or.inl hc

namespace Progress

/-- A call that stays in its phase has come no further. -/
theorem keep (h : Progress u i moves c) (hphase : c'.phase = c.phase)
    (hgrace : c'.graceDue = c.graceDue) (hfailure : c'.failure = c.failure) (m : Move) :
    Progress u i (moves ++ [m]) c' := by
  cases h with
  | waits h => exact .waits (hphase ▸ h)
  | drains h hbegun hdue => exact .drains (hphase ▸ h) (hbegun.concat m) (hgrace.trans hdue)
  | @returned tick result h hconcluded =>
    have hanswer : c'.answer result = c.answer result := by rw [Call.answer, hfailure, Call.answer]
    exact .returned (hanswer ▸ hphase.trans h) (hconcluded.concat m)
  | dropped h => exact .dropped (hphase.trans h)

/-- A call that drains has begun to. -/
theorem exists_begun (h : Progress u i moves c) (hphase : c.phase.isDraining = true) :
    ∃ began, u.Begun i moves began ∧
      c.graceDue = u.setup.settings.graceLimit.bind (u.setup.clock.expires · began) := by
  cases h with
  | waits h => rcases h with h | h <;> exact absurd hphase (by simp [h, Call.Phase.isDraining])
  | drains _ hbegun hdue => exact ⟨_, hbegun, hdue⟩
  | returned h _ => exact absurd hphase (by simp [h, Call.Phase.isDraining])
  | dropped h => exact absurd hphase (by simp [h, Call.Phase.isDraining])

/-- **A call in its own step.** -/
theorem pursue (h : Progress u i moves c) (hc : (u.after moves).calls[i]? = some c)
    (hjoined : (u.after moves).control.Joined) :
    ∃ c', (u.after (moves ++ [.pursue i])).calls[i]? = some c' ∧
      Progress u i (moves ++ [.pursue i]) c' := by
  have hsetup : (u.after moves).setup = u.setup := (Runs.of_moves u moves).setup_eq
  have hlt : i < (u.after moves).calls.length := (List.getElem?_eq_some_iff.1 hc).1
  -- What is answered now was to be waited for until now.
  have hends {result : Except RuntimeError Unit} (hphase : c.phase.isDraining = true)
      (hcompletes : ∀ began,
        c.graceDue = u.setup.settings.graceLimit.bind (u.setup.clock.expires · began) →
        (u.after moves).Completes began c.phase result) :
      Progress u i (moves ++ [.pursue i]) (c.returns (u.after moves).now result) := by
    obtain ⟨began, hbegun, hdue⟩ := h.exists_begun hphase
    exact .returned rfl ⟨moves, [], c, began, rfl, hc, rfl, hbegun, hcompletes began hdue⟩
  rw [after_concat]
  by_cases hqueued : c.phase = .queued
  · rcases queued_pursue hc hqueued with hcalls | ⟨hrunning, hcalls⟩
    · exact ⟨c, hcalls, h.keep rfl rfl rfl _⟩
    · have hbegun : u.Begun i (moves ++ [.pursue i]) (u.after moves).now :=
        ⟨moves, [], rfl, rfl, by rwa [after_concat]⟩
      exact ⟨_, hcalls, .drains rfl hbegun (by rw [hsetup])⟩
  · obtain ⟨c', taken, left, entries, hpursuit, hpursued⟩ := pursues_move hc
    refine ⟨c', by rw [hpursued.calls, List.getElem?_set_self hlt], ?_⟩
    cases hpursuit with
    | rest _ => exact h.keep rfl rfl rfl _
    | line _ _ => exact .waits (Or.inr rfl)
    | take hphase _ => exact absurd hphase hqueued
    | join _ _ _ => exact h.keep rfl rfl rfl _
    | onward hphase =>
      have hdraining : c.phase.isDraining = true := by
        rcases hphase with ⟨hphase, -⟩ | ⟨before, hphase⟩ <;> rw [hphase] <;> rfl
      obtain ⟨began, hbegun, hdue⟩ := h.exists_begun hdraining
      exact .drains rfl (hbegun.concat _) hdue
    | @finish sub hphase hsub =>
      refine hends (by rw [hphase]; rfl) fun began _ ↦ .drained hphase hsub ?_
      exact hjoined i sub (by simp [State.control, hc, hphase])
    | expire hwait hgrace hdue =>
      refine hends ?_ fun began hbegan ↦ .exceeded hwait (hsetup ▸ hbegan.symm.trans hgrace) hdue
      generalize c.phase = phase at hwait
      cases hwait <;> rfl

/-- **A call goes on**, whoever moves. -/
theorem concat (h : Progress u i moves c) (hc : (u.after moves).calls[i]? = some c)
    (hjoined : (u.after moves).control.Joined) (m : Move) :
    ∃ c', (u.after (moves ++ [m])).calls[i]? = some c' ∧ Progress u i (moves ++ [m]) c' := by
  by_cases hm : m = .pursue i
  · subst hm
    exact h.pursue hc hjoined
  · rw [after_concat]
    obtain ⟨c', hc', hfares⟩ := call_of_move hc m
    refine ⟨c', hc', ?_⟩
    cases hfares with
    | hears hears =>
      obtain ⟨reports, interrupt, -, rfl⟩ := hears
      have hphase : { c with reports := c.reports ++ reports, interrupt }.phase = c.phase := rfl
      exact h.keep hphase rfl rfl m
    | pursues hpursue _ _ => exact absurd hpursue hm
    | dropped _ _ hdropped => exact .dropped (congrArg Call.phase hdropped)

end Progress

/-- **Every run has come so far**, whatever is done since it was called for. -/
theorem progress_after (hc : u.calls[i]? = some c) (hwatching : c.phase = .watching)
    (hjoined : ∀ moves, (u.after moves).control.Joined) (moves : List Move) :
    ∃ c', (u.after moves).calls[i]? = some c' ∧ Progress u i moves c' := by
  induction moves using List.reverseRecOn with
  | nil => exact ⟨c, hc, .waits (Or.inl hwatching)⟩
  | append_singleton moves m ih =>
    obtain ⟨c', hc', h⟩ := ih
    exact h.concat hc' (hjoined moves) m

/-! ### What was started is stopped -/

/-- What is running goes on running until it is taken over. -/
theorem running_move (hr : s.running = some r) (m : Move) :
    (s.move m).running = some r ∨ s.takenOver? m = some r := by
  by_cases hpursue : ∃ n, m = .pursue n
  · obtain ⟨n, rfl⟩ := hpursue
    cases hc : s.calls[n]? with
    | none => exact Or.inl (by rw [move, hc, hr])
    | some c =>
      obtain ⟨c', taken, left, entries, -, hpursued⟩ := pursues_move hc
      have hrunning := hpursued.running
      cases taken with
      | none => exact Or.inl (hrunning.trans hr)
      | some r' => exact Or.inr (takenOver?_of_take hr hrunning)
  · rcases launches_of_not_pursue (s := s) (m := m) fun n hn ↦ hpursue ⟨n, hn⟩ with
      ⟨hrunning, -⟩ | ⟨-, hlaunch⟩
    · exact Or.inl (hrunning.trans hr)
    · exact absurd (hr.symm.trans hlaunch.stopped) (by simp)

theorem running_after (hr : u.running = some r) (moves : List Move) :
    (u.after moves).running = some r ∨ r ∈ u.takenOver moves := by
  induction moves using List.reverseRecOn with
  | nil => exact Or.inl hr
  | append_singleton moves m ih =>
    rw [after_concat, takenOver_concat, List.mem_append]
    rcases ih with hrunning | htaken
    · rcases running_move hrunning m with hrunning | htaken
      · exact Or.inl hrunning
      · exact Or.inr (Or.inr (Option.mem_toList.2 htaken))
    · exact Or.inr (Or.inl htaken)

theorem takenOver_append (s : State) (moves more : List Move) :
    s.takenOver (moves ++ more) = s.takenOver moves ++ (s.after moves).takenOver more := by
  rw [takenOver, steps_append, List.filterMap_append]
  rfl

/-- **When a call has begun to drain, what was running before is taken over.** -/
theorem Begun.takeover (h : u.Begun i moves began) (hr : u.running = some r) :
    r ∈ u.takenOver moves := by
  obtain ⟨before, after, rfl, -, hrunning⟩ := h
  rw [← List.singleton_append, ← List.append_assoc, takenOver_append]
  refine List.mem_append_left _ ((running_after hr _).resolve_left fun hstill ↦ ?_)
  exact absurd (hstill.symm.trans hrunning) (by simp)

/-! ### The answer of a run -/

/-- What a call was told before it was over, it is told for good. -/
theorem answer?_after (h : Session.answer? u i = some (tick, result)) (moves : List Move) :
    Session.answer? (u.after moves) i = some (tick, result) := by
  induction moves using List.reverseRecOn with
  | nil => exact h
  | append_singleton moves m ih =>
    obtain ⟨c, hc, hanswer⟩ := Option.bind_eq_some_iff.1 ih
    have hphase := answer?_eq_some hanswer
    obtain ⟨c', hc', hfares⟩ := call_of_move hc m
    have hphase' := (phase_of_over hfares (by rw [Call.isOver, hphase])).trans hphase
    rw [after_concat, Session.answer?, hc', Option.bind_some, Call.answer?, hphase']

/-- **What a run has to show for its answer.** It began as call `i` in a state `u`, started `r`, and
some moves later it has been answered. -/
structure Accounted (u : State) (i : Nat) (r : Running) (moves : List Move) (tick : Nat)
    (answer : Except RuntimeError Unit) (cause : Cause) (result : Except RuntimeError Unit) :
    Prop where
  /-- What ended its watch is what it found first. -/
  triggered : Triggered u i moves cause
  /-- If it was a signal, the signal had come. -/
  signal : ∀ name, cause = .signal name → .interrupt name ∈ moves
  /-- If it was a failure, it is the first one that was reported to the run, whatever was reported
  later. -/
  failure : ∀ f, cause = .failure f → (u.heard i moves).head? = some f
  /-- The answer was given at the end of its drain. -/
  concluded : u.Concluded i moves tick result
  /-- A failure is the answer whatever the drain came to; after a signal the drain decides. -/
  answer : answer = cause.answer result
  /-- What the run started was taken over by a stop. -/
  takeover : r ∈ u.takenOver moves
  /-- If the run itself took over, it has told the world why, and nothing else in that step. -/
  told : ∀ x ∈ u.steps moves, x.2 = .pursue i → (x.1.takenOver? x.2).isSome →
    x.1.tells x.2 = [.published cause.shutdown]
  /-- Every puller that it started is told to stop. -/
  cancelled : ∀ k ∈ r.pullers, ∃ p, (u.after moves).pullers[k]? = some p ∧
    p.reporter = .call i ∧ (u.after moves).isCancelled p.token = true

/-- **What becomes of a run that is called for**, and what it has been told some moves later. -/
structure Returns (s : State) (patience : Option Nat) (rest : List Move) : Prop where
  /-- Where a start has not been taken over, it is refused on the spot, and nothing else changes. -/
  refused : s.running.isSome = true →
    s.move (.callRun patience) = s.enter { phase := .returned s.now (.error .alreadyStarted) } ∧
    Session.answer? (s.after (.callRun patience :: rest)) s.calls.length =
      some (s.now, .error .alreadyStarted)
  /-- Otherwise it begins, and can account for every answer. -/
  accounted : s.running = none → ∃ r, Opens s (s.move (.callRun patience)) r ∧
    ∀ tick answer, Session.answer? (s.after (.callRun patience :: rest)) s.calls.length =
        some (tick, answer) →
      ∃ cause result, Accounted (s.move (.callRun patience)) s.calls.length r rest tick answer cause
        result

/-- The failure that was reported first stays the first one. -/
theorem head?_heard {before after : List Move} {f : RuntimeError}
    (h : (u.heard i before).head? = some f) : (u.heard i (before ++ after)).head? = some f := by
  rw [heard_append, List.head?_append, h]
  rfl

/-- **A run accounts for its answer.** -/
theorem accounted_of_answer {before : List Move} {plan : Plan} (hbuild : plan.build = .ok s)
    (hu : u = s.after before) (hr : u.running = some r) (hc : u.calls[i]? = some c)
    (hwatches : c.Watches) (hserves : ∀ k ∈ r.pullers, u.Serves i r k)
    (hanswer : Session.answer? (u.after moves) i = some (tick, answer)) :
    ∃ cause result, Accounted u i r moves tick answer cause result := by
  have hafter (moves : List Move) : s.after (before ++ moves) = u.after moves := by
    rw [after_append, hu]
  have hjoined (moves : List Move) : (u.after moves).control.Joined :=
    hafter moves ▸ joined_after hbuild (before ++ moves)
  obtain ⟨d, hd, hprogress⟩ := progress_after hc hwatches.phase hjoined moves
  obtain ⟨d', hd', hcourse⟩ := course_after hc hwatches moves
  obtain rfl : d' = d := Option.some.inj (hd'.symm.trans hd)
  rw [Session.answer?, hd, Option.bind_some] at hanswer
  have hphase := answer?_eq_some hanswer
  cases hprogress with
  | waits h => rcases h with h | h <;> exact absurd (h.symm.trans hphase) (by simp)
  | drains h _ _ => exact absurd h (by simp [hphase, Call.Phase.isDraining])
  | dropped h => exact absurd (h.symm.trans hphase) (by simp)
  | @returned tick' result h hconcluded =>
    obtain ⟨rfl, rfl⟩ := Call.Phase.returned.inj (h.symm.trans hphase)
    cases hcourse with
    | watches h _ _ _ _ _ => exact absurd (h.symm.trans hphase) (by simp)
    | forsaken h => exact absurd (h.symm.trans hphase) (by simp)
    | ended cause htriggered _ _ hfailure htold =>
      obtain ⟨first, last, _, began, hsplit, -, -, hbegun, -⟩ := id hconcluded
      obtain ⟨early, late, -, hmoves, -, -, hcause⟩ := id htriggered
      have htaken : r ∈ u.takenOver moves := by
        rw [hsplit, takenOver_append]
        exact List.mem_append_left _ (hbegun.takeover hr)
      refine ⟨cause, result, htriggered, ?_, ?_, hconcluded, ?_, htaken, htold, ?_⟩
      · rintro name rfl
        rw [hmoves]
        exact List.mem_append_left _ (interrupt_mem_of_signalled (signalled_of_cause? hcause))
      · rintro f rfl
        rw [hmoves]
        exact head?_heard (head?_heard_of_cause? hcause)
      · rw [Call.answer, hfailure]
        cases cause <;> rfl
      · intro k hk
        obtain ⟨p, hp, htoken, hreporter⟩ := (hserves k hk).after moves
        refine ⟨p, hp, hreporter, ?_⟩
        rw [htoken, ← hafter]
        refine (handed_after hbuild (before ++ moves)).cancelled r ?_
        rw [takenOver_append, ← hu]
        exact List.mem_append_right _ htaken

/-- **A run reports what ended it**, whatever happened before it was called for and whatever happens
since. -/
theorem returns_run {plan : Plan} (hbuild : plan.build = .ok s) (before : List Move)
    (patience : Option Nat) (rest : List Move) : Returns (s.after before) patience rest where
  refused hrunning := by
    have hmove : (s.after before).move (.callRun patience) = (s.after before).enter
        { phase := .returned (s.after before).now (.error .alreadyStarted) } := by
      rcases (s.after before).launchRun_cases patience with ⟨-, henter⟩ | hlaunch
      · exact henter
      · exact absurd hrunning (by simp [hlaunch.stopped])
    have hanswer : Session.answer? ((s.after before).move (.callRun patience))
        (s.after before).calls.length = some ((s.after before).now, .error .alreadyStarted) := by
      rw [hmove]
      show (((s.after before).calls ++ [_])[(s.after before).calls.length]?).bind _ = _
      simp [Call.answer?]
    exact ⟨hmove, answer?_after hanswer rest⟩
  accounted hfree := by
    obtain ⟨r, hopens⟩ := opens_enterRun hfree patience
    obtain ⟨c, hc, hwatches⟩ := hopens.call
    refine ⟨r, hopens, fun tick answer hanswer ↦ ?_⟩
    have hu : (s.after before).move (.callRun patience) = s.after (before ++ [.callRun patience]) :=
      (after_concat ..).symm
    exact accounted_of_answer hbuild hu hopens.running hc hwatches hopens.serves hanswer

end State

/-- The first fetch of a run fails, and a signal comes when the run has found that out. -/
def Move.failing : List Move := [
  .supply (.failFetch (.unavailable "x")), .pull 0, .pull 0, .pull 0, .pull 0, .pursue 0,
  .interrupt "SIGTERM", .pursue 0, .pull 0, .pull 0, .pursue 0, .pursue 0, .pursue 0, .pursue 0]

open State in
/-- The small supervisor reports the failure and ignores the signal; a run that is called for
meanwhile is refused. -/
theorem returns_run_lone : ∃ s : State, Plan.lone.build = .ok s ∧ s.running = none ∧
    (∃ r cause result, Opens s (s.move (.callRun none)) r ∧
      Accounted (s.move (.callRun none)) 0 r Move.failing 0
        (.error (.subscriptionFailed "s/c" (.unavailable "x"))) cause result) ∧
    (s.after [.callRun none]).running.isSome = true ∧
    (s.after [.callRun none]).Returns none [] := by
  obtain ⟨s, hbuild, hfree, hcalls, hanswer, hrunning⟩ : ∃ s, Plan.lone.build = .ok s ∧
      s.running = none ∧ s.calls.length = 0 ∧
      Session.answer? (s.after (.callRun none :: Move.failing)) 0 =
        some (0, .error (.subscriptionFailed "s/c" (.unavailable "x"))) ∧
      (s.after [.callRun none]).running.isSome = true :=
    ⟨_, rfl, rfl, rfl, by rfl, rfl⟩
  have hreturns : s.Returns none Move.failing := returns_run hbuild [] none Move.failing
  obtain ⟨r, hopens, haccounted⟩ := hreturns.accounted hfree
  rw [hcalls] at haccounted
  obtain ⟨cause, result, hcause⟩ := haccounted 0 _ hanswer
  exact ⟨s, hbuild, hfree, ⟨r, cause, result, hopens, hcause⟩, hrunning,
    returns_run hbuild [.callRun none] none []⟩

end PullConsumer.Supervisor
