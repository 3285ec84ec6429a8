import PullConsumer.Proofs.Supervisor.Answers
import PullConsumer.Proofs.Supervisor.Handover

/-!
# The books of starts and stops

Starts and stops may follow one another in any order, several stops may stand in line, and each of
them may be given up wherever it waits. The books stay in order all the same (`bookkeeping`): no
puller is lost, none is waited for after it was found over, a start is refused just as long as an
earlier one was not taken over, and each shutdown is announced once, by the stop that takes over.

What is announced rests on `State.takenOver?_cases`: a step of a call takes over, announces and
cancels, all at once, or it does none of these; and nobody else tells of a shutdown. A stop says
farewell once, when it returns, and not at all if it is given up (`Parting`). And if it has
succeeded, it has left nobody behind for the next one: only the first call in line takes over, so
nobody is told to stop while that call goes from subscription to subscription (`joined_after`).
-/

namespace PullConsumer.Supervisor

/-! ### What is told of a shutdown -/

/-- The events that calls publish are of these kinds, and nobody else's are. -/
def isOfShutdown : EventKind → Bool
  | .shutdownRequested | .drained | .graceExceeded => true
  | _ => false

theorem isOfShutdown_eq_false {kind : EventKind}
    (h : isOfHandling kind = true ∨ isOfHealth kind = true) : isOfShutdown kind = false := by
  revert h
  cases kind <;> decide

namespace Entry

def isOfShutdown : Entry → Bool
  | published e => Supervisor.isOfShutdown e.kind
  | _ => false

/-- A call has told how its wait has ended. -/
def isFarewell : Entry → Bool
  | published e => e.kind = .drained || e.kind = .graceExceeded
  | _ => false

theorem IsOfHandling.isOfShutdown {e : Entry} {x : Binding} (h : e.IsOfHandling x) :
    e.isOfShutdown = false := by
  obtain ⟨event, hkind, rfl⟩ := h
  exact isOfShutdown_eq_false (Or.inl hkind)

theorem IsOfHealth.isOfShutdown {e : Entry} (h : e.IsOfHealth) : e.isOfShutdown = false := by
  obtain ⟨event, hkind, rfl⟩ := h
  exact isOfShutdown_eq_false (Or.inr hkind)

end Entry

theorem Call.kind_shutdown (c : Call) : c.shutdown.kind = .shutdownRequested := by
  rw [shutdown]
  split <;> rfl

namespace State

variable {s : State} {m : Move} {i : Nat}

/-- What a puller tells is about its own subscription. -/
theorem isOfShutdown_of_stride {n : Nat} {p : Puller} {bind : Option (Except BrokerError Unit)}
    {fetch : Option (Except BrokerError Delivery)} {phase : Puller.Phase} {entries : List Entry}
    (h : Stride s n p bind fetch phase entries) : ∀ e ∈ entries, e.isOfShutdown = false := by
  cases h <;> simp [Setup.tells, Entry.isOfShutdown, isOfShutdown, Event.of, Event.withBinding,
    Event.withNames, Event.withAttempt, Event.withReason]

/-- **Only calls tell of a shutdown.** -/
theorem pursue_of_isOfShutdown {e : Entry} (h : e ∈ s.tells m) (he : e.isOfShutdown = true) :
    ∃ n, m = .pursue n := by
  have hquiet {entries : List Entry} (htold : told (s.move m).journal = told s.journal ++ entries)
      (hentries : ∀ e ∈ entries, e.isOfShutdown = false) : ∃ n, m = .pursue n := by
    rw [tells_eq htold] at h
    exact absurd he (by simp [hentries e h])
  have hnothing (hjournal : (s.move m).journal = s.journal) : ∃ n, m = .pursue n :=
    hquiet (by rw [hjournal, List.append_nil]) fun _ h ↦ absurd h List.not_mem_nil
  have huser (hm : m.isOfUser = true) := hnothing (congrArg Books.journal (books_of_user s hm).1)
  have hwatches (h : Watches s (s.move m)) : ∃ n, m = .pursue n := by
    obtain ⟨entries, htold, hentries⟩ := h.told
    exact hquiet htold fun e he ↦ (hentries e he).isOfShutdown
  cases m with
  | pull n =>
    cases hp : s.pullers[n]? with
    | none => exact hnothing (by rw [move, hp])
    | some p =>
      obtain ⟨⟨phase, entries, hstride, hstrode, -⟩, -⟩ := strides_move hp
      exact hquiet hstrode.told (isOfShutdown_of_stride hstride)
  | work n =>
    rcases jobTurn_cases s n with ⟨hturn, -⟩ | ⟨j, -, -, hworks⟩
    · exact hnothing ((congrArg journal hturn).trans rfl)
    · obtain ⟨entries, htold, hentries⟩ := hworks.told
      exact hquiet htold fun e he ↦ (hentries e he).isOfShutdown
  | listen => exact hwatches (watches_listenerTurn s)
  | observe n => exact hwatches (watches_observerTurn s n)
  | pursue n => exact ⟨n, rfl⟩
  | _ => exact huser rfl

/-! ### Announcements -/

/-- A step of a call announces nothing and cancels nothing, or the call takes over and does both. -/
theorem takenOver?_cases (s : State) (n : Nat) :
    (s.takenOver? (.pursue n) = none ∧ (s.move (.pursue n)).tokens = s.tokens ∧
      ∀ e ∈ s.tells (.pursue n), e.tellsOf .shutdownRequested = false) ∨
    ∃ r c, s.takenOver? (.pursue n) = some r ∧ s.calls[n]? = some c ∧ c.phase = .queued ∧
      s.tells (.pursue n) = [.published c.shutdown] ∧
      (s.move (.pursue n)).tokens = (s.cancel r.token).tokens := by
  cases hc : s.calls[n]? with
  | none =>
    have hmove : s.move (.pursue n) = s := by rw [move, hc]
    have htells : s.tells (.pursue n) = [] := tells_eq (by rw [hmove, List.append_nil])
    refine Or.inl ⟨takenOver?_of_running (congrArg running hmove), congrArg tokens hmove, ?_⟩
    exact fun e he ↦ absurd (htells ▸ he) List.not_mem_nil
  | some c =>
    obtain ⟨c', taken, left, entries, hpursuit, hpursued⟩ := pursues_move hc
    have hrunning := hpursued.running
    have htokens := hpursued.tokens
    have htells := tells_eq hpursued.told
    cases hpursuit with
    | take hphase _ =>
      cases hr : s.running with
      | none =>
        rw [hr] at hrunning htokens htells
        refine Or.inl ⟨takenOver?_of_running (hrunning.trans hr.symm), htokens, fun e he ↦ ?_⟩
        exact absurd (htells ▸ he) List.not_mem_nil
      | some r =>
        rw [hr] at hrunning htokens htells
        exact Or.inr ⟨r, c, takenOver?_of_take hr hrunning, rfl, hphase, htells, htokens⟩
    | _ =>
      refine Or.inl ⟨takenOver?_of_running hrunning, htokens, ?_⟩
      rw [htells]
      simp [Entry.tellsOf, Event.of, Event.withTimeout, Event.withReason]

/-- **A call that takes over announces the shutdown and cancels.** -/
theorem takeover {r : Running} (h : s.takenOver? m = some r) : ∃ n c, m = .pursue n ∧
    s.calls[n]? = some c ∧ c.phase = .queued ∧ s.tells m = [.published c.shutdown] ∧
    (s.move m).tokens = (s.cancel r.token).tokens := by
  cases m with
  | pursue n =>
    rcases s.takenOver?_cases n with ⟨hnone, -⟩ | ⟨r', c, htaken, hc⟩
    · exact absurd (h.symm.trans hnone) (by simp)
    · obtain rfl : r' = r := Option.some.inj (htaken.symm.trans h)
      exact ⟨n, c, rfl, hc⟩
  | _ => exact absurd h (by simp [takenOver?])

/-- **Where nothing is taken over, nothing is announced**, and no token is cancelled unless the user
does it. -/
theorem spared (h : s.takenOver? m = none) :
    (∀ e ∈ s.tells m, e.tellsOf .shutdownRequested = false) ∧
      ((∀ token, m ≠ .cancel token) → ∃ more, (s.move m).tokens = s.tokens ++ more) := by
  have hcall {n : Nat} (hm : m = .pursue n) : (s.move (.pursue n)).tokens = s.tokens ∧
      ∀ e ∈ s.tells (.pursue n), e.tellsOf .shutdownRequested = false := by
    subst hm
    rcases s.takenOver?_cases n with ⟨-, hspared⟩ | ⟨r, c, htaken, -⟩
    · exact hspared
    · exact absurd (h.symm.trans htaken) (by simp)
  refine ⟨fun e he ↦ Bool.eq_false_iff.2 fun htells ↦ ?_, fun hcancel ↦ ?_⟩
  · have hshutdown : e.isOfShutdown = true := by
      cases e with
      | published event =>
        have hkind : event.kind = .shutdownRequested := of_decide_eq_true htells
        simp [Entry.isOfShutdown, hkind, isOfShutdown]
      | _ => exact absurd htells (by simp [Entry.tellsOf])
    obtain ⟨n, rfl⟩ := pursue_of_isOfShutdown he hshutdown
    exact absurd htells (by simp [(hcall rfl).2 e he])
  · rcases s.tokens_move m with hmore | ⟨token, rfl | ⟨n, rfl⟩, -⟩
    · exact hmore
    · exact absurd rfl (hcancel token)
    · exact ⟨[], (hcall rfl).1.trans (List.append_nil _).symm⟩

/-- In a move the shutdown is announced as often as something is taken over. -/
theorem countP_tells (s : State) (m : Move) :
    (s.tells m).countP (Entry.tellsOf .shutdownRequested) = (s.takenOver? m).toList.length := by
  cases h : s.takenOver? m with
  | some r =>
    obtain ⟨n, c, -, -, -, htells, -⟩ := takeover h
    rw [htells]
    simp [Entry.tellsOf, c.kind_shutdown]
  | none => exact List.countP_eq_zero.2 fun e he ↦ by simp [(spared h).1 e he]

/-- **The shutdown is announced once for each start that was taken over.** -/
theorem countP_told {plan : Plan} (hbuild : plan.build = .ok s) (moves : List Move) :
    (told (s.after moves).journal).countP (Entry.tellsOf .shutdownRequested) =
      (s.takenOver moves).length := by
  induction moves using List.reverseRecOn with
  | nil =>
    obtain ⟨setup, slots, -, -, -, -, hbooks, -⟩ := Plan.of_build hbuild
    have hjournal : s.journal = [] := congrArg Books.journal hbooks
    rw [after_nil, hjournal]
    rfl
  | append_singleton moves m ih =>
    rw [after_concat, told_move, List.countP_append, ih, countP_tells, takenOver_concat,
      List.length_append]

/-! ### Farewells -/

/-- What a call tells in a move of how its wait has ended. -/
def farewell (s : State) (i : Nat) : Move → List Entry
  | .pursue n => if n = i then (s.tells (.pursue n)).filter Entry.isFarewell else []
  | _ => []

/-- What a call has told in a run of how its wait has ended. -/
def farewells (s : State) (i : Nat) (moves : List Move) : List Entry :=
  (s.steps moves).flatMap fun x ↦ x.1.farewell i x.2

@[simp] theorem farewells_concat (s : State) (i : Nat) (moves : List Move) (m : Move) :
    s.farewells i (moves ++ [m]) = s.farewells i moves ++ (s.after moves).farewell i m := by
  rw [farewells, steps_concat, List.flatMap_append]
  exact congrArg (_ ++ ·) (List.append_nil _)

theorem farewell_of_ne (h : m ≠ .pursue i) : s.farewell i m = [] := by
  cases m with
  | pursue n => exact if_neg fun hn ↦ h (congrArg Move.pursue hn)
  | _ => rfl

theorem farewell_self (s : State) (i : Nat) :
    s.farewell i (.pursue i) = (s.tells (.pursue i)).filter Entry.isFarewell := if_pos rfl

/-- A call that was not made yet has told nothing. -/
theorem farewells_of_absent {moves : List Move} (h : (s.after moves).calls[i]? = none) :
    s.farewells i moves = [] := by
  induction moves using List.reverseRecOn with
  | nil => rfl
  | append_singleton moves m ih =>
    rw [after_concat] at h
    have hbefore : (s.after moves).calls[i]? = none := by
      cases hc : (s.after moves).calls[i]? with
      | none => rfl
      | some c =>
        obtain ⟨c', hc', -⟩ := call_of_move hc m
        exact absurd (hc'.symm.trans h) (by simp)
    rw [farewells_concat, ih hbefore, List.nil_append]
    by_cases hm : m = .pursue i
    · subst hm
      have hmove : (s.after moves).move (.pursue i) = s.after moves := by rw [move, hbefore]
      have htells : (s.after moves).tells (.pursue i) = [] :=
        tells_eq (by rw [hmove, List.append_nil])
      rw [farewell_self, htells]
      rfl
    · exact farewell_of_ne hm

end State

/-- **The answer of a stop and its farewell**: a stop that has not returned has told nothing of its
end. -/
inductive Parting (grace : Duration) : Option (Except RuntimeError Unit) → List Entry → Prop
  | silent : Parting grace none []
  | drained : Parting grace (some (.ok ())) [.published (.of .drained)]
  | exceeded (busy : List String) : Parting grace (some (.error (.graceExceeded grace busy)))
      [.published (((Event.of .graceExceeded).withTimeout grace).withReason
        (Text.joined ", " busy))]

theorem Parting.said_of_none {grace : Duration} {said : List Entry} (h : Parting grace none said) :
    said = [] := by
  cases h with
  | silent => rfl

/-- A call that stops and does nothing else. -/
structure Call.IsStop (c : Call) : Prop where
  failure : c.failure = none
  watching : c.phase ≠ .watching

section Pursuit

variable {s : State} {i : Nat} {c c' : Call} {taken : Option Running} {left : List Nat}
  {entries said : List Entry}

theorem Pursuit.isStop (h : Pursuit s i c c' taken left entries) (hc : c.IsStop) : c'.IsStop := by
  cases h with
  | rest _ => exact hc
  | line hphase _ => exact absurd hphase hc.watching
  | join _ _ _ => exact hc
  | _ => exact ⟨hc.failure, by simp [Call.returns]⟩

/-- Where a call waits it has not been answered. -/
theorem State.Lingers.answer?_eq_none (h : s.Lingers c.phase) : c.answer? = none := by
  generalize hphase : c.phase = phase at h
  cases h with
  | joining _ _ _ => simp [Call.answer?, hphase]
  | emptying _ _ => simp [Call.answer?, hphase]

/-- **A stop says farewell in the step in which it returns.** -/
theorem Pursuit.parting (h : Pursuit s i c c' taken left entries) (hc : c.IsStop)
    (hparting : Parting s.setup.settings.grace (c.answer?.map Prod.snd) said) :
    Parting s.setup.settings.grace (c'.answer?.map Prod.snd)
      (said ++ entries.filter Entry.isFarewell) := by
  have hsilent (hopen : c.answer? = none) : said = [] := by
    rw [hopen] at hparting
    exact hparting.said_of_none
  have hanswer (result : Except RuntimeError Unit) :
      (c.returns s.now result).answer?.map Prod.snd = some result := by
    simp [Call.returns, Call.answer?, Call.answer, hc.failure]
  cases h with
  | rest _ => simpa using hparting
  | line hphase _ => exact absurd hphase hc.watching
  | take hphase _ =>
    have hnothing : (s.running.toList.map fun _ ↦ Entry.published c.shutdown).filter
        Entry.isFarewell = [] := by
      simp [Entry.isFarewell, c.kind_shutdown]
    rw [hsilent (by simp [Call.answer?, hphase]), hnothing]
    exact .silent
  | join _ _ _ => simpa using hparting
  | onward hphase =>
    have hopen : c.answer? = none := by
      rcases hphase with ⟨hphase, -⟩ | ⟨before, hphase⟩
      · simp [Call.answer?, hphase]
      · simp [Call.answer?, hphase]
    rw [hsilent hopen]
    exact .silent
  | finish hphase _ =>
    rw [hsilent (by simp [Call.answer?, hphase]), hanswer]
    exact .drained
  | expire hlingers _ _ =>
    rw [hsilent hlingers.answer?_eq_none, hanswer]
    exact .exceeded _

end Pursuit

namespace State

variable {s : State} {i : Nat} {said : List Entry}

/-- A stop is there, and has told what it should. -/
def Stops (s : State) (i : Nat) (said : List Entry) : Prop :=
  ∃ c, s.calls[i]? = some c ∧ c.IsStop ∧
    Parting s.setup.settings.grace (c.answer?.map Prod.snd) said

/-- **A stop says farewell when it returns**, and at no other time. -/
theorem Stops.move (h : s.Stops i said) (m : Move) :
    (s.move m).Stops i (said ++ s.farewell i m) := by
  obtain ⟨c, hc, hstop, hparting⟩ := h
  rw [Stops, setup_move]
  by_cases hm : m = .pursue i
  · subst hm
    obtain ⟨c', taken, left, entries, hpursuit, hpursued⟩ := pursues_move hc
    have htells : s.tells (.pursue i) = entries := tells_eq hpursued.told
    refine ⟨c', ?_, hpursuit.isStop hstop, ?_⟩
    · rw [hpursued.calls, List.getElem?_set_self (List.getElem?_eq_some_iff.1 hc).1]
    · rw [farewell_self, htells]
      exact hpursuit.parting hstop hparting
  · rw [farewell_of_ne hm, List.append_nil]
    obtain ⟨c', hc', hfares⟩ := call_of_move hc m
    refine ⟨c', hc', ?_⟩
    cases hfares with
    | hears hears =>
      obtain ⟨reports, interrupt, -, rfl⟩ := hears
      exact ⟨⟨hstop.failure, hstop.watching⟩, hparting⟩
    | pursues hpursue _ _ => exact absurd hpursue hm
    | dropped _ hover hdropped =>
      have hopen : c.answer? = none := by
        rw [Call.isOver] at hover
        rw [Call.answer?]
        split
        · next hphase => exact absurd hover (by simp [hphase])
        · rfl
      rw [hopen] at hparting
      rw [hdropped, hparting.said_of_none]
      exact ⟨⟨hstop.failure, by simp⟩, .silent⟩

/-- **What a stop has answered and what it has told go together**, whatever was done before it was
called for and whatever was done since. -/
theorem stops_after (s : State) (before : List Move) (patience : Option Nat) (rest : List Move) :
    (s.after (before ++ .callStop patience :: rest)).Stops (s.after before).calls.length
      (s.farewells (s.after before).calls.length (before ++ .callStop patience :: rest)) := by
  set i := (s.after before).calls.length
  induction rest using List.reverseRecOn with
  | nil =>
    have habsent : (s.after before).calls[i]? = none := List.getElem?_eq_none (Nat.le_refl _)
    rw [after_concat, farewells_concat, farewells_of_absent habsent]
    refine ⟨{ phase := .queued, patienceDue := patience.map ((s.after before).now + ·) }, ?_,
      ⟨rfl, by simp⟩, .silent⟩
    exact (List.getElem?_append_right (Nat.le_refl _)).trans (by simp)
  | append_singleton rest m ih =>
    have hassoc : before ++ .callStop patience :: (rest ++ [m]) =
        (before ++ .callStop patience :: rest) ++ [m] := by simp
    rw [hassoc, after_concat, farewells_concat]
    exact ih.move m

end State

/-! ### Nobody is left behind -/

/-- No puller is to be waited for once a call has come to the slots. -/
def Control.Joined (c : Control) : Prop :=
  ∀ n sub : Nat, c.phases[n]? = some (.emptying sub) → c.stopping = []

/-- Only the first call in line takes over, so it cannot be another one that has come further. -/
theorem Control.Joined.order {b : Books} {c c' : Control} (h : c.Joined) (hled : Led b c)
    (ho : Order b c c') : c'.Joined := by
  -- A call that is not put into such a phase now was in it before.
  have hset {n m sub : Nat} {phase : Call.Phase} (hphase : ∀ sub, phase ≠ .emptying sub)
      (hm : (c.phases.set n phase)[m]? = some (.emptying sub)) :
      m ≠ n ∧ c.phases[m]? = some (.emptying sub) := by
    by_cases hne : m = n
    · subst hne
      exact absurd (Call.phase_of_set hm) (hphase sub)
    · exact ⟨hne, by rwa [List.getElem?_set_ne (Ne.symm hne)] at hm⟩
  intro m sub hm
  cases ho with
  | rest => exact h m sub hm
  | @enter phases line hnew =>
    rw [List.getElem?_append] at hm
    split at hm
    · exact h m sub hm
    · exact absurd (hnew _ (List.mem_of_getElem? hm)) (by simp [Call.Phase.isDrain])
  | line => exact h m sub (hset (by simp) hm).2
  | take hhead =>
    obtain ⟨hne, hold⟩ := hset (by simp) hm
    have hfirst := hled.first m _ hold rfl
    exact absurd (Option.some.inj (hfirst.symm.trans hhead)) hne
  | pop _ _ =>
    show c.stopping.dropLast = []
    rw [h m sub hm]
    rfl
  | joined _ hstopping => exact hstopping
  | @idle n before hphase _ => exact h n before hphase
  | finish _ _ => exact h m sub (hset (by simp) hm).2
  | @leave n phase hnot =>
    refine h m sub (hset (fun sub hphase ↦ ?_) hm).2
    exact absurd hnot (by simp [hphase, Call.Phase.isDrain])

/-- **Where a call has come to the slots, all pullers that were told to stop are over**, all along a
run. -/
theorem joined_after {plan : Plan} {s : State} (hbuild : plan.build = .ok s) (moves : List Move) :
    (s.after moves).control.Joined := by
  induction moves using List.reverseRecOn with
  | nil =>
    obtain ⟨setup, slots, -, -, -, -, -, -, -, hstopping, -⟩ := Plan.of_build hbuild
    exact fun _ _ _ ↦ hstopping
  | append_singleton moves m ih =>
    rw [State.after_concat]
    have hled := (Runs.of_moves s moves).led hbuild
    rcases (s.after moves).order_move m with ⟨horder, -⟩ | ⟨-, phases, hstarts⟩
    · exact ih.order hled horder
    · obtain ⟨r, hcontrol, -⟩ := hstarts.known
      have hphases : ∀ x ∈ phases, x.isDrain = false := by
        intro x hx
        rw [hstarts.watching x hx]
        rfl
      have henter := ih.order hled (.enter [] hphases)
      rw [List.append_nil] at henter
      rw [hcontrol]
      exact henter

/-! ### The books -/

/-- **The books of starts and stops** after some moves, and what the next move does to them. -/
structure Bookkeeping (s : State) (moves : List Move) : Prop where
  /-- Every puller ever put to work is in one place: it belongs to what is running, or is among
  those that were told to stop, or was struck off. -/
  places : ((s.after moves).started ++ (s.after moves).stopping ++ s.joined moves).Perm
    (List.range (s.after moves).pullers.length)
  /-- A puller that was struck off has ended. -/
  ended : ∀ k ∈ s.joined moves, (s.after moves).hasEnded k = true
  /-- Nobody waits for a puller that was struck off. -/
  awaited : ∀ m k, (s.after moves).awaited? m = some k → k ∉ s.joined moves
  /-- A puller that is waited for is struck off at once if it has ended; no other one is. -/
  joins : ∀ m, (s.after moves).joins m =
    ((s.after moves).awaited? m).toList.filter (s.after moves).hasEnded
  /-- A start is refused, and changes nothing, exactly if an earlier one was not taken over. -/
  refused : ∀ parent reporter, (s.after moves).start parent reporter =
      (.error .alreadyStarted, s.after moves) ↔ ∃ r ∈ s.launched moves, r ∉ s.takenOver moves
  /-- Otherwise it succeeds. -/
  accepted : ∀ parent reporter, (∀ r ∈ s.launched moves, r ∈ s.takenOver moves) →
    ∃ t, (s.after moves).start parent reporter = (.ok (), t) ∧ (s.after moves).Launches t
  /-- Starts have tokens of their own. -/
  tokens : ((s.launched moves).map Running.token).Nodup
  /-- What was started is taken over in the same order, each start once; what is left is running. -/
  handed : s.launched moves = s.takenOver moves ++ (s.after moves).running.toList
  /-- As many shutdowns were announced as starts were taken over. -/
  announced : (told (s.after moves).journal).countP (Entry.tellsOf .shutdownRequested) =
    (s.takenOver moves).length
  /-- What was taken over is cancelled. -/
  cancelled : ∀ r ∈ s.takenOver moves, (s.after moves).isCancelled r.token = true
  /-- It is taken over by the call whose turn it is, which announces the shutdown and cancels. -/
  takeover : ∀ m r, (s.after moves).takenOver? m = some r → ∃ n c, m = .pursue n ∧
    (s.after moves).calls[n]? = some c ∧ c.phase = .queued ∧
    (s.after moves).tells m = [.published c.shutdown] ∧
    ((s.after moves).move m).tokens = ((s.after moves).cancel r.token).tokens
  /-- In all other moves nothing is announced, and no token is cancelled unless the user does it. -/
  spared : ∀ m, (s.after moves).takenOver? m = none →
    (∀ e ∈ (s.after moves).tells m, e.tellsOf .shutdownRequested = false) ∧
    ((∀ token, m ≠ .cancel token) →
      ∃ more, ((s.after moves).move m).tokens = (s.after moves).tokens ++ more)
  /-- A stop that was called for has told that it has drained if it has returned with success, or
  that its grace period was exceeded if it has returned with that failure, once; and it has told
  neither if it has not returned. -/
  parting : ∀ before patience rest, moves = before ++ .callStop patience :: rest →
    Parting s.setup.settings.grace
      ((Session.answer? (s.after moves) (s.after before).calls.length).map Prod.snd)
      (s.farewells (s.after before).calls.length moves)
  /-- A call that succeeds leaves nobody to be waited for. -/
  emptied : ∀ m i tick, (s.after moves).Answers m i tick (.ok ()) →
    ((s.after moves).move m).stopping = []

/-- **Starts and stops keep their books in order**, however they follow one another and whatever
calls are given up. -/
theorem bookkeeping {plan : Plan} {s : State} (hbuild : plan.build = .ok s) (moves : List Move) :
    Bookkeeping s moves := by
  have hhanded := State.handed_after hbuild moves
  have hpending := hhanded.pending_iff
  exact {
    places := hhanded.places
    ended := hhanded.ended
    awaited := fun m k hk ↦ hhanded.not_joined hk
    joins := fun m ↦ (hhanded.hands m).gone_eq
    refused := by
      intro parent reporter
      rw [hpending]
      rcases (s.after moves).launch_cases parent reporter with
        ⟨hrunning, hstart⟩ | ⟨t, hstart, hlaunch⟩
      · exact ⟨fun _ ↦ hrunning, fun _ ↦ hstart⟩
      · simp [hstart, hlaunch.stopped]
    accepted := by
      intro parent reporter htaken
      rcases (s.after moves).launch_cases parent reporter with ⟨hrunning, -⟩ | haccepted
      · obtain ⟨r, hr, hnot⟩ := hpending.2 hrunning
        exact absurd (htaken r hr) hnot
      · exact haccepted
    tokens := hhanded.tokens
    handed := hhanded.handed
    announced := State.countP_told hbuild moves
    cancelled := hhanded.cancelled
    takeover := fun m r h ↦ State.takeover h
    spared := fun m h ↦ State.spared h
    parting := by
      rintro before patience rest rfl
      obtain ⟨c, hc, -, hparting⟩ := s.stops_after before patience rest
      rw [Session.answer?, hc, ← (Runs.of_moves s _).setup_eq]
      exact hparting
    emptied := by
      intro m i tick h
      rcases State.answers_cases h with ⟨-, hrefused⟩ |
        ⟨c, result, -, hc, -, hanswer, hconcludes, hstopping⟩
      · exact absurd hrefused (by simp)
      · generalize (s.after moves).tells m = entries at hconcludes
        cases hconcludes with
        | @drained sub hphase =>
          rw [hstopping]
          exact joined_after hbuild moves i sub (by simp [State.control, hc, hphase])
        | exceeded _ =>
          rw [Call.answer] at hanswer
          split at hanswer
          · exact absurd hanswer (by simp)
          · exact absurd hanswer (by simp) }

/-- A stop takes over and is given up; what is started then is stopped by another one, which waits
for both pullers. -/
def Move.restarting : List Move := [
  .start 0, .callStop none, .pursue 0, .giveUp 0, .start 0, .callStop none, .pursue 1,
  .pull 0, .pull 0, .pull 0, .pull 0, .pull 1, .pull 1, .pull 1, .pull 1,
  .pursue 1, .pursue 1, .pursue 1, .pursue 1, .pursue 1]

/-- The small supervisor is stopped twice, and only the second stop comes to its end. -/
theorem bookkeeping_lone : ∃ s : State, Plan.lone.build = .ok s ∧
    (s.takenOver Move.restarting).map Running.pullers = [[0], [1]] ∧
    s.joined Move.restarting = [1, 0] ∧
    (told (s.after Move.restarting).journal).countP (Entry.tellsOf .shutdownRequested) = 2 ∧
    s.farewells 0 Move.restarting = [] ∧
    s.farewells 1 Move.restarting = [.published (.of .drained)] := by
  obtain ⟨s, hbuild, htaken, hjoined, hfirst, hsecond, hgivenUp, hanswer⟩ : ∃ s,
      Plan.lone.build = .ok s ∧ (s.takenOver Move.restarting).map Running.pullers = [[0], [1]] ∧
      s.joined Move.restarting = [1, 0] ∧ (s.after [.start 0]).calls.length = 0 ∧
      (s.after [.start 0, .callStop none, .pursue 0, .giveUp 0, .start 0]).calls.length = 1 ∧
      Session.answer? (s.after Move.restarting) 0 = none ∧
      Session.answer? (s.after Move.restarting) 1 = some (0, .ok ()) :=
    ⟨_, rfl, by rfl, by rfl, rfl, by rfl, by rfl, by rfl⟩
  have hbooks := bookkeeping hbuild Move.restarting
  have hlength : (s.takenOver Move.restarting).length = 2 := by
    simpa using congrArg List.length htaken
  refine ⟨s, hbuild, htaken, hjoined, hbooks.announced.trans hlength, ?_, ?_⟩
  · have hparting := hbooks.parting [.start 0] none _ rfl
    rw [hfirst, hgivenUp] at hparting
    exact hparting.said_of_none
  · have hparting :=
      hbooks.parting [.start 0, .callStop none, .pursue 0, .giveUp 0, .start 0] none _ rfl
    rw [hsecond, hanswer] at hparting
    generalize s.farewells 1 Move.restarting = said at hparting ⊢
    cases hparting with
    | drained => rfl

end PullConsumer.Supervisor
