import PullConsumer.Proofs.Supervisor.Silence

/-!
# What a call hears

A puller that fails reports it once, and whoever made its start is told. Where that is a call, the
failure is put behind those that the call has heard of before. So what a call has heard of is told
by the journal (`State.heard`): the failures of its pullers, as they were reported, in their order.
Nobody else has a call hear of a failure, and nobody but the process an interrupt.

A call that watches does nothing but listen, until it looks after itself in its own step or is given
up; what it knows by then is what it has heard and the last interrupt (`State.watching_move`).
-/

namespace PullConsumer.Supervisor

namespace State

variable {s t : State} {n i : Nat} {p : Puller} {c : Call} {m : Move}

/-! ### What calls hear in a move -/

/-- What a call hears of an entry: the failure of a puller that reports to it. -/
def hears (s : State) (i : Nat) : Entry → Option RuntimeError
  | .fatal n cause =>
    match s.pullers[n]? with
    | some p =>
      if p.reporter = .call i then some (.subscriptionFailed (s.name p.sub) cause) else none
    | none => none
  | _ => none

/-- What a call hears in a move. -/
def heardIn (s : State) (i : Nat) (m : Move) : List RuntimeError := (s.tells m).filterMap (s.hears i)

/-- The failures that were reported to a call in a run, the first one first. -/
def heard (s : State) (i : Nat) (moves : List Move) : List RuntimeError :=
  (s.steps moves).flatMap fun x ↦ x.1.heardIn i x.2

@[simp] theorem heard_append (s : State) (i : Nat) (moves more : List Move) :
    s.heard i (moves ++ more) = s.heard i moves ++ (s.after moves).heard i more := by
  rw [heard, steps_append, List.flatMap_append]
  rfl

theorem heard_concat (s : State) (i : Nat) (moves : List Move) (m : Move) :
    s.heard i (moves ++ [m]) = s.heard i moves ++ (s.after moves).heardIn i m := by
  rw [heard_append]
  exact congrArg (_ ++ ·) (List.append_nil _)

/-- Of all entries only reports are heard of. -/
theorem filterMap_hears (s : State) (i : Nat) (entries : List Entry) :
    entries.filterMap (s.hears i) = (entries.filter Entry.isReport).filterMap (s.hears i) := by
  rw [List.filterMap_filter]
  refine List.filterMap_congr fun e _ ↦ ?_
  cases e <;> rfl

/-- What a puller tells in a step is about itself. -/
theorem hears_of_stride (hp : s.pullers[n]? = some p) {bind : Option (Except BrokerError Unit)}
    {fetch : Option (Except BrokerError Delivery)} {phase : Puller.Phase} {entries : List Entry}
    (h : Stride s n p bind fetch phase entries) : ∀ e ∈ entries, s.hears i e = s.failureFor p i e := by
  have hpair (event : Event) (cause : BrokerError) :
      ∀ e ∈ [s.setup.tells p.sub event, .fatal n cause], s.hears i e = s.failureFor p i e := by
    intro e he
    rcases List.mem_cons.1 he with rfl | he
    · rfl
    · rw [List.mem_singleton.1 he, hears, failureFor, hp]
  have hone (event : Event) :
      ∀ e ∈ [s.setup.tells p.sub event], s.hears i e = s.failureFor p i e := by
    intro e he
    rw [List.mem_singleton.1 he]
    rfl
  cases h with
  | begin _ => exact hone _
  | bound _ => exact hone _
  | refused _ _ => exact hpair _ _
  | failed _ _ => exact hpair _ _
  | stop _ _ => exact hone _
  | _ => exact fun e he ↦ absurd he List.not_mem_nil

/-- **A call hears in a step of a puller what the puller reports.** -/
theorem calls_pull (hp : s.pullers[n]? = some p) (hc : s.calls[i]? = some c) :
    (s.move (.pull n)).calls[i]? =
      some { c with reports := c.reports ++ s.heardIn i (.pull n) } := by
  obtain ⟨⟨phase, entries, hstride, hstrode, hreported⟩, -⟩ := strides_move hp
  have hheard : s.heardIn i (.pull n) = entries.filterMap (s.failureFor p i) := by
    rw [heardIn, tells_eq hstrode.told]
    exact List.filterMap_congr (hears_of_stride hp hstride)
  rw [hreported i, hc, hheard]
  rfl

/-- **Only pullers report failures.** -/
theorem pull_of_isReport {e : Entry} (h : e ∈ s.tells m) (he : e.isReport = true) :
    ∃ n, m = .pull n := by
  have hquiet {entries : List Entry} (htold : told (s.move m).journal = told s.journal ++ entries)
      (hentries : ∀ e ∈ entries, ∃ event, e = .published event) : ∃ n, m = .pull n := by
    rw [tells_eq htold] at h
    obtain ⟨event, rfl⟩ := hentries e h
    exact absurd he (by simp [Entry.isReport])
  have hnothing (hjournal : (s.move m).journal = s.journal) : ∃ n, m = .pull n :=
    hquiet (by rw [hjournal, List.append_nil]) fun _ h ↦ absurd h List.not_mem_nil
  have huser (hm : m.isOfUser = true) := hnothing (congrArg Books.journal (books_of_user s hm).1)
  have hwatches (h : Watches s (s.move m)) : ∃ n, m = .pull n := by
    obtain ⟨entries, htold, hentries⟩ := h.told
    refine hquiet htold fun e he ↦ ?_
    obtain ⟨event, -, hevent⟩ := hentries e he
    exact ⟨event, hevent⟩
  cases m with
  | pull n => exact ⟨n, rfl⟩
  | work n =>
    rcases jobTurn_cases s n with ⟨hturn, -⟩ | ⟨j, -, -, hworks⟩
    · exact hnothing ((congrArg journal hturn).trans rfl)
    · obtain ⟨entries, htold, hentries⟩ := hworks.told
      refine hquiet htold fun e he ↦ ?_
      obtain ⟨event, -, hevent⟩ := hentries e he
      exact ⟨_, hevent⟩
  | listen => exact hwatches (watches_listenerTurn s)
  | observe n => exact hwatches (watches_observerTurn s n)
  | pursue n =>
    cases hc : s.calls[n]? with
    | none => exact hnothing (by rw [move, hc])
    | some c =>
      obtain ⟨c', taken, left, entries, hpursuit, hpursued⟩ := pursues_move hc
      refine hquiet hpursued.told fun e he ↦ ?_
      cases hpursuit with
      | take _ _ =>
        obtain ⟨r, -, rfl⟩ := List.mem_map.1 he
        exact ⟨_, rfl⟩
      | finish _ _ => exact ⟨_, List.mem_singleton.1 he⟩
      | expire _ _ _ => exact ⟨_, List.mem_singleton.1 he⟩
      | _ => exact absurd he List.not_mem_nil
  | _ => exact huser rfl

/-- In any other move nobody hears of a failure. -/
theorem heardIn_eq_nil (hm : ∀ n, m ≠ .pull n) : s.heardIn i m = [] := by
  rw [heardIn, filterMap_hears, List.filter_eq_nil_iff.2 fun e he hreport ↦ ?_]
  · rfl
  · obtain ⟨n, hn⟩ := pull_of_isReport he hreport
    exact hm n hn

/-- A puller that is not there reports nothing. -/
theorem heardIn_of_absent (hp : s.pullers[n]? = none) : s.heardIn i (.pull n) = [] := by
  have hmove : s.move (.pull n) = s := by rw [move, hp]
  have htells : s.tells (.pull n) = [] := tells_eq (by rw [hmove, List.append_nil])
  rw [heardIn, htells]
  rfl

end State

/-- The signal to the process that a move is, by its name. -/
def Move.signal? : Move → Option String
  | .interrupt name => some name
  | _ => none

namespace State

variable {s : State} {i : Nat} {c : Call} {m : Move}

/-- **A call that watches only listens**, whoever else moves. -/
theorem watching_move (hc : s.calls[i]? = some c) (hwatching : c.phase = .watching)
    (hpursue : m ≠ .pursue i) (hgiveUp : m ≠ .giveUp i) : (s.move m).calls[i]? =
      some { c with
        reports := c.reports ++ s.heardIn i m, interrupt := m.signal?.or c.interrupt } := by
  have hlt : i < s.calls.length := (List.getElem?_eq_some_iff.1 hc).1
  -- Most moves are none of a puller and no interrupt, and leave the call as it is.
  have hstays (hpull : ∀ n, m ≠ .pull n) (hsignal : m.signal? = none)
      (h : (s.move m).calls[i]? = some c) : (s.move m).calls[i]? = some { c with
        reports := c.reports ++ s.heardIn i m, interrupt := m.signal?.or c.interrupt } := by
    rw [h, heardIn_eq_nil hpull, hsignal, List.append_nil]
    rfl
  have hsame (h : (s.move m).calls = s.calls) : (s.move m).calls[i]? = some c := h ▸ hc
  have hmore {more : List Call} (h : (s.move m).calls = s.calls ++ more) :
      (s.move m).calls[i]? = some c := by
    rw [h, List.getElem?_append_left hlt]
    exact hc
  cases m with
  | pull n =>
    cases hp : s.pullers[n]? with
    | none =>
      rw [heardIn_of_absent hp, hsame (by rw [move, hp]), List.append_nil]
      rfl
    | some p => exact calls_pull hp hc
  | work n =>
    refine hstays (by simp) rfl (hsame ?_)
    rcases jobTurn_cases s n with ⟨hturn, -⟩ | ⟨j, -, -, hworks⟩
    · exact (congrArg calls hturn).trans rfl
    · exact hworks.calls
  | listen => exact hstays (by simp) rfl (hsame (watches_listenerTurn s).calls)
  | observe n => exact hstays (by simp) rfl (hsame (watches_observerTurn s n).calls)
  | pursue n =>
    refine hstays (by simp) rfl ?_
    have hne : n ≠ i := fun h ↦ hpursue (congrArg Move.pursue h)
    cases hk : s.calls[n]? with
    | none => exact hsame (by rw [move, hk])
    | some d =>
      obtain ⟨d', taken, left, entries, -, hpursued⟩ := pursues_move hk
      rw [hpursued.calls, List.getElem?_set_ne hne]
      exact hc
  | giveUp n =>
    refine hstays (by simp) rfl ?_
    have hne : n ≠ i := fun h ↦ hgiveUp (congrArg Move.giveUp h)
    by_cases hover : s.isOver n = true
    · exact hsame (congrArg calls (if_pos hover))
    · have hmove : s.move (.giveUp n) = s.dropCall n := if_neg hover
      rw [hmove, calls_dropCall, List.getElem?_modify]
      simpa [hne] using hc
  | start parent =>
    refine hstays (by simp) rfl ?_
    rcases launch_cases s parent .callback with ⟨-, hstart⟩ | ⟨t, hstart, hlaunch⟩
    · exact hsame (congrArg (fun x ↦ x.2.calls) hstart)
    · obtain ⟨more, hcalls, -⟩ := hlaunch.calls
      exact hmore ((congrArg (fun x ↦ x.2.calls) hstart).trans hcalls)
  | callRun patience =>
    refine hstays (by simp) rfl ?_
    rcases launchRun_cases s patience with ⟨-, henter⟩ | hlaunch
    · exact hmore ((congrArg calls henter).trans rfl)
    · obtain ⟨more, hcalls, -⟩ := hlaunch.calls
      exact hmore hcalls
  | callStop patience => exact hstays (by simp) rfl (hmore rfl)
  | interrupt name =>
    have hcalls : (s.move (.interrupt name)).calls[i]? = some { c with interrupt := some name } := by
      refine (List.getElem?_map ..).trans ((congrArg _ hc).trans ?_)
      simp only [Option.map_some, hwatching]
    have hnothing : s.heardIn i (.interrupt name) = [] := heardIn_eq_nil (by simp)
    rw [hcalls, hnothing, List.append_nil]
    rfl
  | newToken parent => exact hstays (by simp) rfl (hsame rfl)
  | cancel token => exact hstays (by simp) rfl (hsame (calls_cancel s token))
  | abandon => exact hstays (by simp) rfl (hsame rfl)
  | supply x => exact hstays (by simp) rfl (hsame rfl)
  | meddle x => exact hstays (by simp) rfl (hsame rfl)
  | pass x looks roused => exact hstays (by simp) rfl (hsame rfl)

end State

end PullConsumer.Supervisor
