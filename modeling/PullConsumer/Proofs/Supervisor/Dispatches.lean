import PullConsumer.Proofs.Supervisor.Launches
import PullConsumer.Proofs.Supervisor.Marks

/-!
# Dispatches

A delivery is dispatched by the job that was begun for it. What a job does in one turn is known;
here it is followed along a whole run, in which anybody may move at any time. The turns of a job
with the marks that it left in each are its course, and a course is told by two things: each turn
does to the books what its marks say and nothing else, and the marks of all turns together are those
of a dispatch, cut off where the job stands now (`Job.Stage`). How many turns a job needs does not
matter: it may do everything in one, or wait in between.

What the marks depend on is looked up in the states in which they were left: whether the broker
knew when the message was published, how the plan of the handler ended, and what the broker answered
to the settlement. One does not depend on another: strangers may change the broker between any two
turns, so every answer can come with every result.

The last theorem says that this is all that ever becomes of a job (`State.dispatched`). There is no
other way for it to end, and as long as it is there, every turn in which it has nothing to wait for
takes it further.
-/

namespace PullConsumer.Supervisor

/-! ### How jobs begin -/

/-- The job that puller number `n` begins for the delivery that it is given, if it is given one. -/
def Puller.jobFor (p : Puller) (n number : Nat) :
    Option (Except BrokerError Delivery) → Option Job
  | some (.ok d) => some {
      number, puller := n, sub := p.sub, token := p.token, delivery := d, count := 0
      phase := .fresh }
  | _ => none

namespace State

variable {s t : State} {n k : Nat} {p : Puller}

/-- One more job is begun, or none. -/
structure Grows (s : State) (new : Option Job) (t : State) : Prop where
  jobs : t.jobs = s.jobs ++ new.toList
  count : t.jobsBegun = s.jobsBegun + new.toList.length

theorem Grows.of_books (h : t.books.jobs = s.books.jobs ∧ t.books.jobsBegun = s.books.jobsBegun) :
    Grows s none t :=
  ⟨h.1.trans (List.append_nil _).symm, h.2⟩

theorem grows_bindStep (errors : List String) : Grows s none (s.bindStep n p errors).1 := by
  obtain ⟨answer, x, htry⟩ : ∃ answer x, s.tryBind p = (answer, { s with broker := x }) := by
    rw [tryBind]
    split
    · exact ⟨_, _, rfl⟩
    · exact ⟨_, s.broker, rfl⟩
  refine .of_books ?_
  rw [bindStep]
  simp only [htry]
  cases answer with
  | ok _ =>
    rw [books_goTo, books_publishFor]
    exact ⟨rfl, rfl⟩
  | error cause =>
    dsimp only
    split
    · split
      · exact ⟨rfl, rfl⟩
      · split <;> exact ⟨rfl, rfl⟩
    · split
      · exact ⟨rfl, rfl⟩
      · simp only [books_goTo, books_reportFatal, books_publishFor, books_measure]
        exact ⟨rfl, rfl⟩

theorem grows_headStep : Grows s none (s.headStep n p).1 := by
  rw [headStep]
  split
  · exact .of_books ⟨rfl, rfl⟩
  · set t := (s.note (.gauge p.sub (s.inUse p.sub))).measure p.sub (.concurrency (s.inUse p.sub))
      with ht
    have hroll : t.books.jobs = s.books.jobs ∧ t.books.jobsBegun = s.books.jobsBegun := by
      rw [ht, books_measure]
      exact ⟨rfl, rfl⟩
    dsimp only
    split
    · next u htake =>
      obtain ⟨pool, pool', -, -, rfl⟩ := takeSlot?_eq_some htake
      exact .of_books hroll
    · exact .of_books hroll

theorem grows_fetchStep (f : Broker.Fetch) (found : Broker.Fetch.Progress × Broker) :
    Grows s (p.jobFor n s.jobsBegun found.1.answer?) (s.fetchStep n p f found).1 := by
  obtain ⟨progress, x⟩ := found
  rw [fetchStep]
  cases progress with
  | waiting => exact .of_books ⟨rfl, rfl⟩
  | finished answer =>
    cases answer with
    | ok d => exact ⟨rfl, rfl⟩
    | error cause =>
      refine .of_books ?_
      cases cause with
      | timeout d => exact ⟨rfl, rfl⟩
      | _ =>
        simp only [books_goTo, books_reportFatal, books_publishFor, books_measure]
        exact ⟨rfl, rfl⟩

theorem grows_reachStep :
    Grows s (p.jobFor n s.jobsBegun (s.reachAnswer? p)) (s.reachStep n p).1 := by
  rw [reachStep_eq, reachAnswer?_eq]
  beta_reduce
  cases Broker.Fetch.start s.now (s.binding p.sub).toConsumerId (s.fetchTimeout p.sub) with
  | ok f =>
    have hgrows := grows_fetchStep (s := s.note (.fetchBegun n)) (n := n) (p := p) f
      (f.firstLook s.now s.broker)
    exact ⟨hgrows.jobs, hgrows.count⟩
  | error cause => exact .of_books ⟨rfl, rfl⟩

/-- A puller begins a job in the step in which it is given a delivery, and in no other. -/
theorem grows_pullerStep (s : State) (n : Nat) (p : Puller) :
    Grows s (p.jobFor n s.jobsBegun (s.fetchAnswer? p)) (s.pullerStep n p).1 := by
  have hwait {t : State} (h : t.books = s.books) : Grows s none t :=
    .of_books ⟨congrArg Books.jobs h, congrArg Books.jobsBegun h⟩
  rw [pullerStep, fetchAnswer?]
  cases p.phase with
  | fresh => exact .of_books ⟨rfl, rfl⟩
  | binding errors => exact grows_bindStep errors
  | rebinding errors due =>
    dsimp only
    split
    · exact .of_books ⟨rfl, rfl⟩
    · split
      · exact .of_books ⟨rfl, rfl⟩
      · exact hwait (by rw [books_arm, books_listen])
  | head => exact grows_headStep
  | crowded due =>
    dsimp only
    split
    · exact .of_books ⟨rfl, rfl⟩
    · split
      · exact .of_books ⟨rfl, rfl⟩
      · exact hwait (by rw [books_arm, books_listen])
  | reaching due =>
    dsimp only
    split
    · exact grows_reachStep
    · exact hwait rfl
  | fetching f => exact grows_fetchStep f (f.look s.now s.broker)
  | leaving =>
    dsimp only
    split
    · exact .of_books ⟨rfl, rfl⟩
    · exact hwait (books_listen ..)
  | finished => exact hwait rfl
  | crashed cause => exact hwait rfl

theorem number_jobFor {number : Nat} {answer : Option (Except BrokerError Delivery)} {j : Job}
    (h : p.jobFor n number answer = some j) : j.number = number ∧ j.puller = n ∧
      j.phase = .fresh := by
  unfold Puller.jobFor at h
  split at h
  · obtain rfl := Option.some.inj h
    exact ⟨rfl, rfl, rfl⟩
  · exact absurd h (by simp)

/-- **Jobs are begun by pullers only**, when they are given a delivery. -/
theorem grows_move {m : Move} (hm : ∀ i, m ≠ .work i) : Grows s none (s.move m) ∨
    ∃ n p, m = .pull n ∧ s.pullers[n]? = some p ∧
      Grows s (p.jobFor n s.jobsBegun (s.fetchAnswer? p)) (s.move m) := by
  have hsame {t : State} (h : t = s) : Grows s none t :=
    .of_books (h ▸ ⟨rfl, rfl⟩)
  have hbooks {b : Books} (h : (s.move m).books = b) (hb : b.jobs = s.jobs)
      (hb' : b.jobsBegun = s.jobsBegun) : Grows s none (s.move m) :=
    .of_books (h ▸ ⟨hb, hb'⟩)
  have huser (h : m.isOfUser = true) := hbooks (books_of_user s h).1 rfl rfl
  cases m with
  | pull n =>
    cases hp : s.pullers[n]? with
    | none => exact Or.inl (hsame (by rw [move, hp]))
    | some p => exact Or.inr ⟨n, p, rfl, hp, move_pull hp ▸ grows_pullerStep s n p⟩
  | work i => exact absurd rfl (hm i)
  | listen => exact Or.inl (hbooks (watches_listenerTurn s).books rfl rfl)
  | observe n => exact Or.inl (hbooks (watches_observerTurn s n).books rfl rfl)
  | pursue n =>
    cases hc : s.calls[n]? with
    | none => exact Or.inl (hsame (by rw [move, hc]))
    | some c =>
      obtain ⟨c', taken, left, entries, -, hpursued⟩ := pursues_move hc
      exact Or.inl (hbooks hpursued.books rfl rfl)
  | _ => exact Or.inl (huser rfl)

/-! ### One job among others -/

theorem job?_of_grows {new : Option Job} (h : Grows s new t)
    (hnew : ∀ j, new = some j → j.number = s.jobsBegun) (hk : k < s.jobsBegun) :
    t.job? k = s.job? k := by
  rw [job?, h.jobs, List.find?_append, job?]
  have hnone : new.toList.find? (·.number = k) = none := by
    rw [List.find?_eq_none]
    intro j hj
    rw [Option.mem_toList] at hj
    have hnumber := hnew j hj
    simp only [decide_eq_true_eq]
    omega
  rw [hnone, Option.or_none]

/-- Before a job is begun there is none of its number. -/
theorem job?_eq_none (hb : s.books.Recorded) (hk : s.jobsBegun ≤ k) : s.job? k = none := by
  rw [job?, List.find?_eq_none]
  intro i hi
  have hlt : i.number < s.jobsBegun := hb.begun i hi
  simp only [decide_eq_true_eq]
  omega

theorem job?_of_begun (hb : s.books.Recorded) {j : Job} (h : Grows s (some j) t)
    (hj : j.number = s.jobsBegun) : t.job? s.jobsBegun = some j := by
  have hnone : s.jobs.find? (·.number = s.jobsBegun) = none := job?_eq_none hb (Nat.le_refl _)
  rw [job?, h.jobs, List.find?_append, hnone, Option.none_or]
  simp [hj]

/-- The turn of a job, told by the job that is left of it. -/
theorem turn_of_job? {j : Job} (hb : s.books.Recorded) (hj : s.job? k = some j) :
    ∃ marks, Job.Turn s j marks ((s.jobTurn k).job? k) ∧
      (s.jobTurn k).books = (s.books.leaveAll j.sub marks).replace k ((s.jobTurn k).job? k) := by
  obtain ⟨marks, next, hturn, hbooks⟩ := turn_jobTurn hb hj
  have hnext : ∀ i, next = some i → i.number = k := (of_job? hj).2 ▸ hturn.number_eq
  have hleft : (s.jobTurn k).job? k = next := by
    rw [job?, show (s.jobTurn k).jobs = _ from congrArg Books.jobs hbooks]
    refine Books.find?_replace_self (j := j) ?_ hnext
    rw [(Books.leaveAll_frame ..).2.2.1]
    exact hj
  rw [hleft]
  exact ⟨marks, hturn, hbooks⟩

/-- Where there is no job there is no turn. -/
theorem jobTurn_of_none (h : s.job? k = none) : s.jobTurn k = s.forget (.job k) := by
  unfold jobTurn
  dsimp only
  rw [show (s.forget (.job k)).jobs.find? (·.number = k) = none from h]

/-- The turn of a job leaves the others as they are. -/
theorem jobs_of_work (hb : s.books.Recorded) (i : Nat) : (s.jobTurn i).jobsBegun = s.jobsBegun ∧
    ∀ k, i ≠ k → (s.jobTurn i).job? k = s.job? k := by
  cases hi : s.job? i with
  | none =>
    rw [jobTurn_of_none hi]
    exact ⟨rfl, fun _ _ ↦ rfl⟩
  | some j =>
    obtain ⟨marks, next, hturn, hbooks⟩ := turn_jobTurn hb hi
    obtain ⟨-, -, hjobs, hbegun⟩ := s.books.leaveAll_frame j.sub marks
    refine ⟨(congrArg Books.jobsBegun hbooks).trans hbegun, fun k hne ↦ ?_⟩
    have hnext : ∀ i', next = some i' → i'.number = i := (of_job? hi).2 ▸ hturn.number_eq
    rw [job?, show (s.jobTurn i).jobs = _ from congrArg Books.jobs hbooks,
      Books.find?_replace_of_ne hnext hne, hjobs]
    rfl

end State

/-! ### The turns of a job in a run -/

/-- A move in which job number `k` has its turn. -/
def Move.isTurnOf (k : Nat) : Move → Bool
  | work n => n = k
  | _ => false

theorem Move.isTurnOf_eq_false {m : Move} (hm : ∀ i, m ≠ .work i) (k : Nat) :
    m.isTurnOf k = false := by
  cases m with
  | work i => exact absurd rfl (hm i)
  | _ => rfl

/-- The turns that a job has in a run, each given by the state in which it begins. -/
def State.turns (s : State) (k : Nat) (moves : List Move) : List State :=
  ((s.steps moves).filter fun x ↦ x.2.isTurnOf k && (x.1.job? k).isSome).map (·.1)

namespace Job

/-- Some marks were left in a turn of a course. -/
def LeftIn (course : List (State × List Mark)) (u : State) (marks : List Mark) : Prop :=
  ∃ all, (u, all) ∈ course ∧ marks <:+: all

/-- The handler of a job ends in a state, to which what is left of its plan has led. -/
def Ends (s : State) (j : Job) (plan : List Handler.Act) (r : HandlerResult) : Prop :=
  ∃ rest, rest <:+ plan ∧ Stance.after s.now (s.isCancelled j.token) rest = .ended r

/-- **How far a job has come in a course**: what there is of it now, and all of the marks that it
has left. `j` is the job as it was begun. -/
inductive Stage (j : Job) (course : List (State × List Mark)) : Option Job → List Mark → Prop
  | begun : Stage j course (some j) []
  /-- The handler was called in `u`; some of its plan may be behind it. -/
  | called {u : State} {lag : Option Duration} {count : Nat} {plan rest : List Handler.Act}
      {phase : Phase} (hu : LeftIn course u (j.opening lag count))
      (hcalls : Calls u j lag count plan) (hphase : phase.rest? = some rest)
      (hrest : rest <:+ plan) :
      Stage j course (some { j with count, phase }) (j.opening lag count)
  /-- The handler has ended in `v`, where the settlement was asked for. -/
  | ended {u v : State} {lag : Option Duration} {count : Nat} {plan : List Handler.Act}
      {r : HandlerResult} (hu : LeftIn course u (j.opening lag count))
      (hcalls : Calls u j lag count plan) (hv : LeftIn course v (j.ending count r))
      (hends : Ends v j plan r) :
      Stage j course (some { j with
          count, phase := .settling (.ofResult r) (v.answerDue r.settlement) v.giveUpDue })
        (j.opening lag count ++ j.ending count r)
  /-- The settlement was over in `w`, and with it the job. -/
  | closed {u v w : State} {lag : Option Duration} {count : Nat} {plan : List Handler.Act}
      {r : HandlerResult} {a : Answer} (hu : LeftIn course u (j.opening lag count))
      (hcalls : Calls u j lag count plan) (hv : LeftIn course v (j.ending count r))
      (hends : Ends v j plan r) (hw : LeftIn course w (j.closing r a))
      (hanswers : Answers w j.delivery.handle r.settlement (v.answerDue r.settlement)
        v.giveUpDue a) :
      Stage j course none (j.opening lag count ++ j.ending count r ++ j.closing r a)

variable {s w : State} {j i : Job} {course : List (State × List Mark)} {cur next : Option Job}
  {flat done marks : List Mark}

theorem LeftIn.of_mono {course' : List (State × List Mark)} {u : State}
    (hmono : ∀ x ∈ course, ∃ more, (x.1, x.2 ++ more) ∈ course') (h : LeftIn course u marks) :
    LeftIn course' u marks := by
  obtain ⟨all, hmem, hinfix⟩ := h
  obtain ⟨more, hmore⟩ := hmono _ hmem
  exact ⟨all ++ more, hmore, hinfix.trans (List.prefix_append all more).isInfix⟩

/-- What was left stays left when the course goes on. -/
theorem Stage.of_mono {course' : List (State × List Mark)}
    (hmono : ∀ x ∈ course, ∃ more, (x.1, x.2 ++ more) ∈ course') (h : Stage j course cur flat) :
    Stage j course' cur flat := by
  cases h with
  | begun => exact .begun
  | called hu hcalls hphase hrest => exact .called (hu.of_mono hmono) hcalls hphase hrest
  | ended hu hcalls hv hends =>
    exact .ended (hu.of_mono hmono) hcalls (hv.of_mono hmono) hends
  | closed hu hcalls hv hends hw hanswers =>
    exact .closed (hu.of_mono hmono) hcalls (hv.of_mono hmono) hends (hw.of_mono hmono) hanswers

/-- A job keeps its subscription. -/
theorem Stage.sub_eq (h : Stage j course (some i) flat) : i.sub = j.sub := by
  cases h <;> rfl

/-- A job whose handler waits has called it, and what is left of the plan is an end of all of it. -/
theorem Stage.exists_call (hfresh : j.phase = .fresh) (h : Stage j course (some i) flat)
    {rest : List Handler.Act} (hrest : i.phase.rest? = some rest) :
    ∃ (u : State) (lag : Option Duration) (count : Nat) (plan : List Handler.Act) (phase : Phase),
      LeftIn course u (j.opening lag count) ∧ Calls u j lag count plan ∧ rest <:+ plan ∧
      flat = j.opening lag count ∧ i = { j with count, phase } := by
  cases h with
  | begun => exact absurd hrest (by simp [hfresh, Phase.rest?])
  | called hu hcalls hphase hsuffix =>
    obtain rfl := Option.some.inj (hphase.symm.trans hrest)
    exact ⟨_, _, _, _, _, hu, hcalls, hsuffix, rfl, rfl⟩
  | ended _ _ _ _ => exact absurd hrest (by simp [Phase.rest?])

/-- **A step takes a job from one stage to the next.** -/
theorem Stage.step (hfresh : j.phase = .fresh)
    (h : Stage j (course ++ [(w, done)]) (some i) flat) (hstep : Step w i marks next) :
    Stage j (course ++ [(w, done ++ marks)]) next (flat ++ marks) := by
  have h : Stage j (course ++ [(w, done ++ marks)]) (some i) flat := h.of_mono (by
    rw [List.forall_mem_append, List.forall_mem_singleton]
    exact ⟨fun x hx ↦ ⟨[], by simp [hx]⟩, marks, by simp⟩)
  have hleft : LeftIn (course ++ [(w, done ++ marks)]) w marks :=
    ⟨done ++ marks, by simp, (List.suffix_append done marks).isInfix⟩
  generalize course ++ [(w, done ++ marks)] = course' at h hleft ⊢
  cases hstep with
  | call hfresh' hcalls =>
    cases h with
    | begun => exact .called hleft hcalls rfl (List.suffix_refl _)
    | @called u lag count plan rest phase _ _ hphase _ =>
      obtain rfl : phase = .fresh := hfresh'
      exact absurd hphase (by simp [Phase.rest?])
    | ended _ _ _ _ => exact absurd hfresh' (by simp)
  | wait hready hphase =>
    obtain ⟨u, lag, count, plan, _, hu, hcalls, hsuffix, rfl, rfl⟩ :=
      h.exists_call hfresh (rest?_of_ready? hready)
    obtain ⟨rest, hrest⟩ := Phase.exists_rest?_of_stance hphase
    obtain ⟨act, acts, happend⟩ := exists_append_of_stance hphase hrest
    rw [List.append_nil]
    exact .called hu hcalls hrest (.trans ⟨act :: acts, happend.symm⟩ hsuffix)
  | finish hready hended =>
    obtain ⟨u, lag, count, plan, _, hu, hcalls, hsuffix, rfl, rfl⟩ :=
      h.exists_call hfresh (rest?_of_ready? hready)
    exact .ended hu hcalls hleft ⟨_, hsuffix, hended⟩
  | @close r answerDue giveUpDue a hphase hanswers =>
    cases h with
    | begun => exact absurd hphase (by simp [hfresh])
    | @called u lag count plan rest phase _ _ hphase' _ =>
      obtain rfl : phase = .settling (.ofResult r) answerDue giveUpDue := hphase
      exact absurd hphase' (by simp [Phase.rest?])
    | @ended u v lag count plan r' hu hcalls hv hends =>
      obtain ⟨houtcome, rfl, rfl⟩ := Phase.settling.inj hphase
      have hsettlement : r.settlement = r'.settlement := by
        rw [← Outcome.settlement_ofResult, ← houtcome, Outcome.settlement_ofResult]
      rw [hsettlement] at hanswers
      rw [closing_congr houtcome.symm] at hleft ⊢
      exact .closed hu hcalls hv hends hleft hanswers

theorem Stage.steps (hfresh : j.phase = .fresh)
    (h : Stage j (course ++ [(w, done)]) (some i) flat) (hsteps : Steps w i marks next) :
    Stage j (course ++ [(w, done ++ marks)]) next (flat ++ marks) := by
  induction hsteps generalizing done flat with
  | last hstep => exact h.step hfresh hstep
  | cons hstep _ ih =>
    rw [← List.append_assoc, ← List.append_assoc]
    exact ih (h.step hfresh hstep)

/-- **A turn takes a job as far as its steps do.** -/
theorem Stage.turn (hfresh : j.phase = .fresh) (h : Stage j course (some i) flat)
    (hturn : Turn w i marks next) : Stage j (course ++ [(w, marks)]) next (flat ++ marks) := by
  have hmono (marks : List Mark) :
      ∀ x ∈ course, ∃ more, (x.1, x.2 ++ more) ∈ course ++ [(w, marks)] :=
    fun x hx ↦ ⟨[], by simp [hx]⟩
  cases hturn with
  | goes hsteps =>
    have hbefore : Stage j (course ++ [(w, [])]) (some i) flat := h.of_mono (hmono [])
    exact hbefore.steps hfresh hsteps
  | waits _ =>
    rw [List.append_nil]
    exact h.of_mono (hmono [])

end Job

namespace State

variable {s : State} {k : Nat}

theorem turns_concat (s : State) (k : Nat) (moves : List Move) (m : Move) :
    s.turns k (moves ++ [m]) = s.turns k moves ++
      if m.isTurnOf k && ((s.after moves).job? k).isSome then [s.after moves] else [] := by
  rw [turns, steps_concat, List.filter_append, List.map_append, turns]
  refine congrArg _ ?_
  by_cases h : (m.isTurnOf k && ((s.after moves).job? k).isSome) = true <;> simp [h]

/-- A job was begun by its puller for a delivery that the puller was given. -/
def Begins (s : State) (moves : List Move) (j : Job) : Prop :=
  ∃ (u : State) (p : Puller), (u, .pull j.puller) ∈ s.steps moves ∧
    u.pullers[j.puller]? = some p ∧
    p.jobFor j.puller u.jobsBegun (u.fetchAnswer? p) = some j

theorem Begins.concat {moves : List Move} {j : Job} (h : Begins s moves j) (m : Move) :
    Begins s (moves ++ [m]) j := by
  obtain ⟨u, p, hmem, hp, hj⟩ := h
  refine ⟨u, p, ?_, hp, hj⟩
  rw [steps_concat]
  exact List.mem_append_left _ hmem

/-- **What becomes of a job in a run**, by its turns and the marks that it leaves in each. -/
structure Dispatches (s : State) (moves : List Move) (j : Job) (course : List (State × List Mark)) :
    Prop where
  begun : Begins s moves j
  /-- The course tells of its turns and of nothing else. -/
  turns : course.map Prod.fst = s.turns j.number moves
  /-- All that a turn does to the books is to leave its marks and to change the job itself. -/
  marks : ∀ x ∈ course, (x.1.jobTurn j.number).books =
    (x.1.books.leaveAll j.sub x.2).replace j.number ((x.1.jobTurn j.number).job? j.number)
  /-- All turns together have left the marks of a dispatch that has come as far as the job has. -/
  stage : j.Stage course ((s.after moves).job? j.number) (course.flatMap Prod.snd)

/-- Whatever is not a turn of the job leaves its course as it is. -/
theorem Dispatches.aside {moves : List Move} {j : Job} {course : List (State × List Mark)}
    {m : Move} (h : Dispatches s moves j course)
    (hm : (m.isTurnOf j.number && ((s.after moves).job? j.number).isSome) = false)
    (hjob : ((s.after moves).move m).job? j.number = (s.after moves).job? j.number) :
    Dispatches s (moves ++ [m]) j course where
  begun := h.begun.concat m
  turns := by
    rw [turns_concat, hm, h.turns]
    exact (List.append_nil _).symm
  marks := h.marks
  stage := by
    rw [after_concat, hjob]
    exact h.stage

theorem Dispatches.fresh {moves : List Move} {j : Job} {course : List (State × List Mark)}
    (h : Dispatches s moves j course) : j.phase = .fresh := by
  obtain ⟨u, p, -, -, hj⟩ := h.begun
  exact (number_jobFor hj).2.2

theorem Dispatches.turn {moves : List Move} {j i : Job} {course : List (State × List Mark)}
    (h : Dispatches s moves j course) (hb : (s.after moves).books.Recorded)
    (hi : (s.after moves).job? j.number = some i) :
    ∃ marks, Dispatches s (moves ++ [.work j.number]) j (course ++ [(s.after moves, marks)]) := by
  obtain ⟨marks, hturn, hbooks⟩ := turn_of_job? hb hi
  have hstage := h.stage
  rw [hi] at hstage
  refine ⟨marks, h.begun.concat _, ?_, ?_, ?_⟩
  · rw [turns_concat, List.map_append, h.turns]
    simp [Move.isTurnOf, hi]
  · rw [List.forall_mem_append, List.forall_mem_singleton]
    exact ⟨h.marks, hstage.sub_eq ▸ hbooks⟩
  · rw [after_concat, List.flatMap_append, List.flatMap_singleton]
    exact hstage.turn h.fresh hturn

/-- Every job that was begun has its course; one that was not has had no turns. -/
def Followed (s : State) (moves : List Move) (k : Nat) : Prop :=
  (k < (s.after moves).jobsBegun → ∃ j course, j.number = k ∧ Dispatches s moves j course) ∧
  ((s.after moves).jobsBegun ≤ k → s.turns k moves = [])

theorem Followed.work {moves : List Move} (hb : (s.after moves).books.Recorded)
    (h : Followed s moves k) (i : Nat) : Followed s (moves ++ [.work i]) k := by
  obtain ⟨hbegun, hothers⟩ := jobs_of_work hb i
  rw [Followed, after_concat]
  change (_ < ((s.after moves).jobTurn i).jobsBegun → _) ∧
    (((s.after moves).jobTurn i).jobsBegun ≤ _ → _)
  rw [hbegun]
  refine ⟨fun hk ↦ ?_, fun hk ↦ ?_⟩
  · obtain ⟨j, course, rfl, hj⟩ := h.1 hk
    by_cases hi : i = j.number
    · subst hi
      cases hi : (s.after moves).job? j.number with
      | none =>
        refine ⟨j, course, rfl, hj.aside (by simp [hi]) ?_⟩
        show ((s.after moves).jobTurn j.number).job? _ = _
        rw [jobTurn_of_none hi]
        rfl
      | some i =>
        obtain ⟨marks, hturn⟩ := hj.turn hb hi
        exact ⟨j, _, rfl, hturn⟩
    · exact ⟨j, course, rfl, hj.aside (by simp [Move.isTurnOf, hi]) (hothers _ hi)⟩
  · rw [turns_concat, h.2 hk, job?_eq_none hb hk]
    simp

/-- Whatever is not a turn of a job leaves the jobs alone that were there. -/
theorem Followed.kept {moves : List Move} {m : Move} {new : Option Job}
    (h : Followed s moves k) (hm : ∀ i, m ≠ .work i)
    (hgrows : Grows (s.after moves) new ((s.after moves).move m))
    (hnew : ∀ j, new = some j → j.number = (s.after moves).jobsBegun)
    (hk : k < (s.after moves).jobsBegun) :
    ∃ j course, j.number = k ∧ Dispatches s (moves ++ [m]) j course := by
  obtain ⟨j, course, rfl, hj⟩ := h.1 hk
  refine ⟨j, course, rfl, hj.aside ?_ (job?_of_grows hgrows hnew hk)⟩
  rw [Move.isTurnOf_eq_false hm, Bool.false_and]

theorem Followed.no_turns {moves : List Move} {m : Move} (h : Followed s moves k)
    (hm : ∀ i, m ≠ .work i) (hk : (s.after moves).jobsBegun ≤ k) :
    s.turns k (moves ++ [m]) = [] := by
  rw [turns_concat, h.2 hk, Move.isTurnOf_eq_false hm]
  rfl

theorem Followed.idle {moves : List Move} {m : Move} (h : Followed s moves k)
    (hm : ∀ i, m ≠ .work i) (hgrows : Grows (s.after moves) none ((s.after moves).move m)) :
    Followed s (moves ++ [m]) k := by
  have hcount : ((s.after moves).move m).jobsBegun = (s.after moves).jobsBegun := hgrows.count
  rw [Followed, after_concat, hcount]
  exact ⟨h.kept hm hgrows fun _ h ↦ absurd h (by simp), h.no_turns hm⟩

/-- A job that has just been begun has had no turns yet. -/
theorem Followed.begins {moves : List Move} {n : Nat} {p : Puller} {j : Job}
    (hb : (s.after moves).books.Recorded) (h : Followed s moves k)
    (hp : (s.after moves).pullers[n]? = some p)
    (hj : p.jobFor n (s.after moves).jobsBegun ((s.after moves).fetchAnswer? p) = some j)
    (hgrows : Grows (s.after moves) (some j) ((s.after moves).move (.pull n))) :
    Followed s (moves ++ [.pull n]) k := by
  have hm (i : Nat) : Move.pull n ≠ .work i := nofun
  obtain ⟨hnumber, rfl, -⟩ := number_jobFor hj
  have hcount : ((s.after moves).move (.pull j.puller)).jobsBegun =
      (s.after moves).jobsBegun + 1 := hgrows.count
  rw [Followed, after_concat, hcount]
  refine ⟨fun hk ↦ ?_, fun hk ↦ h.no_turns hm (Nat.le_of_succ_le hk)⟩
  rcases Nat.lt_or_eq_of_le (Nat.le_of_lt_succ hk) with hk | rfl
  · exact h.kept hm hgrows (fun _ h ↦ Option.some.inj h ▸ hnumber) hk
  · refine ⟨j, [], hnumber, ⟨s.after moves, p, ?_, hp, hj⟩, ?_,
      fun _ hx ↦ absurd hx List.not_mem_nil, ?_⟩
    · rw [steps_concat]
      exact List.mem_append_right _ (List.mem_singleton_self _)
    · rw [hnumber, h.no_turns hm (Nat.le_refl _)]
      rfl
    · rw [after_concat, hnumber, job?_of_begun hb hgrows hnumber]
      exact .begun

theorem Followed.move {moves : List Move} (hb : (s.after moves).books.Recorded)
    (h : Followed s moves k) {m : Move} (hm : ∀ i, m ≠ .work i) : Followed s (moves ++ [m]) k := by
  rcases grows_move (s := s.after moves) hm with hgrows | ⟨n, p, rfl, hp, hgrows⟩
  · exact h.idle hm hgrows
  · cases hj : p.jobFor n (s.after moves).jobsBegun ((s.after moves).fetchAnswer? p) with
    | none => exact h.idle hm (hj ▸ hgrows)
    | some j => exact h.begins hb hp hj (hj ▸ hgrows)

/-- **Every job that was begun is followed all along a run.** -/
theorem followed_after {plan : Plan} (hbuild : plan.build = .ok s) (moves : List Move) (k : Nat) :
    Followed s moves k := by
  induction moves using List.reverseRecOn with
  | nil =>
    obtain ⟨setup, slots, -, -, -, -, hbooks, -⟩ := Plan.of_build hbuild
    have hcount : s.jobsBegun = 0 := congrArg Books.jobsBegun hbooks
    exact ⟨fun hk ↦ absurd (hcount ▸ hk) (Nat.not_lt_zero k), fun _ ↦ rfl⟩
  | append_singleton moves m ih =>
    have hb : (s.after moves).books.Recorded := (Runs.of_moves s moves).recorded hbuild
    by_cases hm : ∃ i, m = .work i
    · obtain ⟨i, rfl⟩ := hm
      exact ih.work hb i
    · exact ih.move hb fun i h ↦ hm ⟨i, h⟩

/-! ### One dispatch, all paths -/

/-- **What becomes of every job.** As long as a run lasts, whoever moves in it, all that a job does
is to dispatch its delivery, once and in this order: it records how long the message has waited, or
that this cannot be known; it calls the handler; when that has ended, it counts the message as
processed, and counts and reports the end exactly if it was not a success, with the words of the
handler; it asks for one settlement of its own delivery, a negative one exactly if the message is to
be tried again; it reports a message that went back, or counts and reports the settlement that was
refused or not answered in time; and it gives its slot back. Until that is over the job is there,
and afterwards it is gone: no failure takes it off in between. In each turn in which it has nothing
to wait for it comes nearer to its end. -/
theorem dispatched {plan : Plan} (hbuild : plan.build = .ok s) (moves : List Move)
    (hk : k < (s.after moves).jobsBegun) :
    ∃ j course, j.number = k ∧ Dispatches s moves j course ∧
      ∀ i, (s.after moves).job? k = some i → i.isDue (s.after moves) = true →
        ∀ i', ((s.after moves).jobTurn k).job? k = some i' → i'.phase.rank < i.phase.rank := by
  obtain ⟨j, course, hj, hcourse⟩ := (followed_after hbuild moves k).1 hk
  refine ⟨j, course, hj, hcourse, fun i hi hdue i' hi' ↦ ?_⟩
  obtain ⟨marks, hturn, -⟩ := turn_of_job? ((Runs.of_moves s moves).recorded hbuild) hi
  rw [hi'] at hturn
  exact hturn.rank_lt hdue

/-- The only job of a run is over, and all of its dispatch has been seen. -/
theorem dispatched_lone : ∃ s : State, Plan.lone.build = .ok s ∧
    0 < (s.after Move.handling).jobsBegun ∧ (s.after Move.handling).job? 0 = none ∧
    ∃ j course, j.number = 0 ∧ Dispatches s Move.handling j course := by
  obtain ⟨s, hbuild, hbegun, hgone⟩ : ∃ s, Plan.lone.build = .ok s ∧
      0 < (s.after Move.handling).jobsBegun ∧ (s.after Move.handling).job? 0 = none :=
    ⟨_, rfl, by decide +kernel, by rfl⟩
  obtain ⟨j, course, hj, hcourse, -⟩ := dispatched hbuild Move.handling hbegun
  exact ⟨s, hbuild, hbegun, hgone, j, course, hj, hcourse⟩

end State

end PullConsumer.Supervisor
