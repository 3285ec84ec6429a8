import PullConsumer.Proofs.Broker.Looks
import PullConsumer.Proofs.Supervisor.Starts

/-!
# Every move is a chain of deeds

A move other than a start does nothing to the books but a chain of deeds (`State.deeds_move`); a
start puts pullers to work and does nothing else (`Starts`). What deeds keep and fresh
pullers keep therefore holds all along a run (`Runs.books_induction`).
-/

namespace PullConsumer.Supervisor

namespace State

variable {s : State} {n : Nat} {p : Puller}

/-! ### Pullers -/

@[simp] theorem books_goTo (s : State) (n : Nat) (phase : Puller.Phase) :
    (s.goTo n phase).1.books = s.books.setPhase n phase := rfl

theorem takeSlot?_eq_some {sub : Nat} {t : State} (h : s.takeSlot? sub = some t) :
    ∃ pool pool', s.slots[sub]? = some pool ∧ pool.take? = some pool' ∧
      t = { s with slots := s.slots.set sub pool' } := by
  rw [takeSlot?] at h
  split at h
  · next pool hpool =>
    obtain ⟨pool', htake, rfl⟩ := Option.map_eq_some_iff.1 h
    exact ⟨pool, pool', hpool, htake, rfl⟩
  · exact absurd h (by simp)

theorem deeds_bindStep {errors : List String} (hp : s.pullers[n]? = some p)
    (hphase : p.phase = .binding errors) : Deeds s.books (s.bindStep n p errors).1.books := by
  have hover : p.isOver = false := by simp [Puller.isOver, hphase]
  have hfree : p.phase.holdsSlot = false := by simp [Puller.Phase.holdsSlot, hphase]
  obtain ⟨answer, t, htry, hbind, hpullers⟩ : ∃ answer t, s.tryBind p = (answer, t) ∧
      Deeds s.books t.books ∧ t.pullers = s.pullers := by
    rw [tryBind]
    split
    · exact ⟨_, _, rfl, .single (.bind (s.binding p.sub)), rfl⟩
    · exact ⟨_, _, rfl, .refl, rfl⟩
  -- Whatever the answer is, the puller still stands where it stood.
  have hp' : t.books.pullers[n]? = some p := by
    show t.pullers[n]? = some p
    rw [hpullers, hp]
  rw [bindStep]
  simp only [htry]
  cases answer with
  | ok _ =>
    simp only [books_goTo, books_publishFor]
    exact (hbind.tail (.report rfl)).tail (.turn hp' hover hfree rfl)
  | error cause =>
    dsimp only
    split
    · have hturn {phase : Puller.Phase} (hfree' : phase.holdsSlot = false) :
          Deeds s.books (t.goTo n phase).1.books := hbind.tail (.turn hp' hover hfree hfree')
      split
      · exact hturn rfl
      · split
        · exact hturn rfl
        · exact hturn rfl
    · split
      · exact hbind.tail (.turn hp' hover hfree rfl)
      · simp only [books_goTo, books_reportFatal, books_publishFor, books_measure]
        exact (((hbind.tail (.blame p.sub cause)).tail (.report rfl)).tail (.fatal n cause)).tail
          (.turn hp' hover hfree rfl)

theorem deeds_headStep (hp : s.pullers[n]? = some p) (hphase : p.phase = .head) :
    Deeds s.books (s.headStep n p).1.books := by
  have hover : p.isOver = false := by simp [Puller.isOver, hphase]
  have hfree : p.phase.holdsSlot = false := by simp [Puller.Phase.holdsSlot, hphase]
  rw [headStep]
  split
  · exact .single (.turn hp hover hfree rfl)
  · set t := (s.note (.gauge p.sub (s.inUse p.sub))).measure p.sub (.concurrency (s.inUse p.sub))
      with ht
    have hbooks : t.books = ((s.books.note (.gauge p.sub (s.inUse p.sub))).measure p.sub
        (.concurrency (s.inUse p.sub))) := by simp [ht]
    have hgauge : Deeds s.books t.books := hbooks ▸ .single (.gauge hp hphase)
    have hp' : t.books.pullers[n]? = some p := hbooks ▸ hp
    dsimp only
    split
    · next u htake =>
      obtain ⟨pool, pool', hpool, hpool', rfl⟩ := takeSlot?_eq_some htake
      exact hgauge.tail (.reserve hp' hphase hpool hpool')
    · exact hgauge.tail (.turn hp' hover hfree rfl)

theorem deeds_fetchStep {f : Broker.Fetch} {found : Broker.Fetch.Progress × Broker}
    (hp : s.pullers[n]? = some p) (hslot : p.phase.holdsSlot = true)
    (hok : ∀ d, found.1 = .finished (.ok d) →
      s.broker.take? f.consumer = .ok (some (d, found.2)))
    (hnone : (∀ d, found.1 ≠ .finished (.ok d)) → found.2 = s.broker) :
    Deeds s.books (s.fetchStep n p f found).1.books := by
  obtain ⟨progress, x⟩ := found
  rw [fetchStep]
  cases progress with
  | waiting =>
    obtain rfl : x = s.broker := hnone (by simp)
    simp only [books_arm, books_listen, books_setPhase]
    exact .single (.expect hp hslot rfl)
  | finished answer =>
    cases answer with
    | ok d =>
      simp only [books_goTo, books_startJob]
      exact .single (.receive hp hslot (hok d rfl))
    | error cause =>
      obtain rfl : x = s.broker := hnone (by simp)
      have hrelease {phase : Puller.Phase} (hfree : phase.holdsSlot = false) :
          Deeds s.books ((s.books.giveBack p.sub).setPhase n phase) :=
        .single (.release hp hslot hfree)
      cases cause with
      | timeout d =>
        simp only [books_goTo, books_giveBackSlot]
        exact hrelease rfl
      | _ =>
        simp only [books_goTo, books_reportFatal, books_publishFor, books_measure,
          books_giveBackSlot]
        exact (((hrelease rfl).tail (.blame p.sub _)).tail (.report rfl)).tail (.fatal n _)

/-- A look brings its own broker. -/
theorem fetchStep_broker (s : State) (n : Nat) (p : Puller) (f : Broker.Fetch)
    (found : Broker.Fetch.Progress × Broker) (x : Broker) :
    { s with broker := x }.fetchStep n p f found = s.fetchStep n p f found := by
  rw [fetchStep]
  rfl

-- An equation between functions, for the reason given at `Broker.Fetch.start_eq`.
theorem reachStep_eq : reachStep = fun s n p ↦
    match Broker.Fetch.start s.now (s.binding p.sub).toConsumerId (s.fetchTimeout p.sub) with
    | .ok f =>
      let s := s.note (.fetchBegun n)
      s.fetchStep n p f (f.firstLook s.now s.broker)
    | .error cause =>
      (((s.giveBackSlot p.sub).setPhase n (.crashed cause)).notify (.finished n), .wait) := rfl

/-- A puller that has reached the broker begins its fetch or crashes. -/
theorem reachStep_cases (s : State) (n : Nat) (p : Puller) :
    (∃ f : Broker.Fetch, s.reachStep n p = (s.note (.fetchBegun n)).fetchStep n p f
      (f.firstLook s.now s.broker)) ∨
    ∃ cause, s.reachStep n p =
      (((s.giveBackSlot p.sub).setPhase n (.crashed cause)).notify (.finished n), .wait) := by
  rw [reachStep_eq]
  beta_reduce
  split
  · next f _ => exact Or.inl ⟨f, rfl⟩
  · next cause _ => exact Or.inr ⟨cause, rfl⟩

/-- The fetch is begun first; what the first look then finds is taken up as that of any look. -/
theorem deeds_reachStep (hp : s.pullers[n]? = some p) (hslot : p.phase.holdsSlot = true) :
    Deeds s.books (s.reachStep n p).1.books := by
  rcases reachStep_cases s n p with ⟨f, hstep⟩ | ⟨cause, hstep⟩
  · -- The first look is made at the broker that has counted the fetch already.
    have hask : Deeds s.books
        { s.note (.fetchBegun n) with broker := s.broker.beginFetch.2 }.books :=
      .single (.ask hp hslot)
    have hlook := f.firstLook_cases s.now s.broker
    rw [hstep, ← fetchStep_broker _ n p f _ s.broker.beginFetch.2]
    refine hask.trans (deeds_fetchStep hp hslot ?_ ?_)
    · intro d hd
      rcases hlook with ⟨fault, -, hlook⟩ | ⟨-, hlook⟩
      · exact absurd hd (by simp [hlook])
      · rw [hlook] at hd ⊢
        exact Broker.Fetch.look_of_ok hd
    · intro hd
      rcases hlook with ⟨fault, -, hlook⟩ | ⟨-, hlook⟩
      · rw [hlook]
      · rw [hlook] at hd ⊢
        exact Broker.Fetch.look_of_not_ok hd
  · rw [hstep]
    simp only [books_notify, books_setPhase, books_giveBackSlot]
    exact .single (.release hp hslot rfl)

/-- **A step of a puller is a chain of deeds.** -/
theorem deeds_pullerStep (hp : s.pullers[n]? = some p) :
    Deeds s.books (s.pullerStep n p).1.books := by
  have hturn {phase : Puller.Phase} (hover : p.isOver = false)
      (hfree : p.phase.holdsSlot = false) (hfree' : phase.holdsSlot = false) :
      Deeds s.books (s.goTo n phase).1.books := .single (.turn hp hover hfree hfree')
  rw [pullerStep]
  rw [Puller.isOver] at hturn
  cases hphase : p.phase with
  | fresh =>
    simp only [books_goTo, books_publishFor]
    exact (Relation.ReflTransGen.single (.report rfl)).tail (.turn hp (by simp [Puller.isOver,
      hphase]) (by simp [Puller.Phase.holdsSlot, hphase]) rfl)
  | binding errors => exact deeds_bindStep hp hphase
  | rebinding errors due =>
    rw [hphase] at hturn
    dsimp only
    split
    · exact hturn rfl rfl rfl
    · split
      · exact hturn rfl rfl rfl
      · simp only [books_arm, books_listen]
        exact .refl
  | head => exact deeds_headStep hp hphase
  | crowded due =>
    rw [hphase] at hturn
    dsimp only
    split
    · exact hturn rfl rfl rfl
    · split
      · exact hturn rfl rfl rfl
      · simp only [books_arm, books_listen]
        exact .refl
  | reaching due =>
    dsimp only
    split
    · exact deeds_reachStep hp (by simp [Puller.Phase.holdsSlot, hphase])
    · exact .refl
  | fetching f =>
    exact deeds_fetchStep hp (by simp [Puller.Phase.holdsSlot, hphase])
      (fun d ↦ Broker.Fetch.look_of_ok) Broker.Fetch.look_of_not_ok
  | leaving =>
    dsimp only
    split
    · simp only [books_notify, books_setPhase, books_publishFor]
      exact (Relation.ReflTransGen.single (.report rfl)).tail (.turn hp (by simp [Puller.isOver,
        hphase]) (by simp [Puller.Phase.holdsSlot, hphase]) rfl)
    · simp only [books_listen]
      exact .refl
  | finished => exact .refl
  | crashed cause => exact .refl

end State

/-! ### Jobs -/

namespace Books

variable {b : Books} {n : Nat} {j : Job}

theorem setJobPhase_setJobPhase (b : Books) (n : Nat) (phase phase' : Job.Phase) :
    (b.setJobPhase n phase).setJobPhase n phase' = b.setJobPhase n phase' := by
  simp only [setJobPhase, changeJob, List.map_map, Books.mk.injEq, true_and, and_true]
  refine List.map_congr_left fun j _ ↦ ?_
  by_cases h : j.number = n <;> simp [h]

/-- Nothing is left of the phase of a job that is gone. -/
theorem dropJob_setJobPhase (b : Books) (n : Nat) (phase : Job.Phase) :
    (b.setJobPhase n phase).dropJob n = b.dropJob n := by
  simp only [setJobPhase, changeJob, dropJob, Books.mk.injEq, true_and, and_true]
  induction b.jobs with
  | nil => rfl
  | cons j rest ih => by_cases h : j.number = n <;> simpa [h] using ih

theorem mem_setJobPhase {phase : Job.Phase} (h : { j with phase } ∈ b.jobs) (phase' : Job.Phase) :
    { j with phase := phase' } ∈ (b.setJobPhase j.number phase').jobs :=
  List.mem_map.2 ⟨{ j with phase }, h, by simp⟩

/-! What is noted, measured and reported does not concern the jobs. -/

theorem note_setJobPhase (b : Books) (e : Entry) (n : Nat) (phase : Job.Phase) :
    (b.setJobPhase n phase).note e = (b.note e).setJobPhase n phase := rfl

theorem measure_setJobPhase (b : Books) (sub : Nat) (m : Measurement) (n : Nat)
    (phase : Job.Phase) :
    (b.setJobPhase n phase).measure sub m = (b.measure sub m).setJobPhase n phase := rfl

theorem reportResult_setJobPhase (b : Books) (sub : Nat) (r : HandlerResult) (n : Nat)
    (phase : Job.Phase) :
    (b.setJobPhase n phase).reportResult sub r = (b.reportResult sub r).setJobPhase n phase := by
  unfold reportResult
  split <;> rfl

theorem reportSettled_setJobPhase (b : Books) (sub : Nat) (outcome : Outcome) (n : Nat)
    (phase : Job.Phase) :
    (b.setJobPhase n phase).reportSettled sub outcome =
      (b.reportSettled sub outcome).setJobPhase n phase := by
  unfold reportSettled
  split <;> rfl

theorem reportUnsettled_setJobPhase (b : Books) (sub : Nat) (x : Settlement) (reason : String)
    (n : Nat) (phase : Job.Phase) :
    (b.setJobPhase n phase).reportUnsettled sub x reason =
      (b.reportUnsettled sub x reason).setJobPhase n phase := rfl

end Books

namespace State

variable {s : State} {j : Job}

theorem books_settlementFailed (s : State) (j : Job) (x : Settlement) (reason : String) :
    (s.settlementFailed j x reason).books =
      (s.books.note (.settled j.number j.delivery.handle x (some reason))).reportUnsettled j.sub x
        reason := by
  simp only [settlementFailed, books_publishFor, books_measure, books_note]
  rfl

theorem books_settleNow_of_error {outcome : Outcome} {cause : BrokerError}
    (h : (s.broker.settle j.delivery.handle outcome.settlement).result = .error cause) :
    (s.settleNow j outcome).books = (s.books.note (.settled j.number j.delivery.handle
      outcome.settlement (some cause.message))).reportUnsettled j.sub outcome.settlement
        cause.message := by
  have hbroker := Broker.broker_settle_of_error h
  rw [settleNow]
  simp only [h, hbroker]
  split <;> simp only [books_settlementFailed, books_notify]

theorem books_settleNow_of_ok {outcome : Outcome}
    (h : (s.broker.settle j.delivery.handle outcome.settlement).result = .ok ()) :
    (s.settleNow j outcome).books = ({ s.books with
      broker := (s.broker.settle j.delivery.handle outcome.settlement).broker }.note
        (.settled j.number j.delivery.handle outcome.settlement none)).reportSettled j.sub
          outcome := by
  obtain ⟨t, ht, hbooks⟩ : ∃ t : State, t = (if (s.broker.settle j.delivery.handle
      outcome.settlement).requeued then { s with broker := (s.broker.settle j.delivery.handle
        outcome.settlement).broker }.notify .arrival else { s with broker := (s.broker.settle
          j.delivery.handle outcome.settlement).broker }) ∧ t.books = { s.books with
            broker := (s.broker.settle j.delivery.handle outcome.settlement).broker } := by
    refine ⟨_, rfl, ?_⟩
    split
    · exact books_notify _ _
    · rfl
  rw [settleNow]
  simp only [h, ← ht]
  rw [← hbooks]
  rw [Books.reportSettled]
  cases hx : outcome.settlement with
  | ack => exact books_note _ _
  | nack => exact (books_publishFor _ _ _).trans (by rw [books_note])

/-- The books may say already that the job is in its settlement, whatever its phase is. -/
theorem deeds_settleStep {outcome : Outcome} {answerDue : Nat} {giveUpDue : Option Nat}
    {phase : Job.Phase} (hj : { j with phase } ∈ s.jobs) :
    Deeds (s.books.setJobPhase j.number (.settling outcome answerDue giveUpDue))
      (s.settleStep j outcome answerDue giveUpDue).books := by
  set b := s.books.setJobPhase j.number (.settling outcome answerDue giveUpDue) with hb
  have hj' : { j with phase := .settling outcome answerDue giveUpDue } ∈ b.jobs :=
    Books.mem_setJobPhase (b := s.books) hj _
  have hfail {t : State} {reason : String} (hwhy : (∃ cause : BrokerError, reason = cause.message) ∨
      s.now < answerDue) (ht : t.books = (s.books.note (.settled j.number j.delivery.handle
        outcome.settlement (some reason))).reportUnsettled j.sub outcome.settlement reason) :
      Deeds b (t.finishJob j).books := by
    have hdeed := Deed.fail (b := b) hj' rfl hwhy
    rw [hb, Books.note_setJobPhase, Books.reportUnsettled_setJobPhase,
      Books.dropJob_setJobPhase] at hdeed
    rw [books_finishJob, ht]
    exact .single hdeed
  rw [settleStep]
  split
  · rcases hresult : (s.broker.settle j.delivery.handle outcome.settlement).result with cause | ⟨⟩
    · exact hfail (Or.inl ⟨cause, rfl⟩) (books_settleNow_of_error hresult)
    · have hdeed := Deed.settle (b := b) hj' rfl hresult
      have hdrop : ∀ c : Books, (((c.setJobPhase j.number (.settling outcome answerDue
          giveUpDue)).note (.settled j.number j.delivery.handle outcome.settlement
            none)).reportSettled j.sub outcome).dropJob j.number = ((c.note (.settled j.number
              j.delivery.handle outcome.settlement none)).reportSettled j.sub outcome).dropJob
                j.number := fun c ↦ by
        rw [Books.note_setJobPhase, Books.reportSettled_setJobPhase, Books.dropJob_setJobPhase]
      rw [books_finishJob, books_settleNow_of_ok hresult, ← hdrop]
      exact .single hdeed
  · split
    · next hdue _ =>
      exact hfail (Or.inr (Nat.lt_of_not_le hdue)) (books_settlementFailed s j _ _)
    · exact .refl

/-- The end of a handler is counted and reported before the delivery is settled. -/
theorem handled_eq (s : State) (j : Job) (r : HandlerResult) :
    ∃ t : State,
      t.books = (((s.books.note (.ended j.number j.sub j.delivery.message j.count r)).measure j.sub
        .processed).reportResult j.sub r) ∧
      s.handled j r = t.settleStep j (.ofResult r)
        (s.now + s.setup.client.settleTicks (Outcome.ofResult r).settlement)
        (s.setup.clock.expires s.setup.settings.ackTimeout s.now) := by
  set u := (s.note (.ended j.number j.sub j.delivery.message j.count r)).measure j.sub .processed
    with hu
  have hubooks : u.books = ((s.books.note (.ended j.number j.sub j.delivery.message j.count
      r)).measure j.sub .processed) := by
    rw [hu, books_measure, books_note]
  suffices key : ∃ t : State, t.books = u.books.reportResult j.sub r ∧
      s.handled j r = t.settleStep j (.ofResult r)
        (t.now + t.setup.client.settleTicks (Outcome.ofResult r).settlement)
        (t.setup.clock.expires t.setup.settings.ackTimeout t.now) by
    obtain ⟨t, ht, heq⟩ := key
    have hsetup : t.books.setup = s.books.setup ∧ t.books.now = s.books.now := by
      rw [ht, hubooks]
      rw [Books.reportResult]
      split <;> exact ⟨rfl, rfl⟩
    refine ⟨t, hubooks ▸ ht, ?_⟩
    change t.setup = s.setup ∧ t.now = s.now at hsetup
    rw [← hsetup.1, ← hsetup.2, heq]
  rw [handled, Books.reportResult]
  simp only [← hu]
  cases failureOf r with
  | none => exact ⟨u, rfl, by cases (Outcome.ofResult r).settlement <;> rfl⟩
  | some failure =>
    obtain ⟨label, kind, reason⟩ := failure
    refine ⟨(u.measure j.sub (.error label)).publishFor j.sub ((Event.of kind).withReason reason),
      ?_, by cases (Outcome.ofResult r).settlement <;> rfl⟩
    rw [books_publishFor, books_measure]

/-- The books may say already that a handler is at work, whatever the phase of the job is. -/
theorem deeds_handled {phase phase' : Job.Phase} (hj : { j with phase } ∈ s.jobs)
    (hlive : phase'.isLive = true) (r : HandlerResult) :
    Deeds (s.books.setJobPhase j.number phase') (s.handled j r).books := by
  obtain ⟨t, ht, heq⟩ := handled_eq s j r
  have hmem := Books.mem_setJobPhase (b := s.books) hj phase'
  have hfinish := @Deed.finish _ _ r (s.setup.clock.expires s.setup.settings.ackTimeout s.now)
    hmem hlive
  have hbooks : ((((s.books.setJobPhase j.number phase').note (.ended j.number j.sub
      j.delivery.message j.count r)).measure j.sub .processed).reportResult j.sub r) =
        t.books.setJobPhase j.number phase' := by
    rw [ht, Books.note_setJobPhase, Books.measure_setJobPhase, Books.reportResult_setJobPhase]
  have hjobs : t.jobs = s.jobs := by
    have hb : t.books.jobs = s.books.jobs := by
      rw [ht]
      rw [Books.reportResult]
      split <;> rfl
    exact hb
  dsimp only at hfinish
  rw [hbooks, Books.setJobPhase_setJobPhase] at hfinish
  rw [heq]
  exact (Relation.ReflTransGen.single hfinish).trans (deeds_settleStep (hjobs ▸ hj))

theorem deeds_actOn {phase phase' : Job.Phase} (hj : { j with phase } ∈ s.jobs)
    (hlive : phase'.isLive = true) (plan : List Handler.Act) :
    Deeds (s.books.setJobPhase j.number phase') (s.actOn j plan).books := by
  have hrest {phase'' : Job.Phase} (hlive' : phase''.isLive = true) :
      Deeds (s.books.setJobPhase j.number phase') (s.books.setJobPhase j.number phase'') := by
    have h := Deed.rest (Books.mem_setJobPhase (b := s.books) hj phase') hlive hlive'
    rw [Books.setJobPhase_setJobPhase] at h
    exact .single h
  rw [actOn]
  split
  · next r _ => exact deeds_handled hj hlive r
  · rw [books_arm, books_setJobPhase]
    exact hrest rfl
  · rw [books_listen, books_setJobPhase]
    exact hrest rfl

theorem books_recordLag (s : State) (j : Job) :
    ∃ lag, (lag = .error timeUnknownLabel ∨ ∃ d, lag = .lag d) ∧
      (s.recordLag j).books = s.books.measure j.sub lag := by
  unfold recordLag
  dsimp only
  split
  · split
    · exact ⟨_, Or.inr ⟨_, rfl⟩, books_measure _ _ _⟩
    · exact ⟨_, Or.inl rfl, books_measure _ _ _⟩
  · exact ⟨_, Or.inl rfl, books_measure _ _ _⟩

/-- The lag is recorded, the call is noted and its count kept, and then the handler acts. -/
theorem callHandler_eq (s : State) (j : Job) :
    ∃ (count : Nat) (t : State) (plan : List Handler.Act),
      t.books = ((s.recordLag j).books.note (.started j.number j.sub j.delivery.message
        count)).changeJob j.number (fun k ↦ { k with count }) ∧
      t.tokens = (s.recordLag j).tokens ∧
      plan = (((s.recordLag j).subscription? j.sub).map Subscription.handler).getD default
        ⟨((s.recordLag j).binding j.sub).consumer, j.delivery.message,
          Trace.ofMessage j.delivery.message, count⟩ ∧
      s.callHandler j = t.actOn { j with count } plan := by
  refine ⟨((s.recordLag j).countText j.sub j.delivery.message.text).1, _, _, ?_, ?_, ?_, rfl⟩
  · rfl
  · rfl
  · rfl

theorem deeds_callHandler (hj : j ∈ s.jobs) (hfresh : j.phase = .fresh) :
    Deeds s.books (s.callHandler j).books := by
  obtain ⟨lag, hlag, hrecord⟩ := books_recordLag s j
  obtain ⟨count, t, plan, ht, -, -, heq⟩ := callHandler_eq s j
  rw [hrecord] at ht
  have hmem : { j with count, phase := .fresh } ∈ t.jobs := by
    show _ ∈ t.books.jobs
    rw [ht]
    exact List.mem_map.2 ⟨j, hj, by simp [hfresh]⟩
  have hcall := @Deed.call s.books j lag count (.awaiting []) hj hfresh hlag rfl
  -- The call leaves the job in some phase of a handler at work; in which one is for `actOn` to say.
  have hcalled : t.books.setJobPhase j.number (.awaiting []) =
      (((s.books.measure j.sub lag).note (.started j.number j.sub j.delivery.message
        count)).changeJob j.number fun k ↦ { k with count, phase := .awaiting [] }) := by
    rw [ht]
    simp only [Books.setJobPhase, Books.changeJob, List.map_map, Books.mk.injEq, true_and,
      and_true]
    refine List.map_congr_left fun k _ ↦ ?_
    by_cases h : k.number = j.number <;> simp [h]
  rw [← hcalled] at hcall
  rw [heq]
  exact (Relation.ReflTransGen.single hcall).trans
    (deeds_actOn (j := { j with count }) hmem rfl plan)

/-- **A turn of a job is a chain of deeds.** -/
theorem deeds_jobTurn (s : State) (n : Nat) : Deeds s.books (s.jobTurn n).books := by
  unfold jobTurn
  rw [← books_forget s (.job n)]
  generalize s.forget (.job n) = t
  dsimp only
  split
  · exact .refl
  · next j hfind =>
    have hj : j ∈ t.jobs := List.mem_of_find?_eq_some hfind
    have hact {phase : Job.Phase} (hphase : j.phase = phase) (hlive : phase.isLive = true)
        (plan : List Handler.Act) : Deeds t.books (t.actOn j plan).books :=
      (Relation.ReflTransGen.single (.rest (b := t.books) hj (hphase ▸ hlive) hlive)).trans
        (@deeds_actOn t j j.phase phase hj hlive plan)
    split
    · next hphase => exact deeds_callHandler hj hphase
    · next due rest hphase =>
      split
      · exact hact hphase rfl rest
      · exact .refl
    · next rest hphase =>
      split
      · exact hact hphase rfl rest
      · rw [books_listen]
        exact .refl
    · next outcome answerDue giveUpDue hphase =>
      exact (Relation.ReflTransGen.single (.await (b := t.books) hj hphase)).trans
        (@deeds_settleStep t j outcome answerDue giveUpDue j.phase hj)

end State

/-! ### The listener and the observers -/

theorem isOfHealth_refusals {e report : Event} {refused : List (String × Observer.Refused)}
    (h : report ∈ Observer.refusals e refused) : isOfHealth report.kind = true := by
  rw [Observer.refusals] at h
  split at h
  · exact absurd h List.not_mem_nil
  · obtain ⟨_, _, rfl⟩ := List.mem_map.1 h
    rfl

theorem isOfHealth_complaint {o : Observer} {e report : Event}
    (h : report ∈ Observer.Channel.complaint o e) : isOfHealth report.kind = true := by
  rw [Observer.Channel.complaint] at h
  rw [Option.mem_toList] at h
  obtain ⟨_, _, rfl⟩ := Option.map_eq_some_iff.1 h
  rfl

theorem isOfHealth_takeAll {now : Nat} {c : Observer.Channel} {es : List Event} {report : Event}
    (h : report ∈ (c.takeAll now es).2) : isOfHealth report.kind = true := by
  induction es generalizing c with
  | nil => exact absurd h List.not_mem_nil
  | cons e rest ih =>
    rw [Observer.Channel.takeAll] at h
    split at h
    · exact (List.mem_append.1 h).elim isOfHealth_complaint ih
    · exact absurd h List.not_mem_nil

theorem isOfHealth_work {now : Nat} {c : Observer.Channel} {report : Event}
    (h : report ∈ (c.work now).2) : isOfHealth report.kind = true := by
  rw [Observer.Channel.work] at h
  split at h
  · exact isOfHealth_takeAll h
  · split at h
    · exact absurd h List.not_mem_nil
    · exact (List.mem_append.1 h).elim isOfHealth_complaint isOfHealth_takeAll

namespace State

theorem deeds_publishAll {es : List Event} (h : ∀ e ∈ es, isOfHealth e.kind = true)
    (s : State) : Deeds s.books (s.publishAll es).books := by
  induction es generalizing s with
  | nil => exact .refl
  | cons e rest ih =>
    rw [List.forall_mem_cons] at h
    have hfirst : Deeds s.books (s.publish e).books := by
      rw [books_publish]
      exact .single (.report (isOfHandling_of_isOfHealth h.1))
    exact hfirst.trans (ih h.2 _)

theorem books_foldl_queued (ks : List Nat) (s : State) :
    (ks.foldl (fun s k ↦ s.notify (.queued k)) s).books = s.books := by
  induction ks generalizing s with
  | nil => rfl
  | cons k rest ih => exact (ih _).trans (books_notify s _)

theorem deeds_emit (s : State) (e : Event) : Deeds s.books (s.emit e).books := by
  rw [emit]
  set o := Observer.offerAll e 0 s.channels
  set t := o.accepted.foldl (fun s k ↦ s.notify (.queued k)) { s with channels := o.channels }
    with ht
  -- Observers that refuse the event are complained of; to accept it is no deed at all.
  have hrefusals : ∀ report ∈ Observer.refusals e o.refused, isOfHealth report.kind = true :=
    fun _ ↦ isOfHealth_refusals
  have hbooks : t.books = s.books := by
    rw [ht, books_foldl_queued]
    rfl
  exact hbooks ▸ deeds_publishAll hrefusals t

theorem deeds_readRing (budget position : Nat) (s : State) :
    Deeds s.books (readRing budget position s).books := by
  induction budget generalizing position s with
  | zero =>
    rw [readRing]
    rw [books_wake]
    exact .refl
  | succ budget ih =>
    rw [readRing]
    split
    · next e next _ => exact (deeds_emit { s with listening := some next } e).trans (ih _ _)
    · next next _ => exact ih _ { s with listening := some next }
    · dsimp only
      split
      · rw [stopListening]
        rw [books_foldl_queued]
        exact .refl
      · rw [books_listen]
        exact .refl

theorem deeds_listenerTurn (s : State) : Deeds s.books s.listenerTurn.books := by
  unfold listenerTurn
  dsimp only
  split
  · exact deeds_readRing _ _ (s.forget .listener)
  · exact .refl

theorem deeds_observerTurn (s : State) (n : Nat) : Deeds s.books (s.observerTurn n).books := by
  rw [observerTurn]
  rw [← books_forget s (.observer n)]
  generalize s.forget (.observer n) = t
  dsimp only
  split
  · exact .refl
  · next c _ =>
    have hreports : ∀ report ∈ (c.work t.now).2, isOfHealth report.kind = true :=
      fun _ ↦ isOfHealth_work
    have h := deeds_publishAll hreports { t with channels := t.channels.set n (c.work t.now).1 }
    split
    · rw [books_arm]
      exact h
    · rw [books_listen]
      exact h

/-! ### Calls and the user -/

theorem deeds_takeOver (s : State) (reason : Option String) :
    Deeds s.books (s.takeOver reason).books := by
  have hreport {e : Event} (token : Nat) (he : isOfHandling e.kind = false) :
      Deeds s.books ((s.publish e).cancel token).books := by
    rw [books_cancel, books_publish]
    exact .single (.report he)
  rw [takeOver]
  split
  · exact .refl
  · next r _ =>
    cases reason with
    | none => exact hreport r.token (e := Event.of .shutdownRequested) rfl
    | some text =>
      exact hreport r.token (e := (Event.of .shutdownRequested).withReason text) rfl

theorem deeds_waitDraining (s : State) (n : Nat) (c : Call) (x : Signal) :
    Deeds s.books (s.waitDraining n c x).1.books := by
  rw [waitDraining]
  rw [← books_listen s x .user]
  generalize s.listen x .user = t
  dsimp only
  split
  · exact .refl
  · split
    · simp only [books_answerCall, books_publish]
      exact .single (.report rfl)
    · simp only [books, now, Scheduler.now_armOnce]
      exact .refl

/-- **A step of a call is a chain of deeds.** -/
theorem deeds_callStep (s : State) (n : Nat) (c : Call) :
    Deeds s.books (s.callStep n c).1.books := by
  rw [callStep]
  split
  · split
    · exact .refl
    · exact .refl
    · simp only [books_listen]
      exact .refl
  · split
    · exact deeds_takeOver s c.reason
    · exact .refl
  · split
    · exact .refl
    · split
      · exact .refl
      · exact deeds_waitDraining s n c _
  · split
    · split
      · exact .refl
      · exact deeds_waitDraining s n c _
    · simp only [books_answerCall, books_publish]
      exact .single (.report rfl)
  · exact .refl
  · exact .refl

/-- **A move is a chain of deeds**, unless it is a start that succeeds or a stranger makes it. -/
theorem move_cases (s : State) (m : Move) :
    Deeds s.books (s.move m).books ∨
    (m.isStart = true ∧ ∃ phases, Starts s (s.move m) phases) ∨
    ∃ x, m = .meddle x ∧ (s.move m).books = { s.books with broker := x } := by
  have hsame {t : State} (h : t.books = s.books) : Deeds s.books t.books := h ▸ .refl
  cases m with
  | pull n =>
    rw [move]
    dsimp only
    split
    · next p hp => exact Or.inl (deeds_pullerStep hp)
    · exact Or.inl .refl
  | work n => exact Or.inl (deeds_jobTurn s n)
  | listen => exact Or.inl (deeds_listenerTurn s)
  | observe n => exact Or.inl (deeds_observerTurn s n)
  | pursue n =>
    rw [move]
    dsimp only
    split
    · next c _ => exact Or.inl (deeds_callStep s n c)
    · exact Or.inl .refl
  | giveUp n =>
    rw [move]
    dsimp only
    split
    · exact Or.inl .refl
    · exact Or.inl (hsame (books_dropCall s n))
  | start parent =>
    have hmove : s.move (.start parent) = (s.start parent .callback).2 := rfl
    rw [hmove]
    rcases s.start_cases parent .callback with ⟨e, hstart⟩ | ⟨t, hstart, hstarts⟩
    · rw [hstart]
      exact Or.inl .refl
    · rw [hstart]
      exact Or.inr (Or.inl ⟨rfl, _, hstarts⟩)
  | callRun patience =>
    have hmove : s.move (.callRun patience) = s.enterRun patience := rfl
    rw [hmove]
    rcases s.enterRun_cases patience with ⟨e, henter⟩ | hstarts
    · rw [henter]
      exact Or.inl .refl
    · exact Or.inr (Or.inl ⟨rfl, _, hstarts⟩)
  | callStop patience => exact Or.inl .refl
  | interrupt name => exact Or.inl (hsame (books_notify _ _))
  | newToken parent => exact Or.inl .refl
  | cancel token => exact Or.inl (hsame (books_cancel s token))
  | abandon => exact Or.inl (hsame (books_notify _ _))
  | supply x => exact Or.inl (.single (.supply x))
  | meddle x => exact Or.inr (Or.inr ⟨x, rfl, rfl⟩)
  | pass x looks roused => exact Or.inl (.single (.pass (Nat.le_max_left s.now x.now)))

end State

/-! ### Induction along a run -/

theorem Deeds.invariant {P : Books → Prop} {b b' : Books} (h : Deeds b b')
    (deed : ∀ b b', Deed b b' → P b → P b') (hb : P b) : P b' := by
  induction h with
  | refl => exact hb
  | tail _ hlast ih => exact deed _ _ hlast ih

/-- What deeds, starts and the changes of strangers keep holds all along a run. -/
theorem Runs.books_induction {P : Books → Prop} {allowed : State → Move → Prop} {s t : State}
    (h : Runs allowed s t) (deed : ∀ b b', Deed b b' → P b → P b')
    (spawn : ∀ b token reporter, P b →
      P (b.spawn token reporter 0 b.setup.subscriptions.length))
    (meddle : ∀ s x, allowed s (.meddle x) → P s.books → P { s.books with broker := x })
    (hs : P s.books) : P t.books := by
  induction h with
  | refl => exact hs
  | @tail u _ _ hlast ih =>
    obtain ⟨m, hm, rfl⟩ := hlast
    rcases u.move_cases m with hdeeds | ⟨-, phases, hstarts⟩ | ⟨x, rfl, hmeddle⟩
    · exact hdeeds.invariant deed ih
    · obtain ⟨token, reporter, hspawn⟩ := hstarts.spawned
      exact hspawn ▸ spawn _ token reporter ih
    · exact hmeddle ▸ meddle u x hm ih

end PullConsumer.Supervisor
