import PullConsumer.Proofs.Supervisor.Requests

/-!
# What a puller still does when it is told to stop

A puller may be told to stop wherever it is: before its first turn, while it binds or waits to bind
again, while every slot is taken, or in a fetch. It looks at its token before it takes a slot, and
from that look on nothing stands between it and the fetch, which includes the way to the broker. So
a puller whose token is cancelled enters no fetch any more, and if it is not in a fetch it is
answered none. Where requests need no time on their way, a puller is never on its way between two
turns, and the journal tells of no fetch that it begins from then on (`begins_no_fetch`).

One that is in a fetch stays in it until the broker answers; the cancellation does not reach it
there. What it is given then gets its job like any other delivery, and it is the job and not the
puller that is heard of from then on (`Books.Tended`): either the job is there, or the journal tells
that the delivery was fetched, handled and settled. When a puller says that it has stopped its
subscription uses no slot, so that there is no job any more, and the delivery has had all of it.
-/

namespace PullConsumer.Supervisor

/-! ### Deliveries that are looked after -/

namespace Books

variable {b b' : Books} {n k : Nat} {d : Delivery}

/-- All has been done for a delivery that a puller was given: its job has handled and settled it,
and the journal tells so. -/
def Served (b : Books) (n k : Nat) (d : Delivery) : Prop :=
  ∃ (j : Job) (r : HandlerResult) (failure : Option String),
    j.number = k ∧ j.puller = n ∧ j.delivery = d ∧ b.record k = j.life r failure

/-- A delivery that a puller was given is in the hands of its job, or all has been done for it. -/
def Tended (b : Books) (n k : Nat) (d : Delivery) : Prop :=
  (∃ j ∈ b.jobs, j.number = k ∧ j.puller = n ∧ j.delivery = d) ∨ b.Served n k d

/-- What the journal tells of a whole life it goes on to tell, and nothing is added to it. -/
theorem record_of_life (hb' : b'.Recorded) (hsuffix : b.journal <:+ b'.journal) {j : Job}
    {r : HandlerResult} {failure : Option String} (hlife : b.record j.number = j.life r failure) :
    b'.record j.number = j.life r failure := by
  have hrecord : b.record j.number <:+ b'.record j.number := (hsuffix.map _).filter _
  have hmem : .settled j.number j.delivery.handle (Outcome.ofResult r).settlement failure ∈
      b'.record j.number := hrecord.subset (by simp [hlife, Job.life])
  obtain ⟨⟨tick, hjournal⟩, -⟩ := mem_record.1 hmem
  -- A settlement ends a job, so that its life is over there as well.
  rcases hb'.mem_or_life (hb'.lt_of_mem hjournal rfl) with ⟨i, hi, hnumber⟩ | ⟨i, r', f', -, -, h⟩
  · exact absurd hjournal ((hb'.mem_iff.1 ⟨i, hi, hnumber⟩).2 tick _ _ _)
  · have hlength : (b.record j.number).length = (b'.record j.number).length := by
      rw [hlife, h]
      rfl
    rw [← hrecord.eq_of_length hlength, hlife]

namespace Tended

theorem of_record (hb' : b'.Recorded) (hsuffix : b.journal <:+ b'.journal) (ht : b.Tended n k d)
    (hjob : ∀ j ∈ b.jobs, j.number = k → j.puller = n → j.delivery = d → b'.Tended n k d) :
    b'.Tended n k d := by
  rcases ht with ⟨j, hj, hk, hn, hd⟩ | ⟨j, r, failure, rfl, hn, hd, hlife⟩
  · exact hjob j hj hk hn hd
  · exact Or.inr ⟨j, r, failure, rfl, hn, hd, record_of_life hb' hsuffix hlife⟩

/-- **Whatever is done, a delivery is looked after**: a job keeps its delivery, and it goes only
when all is told. -/
theorem deed (h : Deed b b') (hb : b.Recorded) (ht : b.Tended n k d) : b'.Tended n k d := by
  have hb' := hb.deed h
  refine ht.of_record hb' h.suffix fun j hj hk hn hd ↦ ?_
  have hsame (hjobs : b'.jobs = b.jobs) : b'.Tended n k d :=
    Or.inl ⟨j, hjobs ▸ hj, hk, hn, hd⟩
  have hchange {m : Nat} {f : Job → Job} (hf : ∀ i, (f i).number = i.number ∧
      (f i).puller = i.puller ∧ (f i).delivery = i.delivery)
      (hjobs : b'.jobs = (b.changeJob m f).jobs) : b'.Tended n k d := by
    obtain ⟨hnumber, hpuller, hdelivery⟩ := hf j
    by_cases hm : j.number = m
    · refine Or.inl ⟨f j, ?_, hnumber.trans hk, hpuller.trans hn, hdelivery.trans hd⟩
      rw [hjobs]
      exact List.mem_map.2 ⟨j, hj, if_pos hm⟩
    · refine Or.inl ⟨j, ?_, hk, hn, hd⟩
      rw [hjobs]
      exact List.mem_map.2 ⟨j, hj, if_neg hm⟩
  have hset {m : Nat} {phase : Job.Phase} (hjobs : b'.jobs = (b.setJobPhase m phase).jobs) :
      b'.Tended n k d :=
    hchange (f := fun i ↦ { i with phase }) (fun i ↦ ⟨rfl, rfl, rfl⟩) hjobs
  have hdrop {i : Job} {r : HandlerResult} {failure : Option String} (hi : i ∈ b.jobs)
      (hjobs : b'.jobs = (b.dropJob i.number).jobs)
      (hlife : b'.record i.number = i.life r failure) : b'.Tended n k d := by
    by_cases hij : j.number = i.number
    · have hji : j = i := List.inj_on_of_nodup_map hb.once hj hi hij
      subst hji
      exact Or.inr ⟨j, r, failure, hk, hn, hd, hk ▸ hlife⟩
    · refine Or.inl ⟨j, ?_, hk, hn, hd⟩
      rw [hjobs]
      exact List.mem_filter.2 ⟨hj, by simpa using hij⟩
  cases h with
  | receive _ _ _ => exact Or.inl ⟨j, List.mem_append_left _ hj, hk, hn, hd⟩
  | @call i lag count phase _ _ _ _ =>
    exact hchange (f := fun k ↦ { k with count, phase }) (fun i ↦ ⟨rfl, rfl, rfl⟩) rfl
  | rest _ _ _ => exact hset rfl
  | @finish i r giveUpDue _ _ =>
    exact @hset i.number (.settling (.ofResult r)
      (b.now + b.setup.client.settleTicks (Outcome.ofResult r).settlement) giveUpDue)
      (by simp [setJobPhase, changeJob, measure, note])
  | await _ _ => exact hset rfl
  | @settle i outcome answerDue giveUpDue hi hphase _ =>
    obtain ⟨r, -, hlife⟩ := hb.exists_life_of_settling hi hphase
    refine @hdrop i r none hi (by simp [giveBack, dropJob, note]) ?_
    rw [record_giveBack, record_dropJob, record_reportSettled, record_note_self rfl]
    exact hlife none
  | @fail i outcome answerDue giveUpDue reason hi hphase _ =>
    obtain ⟨r, -, hlife⟩ := hb.exists_life_of_settling hi hphase
    refine @hdrop i r (some reason) hi rfl ?_
    rw [record_giveBack, record_dropJob, record_reportUnsettled, record_note_self rfl]
    exact hlife (some reason)
  | _ => exact hsame rfl

end Tended

end Books

/-- A delivery is looked after all along a run. -/
theorem Runs.tended {allowed : State → Move → Prop} {s t : State} {n k : Nat} {d : Delivery}
    (hrun : Runs allowed s t) (hs : s.books.Recorded) (h : s.books.Tended n k d) :
    t.books.Tended n k d := by
  refine (hrun.books_induction (P := fun b ↦ b.Recorded ∧ b.Tended n k d) ?_ ?_ ?_ ⟨hs, h⟩).2
  · rintro b b' hdeed ⟨hrecorded, htended⟩
    exact ⟨hrecorded.deed hdeed, htended.deed hdeed hrecorded⟩
  · rintro b token reporter ⟨hrecorded, htended⟩
    exact ⟨hrecorded.spawn token reporter, htended⟩
  · rintro u x - ⟨hrecorded, htended⟩
    exact ⟨hrecorded.aside rfl rfl rfl rfl fun _ ↦ rfl, htended⟩

/-! ### A puller in a fetch -/

namespace State

variable {s : State} {n : Nat} {p q : Puller} {m : Move} {d : Delivery}

/-- A puller is in a fetch from the look that finds a slot for it until the answer. -/
def inFetch (s : State) (n : Nat) : Bool := (s.pullers[n]?).any Puller.holdsSlot

theorem inFetch_eq (hp : s.pullers[n]? = some p) : s.inFetch n = p.phase.holdsSlot := by
  simp [inFetch, hp]

/-- Who is in no fetch is not answered one. -/
theorem fetchAnswer?_of_free (hfree : p.phase.holdsSlot = false) : s.fetchAnswer? p = none := by
  rw [fetchAnswer?]
  split
  · next hphase => exact absurd hfree (by simp [hphase, Puller.Phase.holdsSlot])
  · next hphase => exact absurd hfree (by simp [hphase, Puller.Phase.holdsSlot])
  · rfl

/-- **A puller in a fetch looks for its answer**, unless its request is on its way to the broker or
the deadline would lie past the horizon. -/
theorem fetch_cases (n : Nat) (hslot : p.phase.holdsSlot = true) :
    (∃ (t : State) (f : Broker.Fetch) (found : Broker.Fetch.Progress × Broker),
      (p.phase = .fetching f ∨ ∃ due, p.phase = .reaching due) ∧ t.pullers = s.pullers ∧
      t.jobsBegun = s.jobsBegun ∧ s.fetchAnswer? p = found.1.answer? ∧
      s.pullerStep n p = t.fetchStep n p f found) ∨
    ∃ due, p.phase = .reaching due ∧ s.fetchAnswer? p = none ∧
      ((s.pullerStep n p).1.pullers = s.pullers ∨
        (s.fetchTimeout p.sub).limit? s.now = none ∧ ∃ cause, (s.pullerStep n p).1.pullers =
          s.pullers.modify n fun p ↦ { p with phase := .crashed cause }) := by
  rw [pullerStep, fetchAnswer?]
  cases hphase : p.phase with
  | reaching due =>
    dsimp only
    split
    · rw [reachStep_eq, reachAnswer?_eq]
      beta_reduce
      cases hstart : Broker.Fetch.start s.now (s.binding p.sub).toConsumerId
        (s.fetchTimeout p.sub) with
      | ok f =>
        exact Or.inl ⟨s.note (.fetchBegun n), f, _, Or.inr ⟨due, rfl⟩, rfl, rfl, rfl, rfl⟩
      | error cause =>
        have hlimit := Broker.Fetch.limit?_of_start_eq_error hstart
        exact Or.inr ⟨due, rfl, rfl, Or.inr ⟨hlimit, cause, rfl⟩⟩
    · exact Or.inr ⟨due, rfl, rfl, Or.inl rfl⟩
  | fetching f => exact Or.inl ⟨s, f, _, Or.inl rfl, rfl, rfl, rfl, rfl⟩
  | _ => exact absurd hslot (by simp [hphase, Puller.Phase.holdsSlot])

/-- **A fetch goes on until it is answered.** Only a deadline past the horizon ends it otherwise. -/
theorem fetch_of_no_answer (hp : s.pullers[n]? = some p) (hslot : p.phase.holdsSlot = true)
    (hnone : s.fetchAnswer? p = none) (hq : (s.move (.pull n)).pullers[n]? = some q) :
    (q.phase.holdsSlot = true ∧ ∀ f, p.phase = .fetching f → q.phase = .fetching f) ∨
    ∃ due cause, p.phase = .reaching due ∧ q.phase = .crashed cause ∧
      (s.fetchTimeout p.sub).limit? s.now = none := by
  have hset {phase : Puller.Phase} (h : (s.pullerStep n p).1.pullers =
      s.pullers.modify n fun p ↦ { p with phase }) : q.phase = phase := by
    rw [move_pull hp, h, List.getElem?_modify_eq, hp] at hq
    rw [← Option.some.inj hq]
  rcases s.fetch_cases n hslot with ⟨t, f, found, hphase, hpullers, -, hanswer, hstep⟩ |
    ⟨due, hphase, -, hsame | ⟨hlimit, cause, hcrash⟩⟩
  · obtain ⟨progress, x⟩ := found
    cases progress with
    | finished answer => exact absurd (hnone.symm.trans hanswer) (by simp [Broker.Fetch.Progress.answer?])
    | waiting =>
      have hfetching : q.phase = .fetching f := hset (by rw [hstep, ← hpullers]; rfl)
      refine Or.inl ⟨hfetching ▸ rfl, fun g hg ↦ ?_⟩
      rcases hphase with hphase | ⟨due, hphase⟩
      · rw [hfetching, ← hphase, hg]
      · exact absurd (hphase.symm.trans hg) (by simp)
  · rw [move_pull hp, hsame, hp] at hq
    obtain rfl := Option.some.inj hq
    exact Or.inl ⟨hslot, fun g hg ↦ hg⟩
  · exact Or.inr ⟨due, cause, hphase, hset hcrash, hlimit⟩

/-- **A delivery that a fetch has brought has its job**, with the number that is next. -/
theorem exists_job_of_fetchAnswer? (hp : s.pullers[n]? = some p)
    (h : s.fetchAnswer? p = some (.ok d)) : ∃ j ∈ (s.move (.pull n)).jobs,
      j.number = s.jobsBegun ∧ j.puller = n ∧ j.delivery = d := by
  have hslot : p.phase.holdsSlot = true := by
    by_contra hfree
    rw [fetchAnswer?_of_free (by simpa using hfree)] at h
    exact absurd h (by simp)
  rcases s.fetch_cases n hslot with ⟨t, f, found, -, -, hbegun, hanswer, hstep⟩ |
    ⟨due, -, hnone, -⟩
  · obtain ⟨progress, x⟩ := found
    cases progress with
    | waiting => exact absurd (h.symm.trans hanswer) (by simp [Broker.Fetch.Progress.answer?])
    | finished answer =>
      obtain rfl : answer = .ok d := (Option.some.inj (h.symm.trans hanswer)).symm
      rw [move_pull hp, hstep]
      exact ⟨_, List.mem_append_right _ List.mem_cons_self, hbegun, rfl, rfl⟩
  · exact absurd (h.symm.trans hnone) (by simp)

/-! ### A puller that is told to stop -/

/-- A puller has been told to stop. -/
def IsCalledOff (s : State) (n : Nat) : Prop :=
  ∃ p, s.pullers[n]? = some p ∧ s.isCancelled p.token = true

/-- Who is told to stop is told for good. -/
theorem IsCalledOff.move (h : s.IsCalledOff n) (m : Move) : (s.move m).IsCalledOff n := by
  obtain ⟨p, hp, hcancelled⟩ := h
  have hcancelled' := isCancelled_move hcancelled m
  by_cases hm : m = .pull n
  · subst hm
    obtain ⟨⟨phase, entries, -, hstrode, -⟩, -⟩ := strides_move hp
    exact ⟨_, hstrode.puller hp, hcancelled'⟩
  · rcases s.puller_of_move hm with hsame | ⟨hnone, -⟩
    · exact ⟨p, hsame.trans hp, hcancelled'⟩
    · exact absurd (hp.symm.trans hnone) (by simp)

theorem IsCalledOff.after (h : s.IsCalledOff n) (moves : List Move) :
    (s.after moves).IsCalledOff n := by
  induction moves generalizing s with
  | nil => exact h
  | cons m rest ih => exact ih (h.move m)

/-- Where a puller looks at its token, it leaves if the token is cancelled. -/
theorem pullerStep_of_looksUp (n : Nat) (hlooks : p.phase.looksUp = true)
    (hcancelled : s.isCancelled p.token = true) : s.pullerStep n p = s.goTo n .leaving := by
  rw [pullerStep]
  cases hphase : p.phase with
  | rebinding errors due => simp [hcancelled]
  | head => simp [headStep, hcancelled]
  | crowded due => simp [hcancelled]
  | _ => exact absurd hlooks (by simp [hphase, Puller.Phase.looksUp])

/-- **A puller that is told to stop enters no fetch.** -/
theorem free_of_pull (hp : s.pullers[n]? = some p) (hcancelled : s.isCancelled p.token = true)
    (hfree : p.phase.holdsSlot = false) : (s.move (.pull n)).inFetch n = false := by
  by_cases hlooks : p.phase.looksUp = true
  · have hleaving : (s.move (.pull n)).pullers[n]? = some { p with phase := .leaving } := by
      rw [move_pull hp, pullerStep_of_looksUp n hlooks hcancelled]
      show (s.pullers.modify n _)[n]? = _
      rw [List.getElem?_modify_eq, hp]
      rfl
    rw [inFetch_eq hleaving]
    rfl
  · -- A round is made of looks and of fetches.
    have hround (h : p.phase.isRound = true) : False := by
      cases hphase : p.phase <;> simp_all [Puller.Phase.isRound, Puller.Phase.looksUp,
        Puller.Phase.holdsSlot]
    obtain ⟨⟨phase, entries, hstride, hstrode, -⟩, -⟩ := strides_move hp
    rw [inFetch_eq (hstrode.puller hp)]
    generalize s.bindAnswer? p = bind, s.fetchAnswer? p = fetch at hstride
    cases hstride with
    | wait => exact hfree
    | retry _ hphase =>
      rcases hphase with rfl | ⟨due, rfl⟩
      · rfl
      · rfl
    | round h _ _ => exact (hround h).elim
    | _ => rfl

/-- With the answer a fetch is over. -/
theorem free_of_answer (hp : s.pullers[n]? = some p) {answer : Except BrokerError Delivery}
    (h : s.fetchAnswer? p = some answer) : (s.move (.pull n)).inFetch n = false := by
  obtain ⟨⟨phase, entries, hstride, hstrode, -⟩, -⟩ := strides_move hp
  rw [inFetch_eq (hstrode.puller hp)]
  rw [h] at hstride
  generalize s.bindAnswer? p = bind at hstride
  cases hstride <;> rfl

theorem inFetch_of_ne (hp : s.pullers[n]? = some p) (hm : m ≠ .pull n) :
    (s.move m).inFetch n = s.inFetch n := by
  rcases s.puller_of_move hm with hsame | ⟨hnone, -⟩
  · rw [inFetch, inFetch, hsame]
  · exact absurd (hp.symm.trans hnone) (by simp)

/-- A puller that is told to stop does not set out for the broker. -/
theorem IsCalledOff.not_reaching_move (h : s.IsCalledOff n) (hreach : ¬ s.IsReaching n) (m : Move) :
    ¬ (s.move m).IsReaching n := by
  rintro ⟨q, due, hq, hphase⟩
  obtain ⟨p, hp, hcancelled⟩ := h
  by_cases hm : m = .pull n
  · subst hm
    have hbusy : (s.move (.pull n)).inFetch n = true := by
      rw [inFetch_eq hq, hphase]
      rfl
    by_cases hslot : p.phase.holdsSlot = true
    · cases hanswer : s.fetchAnswer? p with
      | some answer => exact absurd hbusy (by simp [free_of_answer hp hanswer])
      | none =>
        rcases fetch_of_no_answer hp hslot hanswer hq with ⟨-, hfetch⟩ | ⟨due', -, hold, -⟩
        · cases hold : p.phase with
          | reaching due' => exact hreach ⟨p, due', hp, hold⟩
          | fetching f => exact absurd (hphase.symm.trans (hfetch f hold)) (by simp)
          | _ => exact absurd hslot (by simp [hold, Puller.Phase.holdsSlot])
        · exact hreach ⟨p, due', hp, hold⟩
    · have hfree : p.phase.holdsSlot = false := by simpa using hslot
      exact absurd hbusy (by simp [free_of_pull hp hcancelled hfree])
  · rcases s.puller_of_move hm with hsame | ⟨hnone, -⟩
    · exact hreach ⟨q, due, hsame ▸ hq, hphase⟩
    · exact absurd (hp.symm.trans hnone) (by simp)

/-- **A puller that is told to stop and has not set out begins no fetch any more.** -/
theorem IsCalledOff.count_askers (h : s.IsCalledOff n) (hreach : ¬ s.IsReaching n)
    (moves : List Move) : (askers (s.after moves).journal).count n = (askers s.journal).count n := by
  induction moves generalizing s with
  | nil => rfl
  | cons m rest ih =>
    refine (ih (h.move m) (h.not_reaching_move hreach m)).trans ?_
    rcases s.askers_move m with hsame | ⟨k, -, hk, hasks⟩
    · rw [hsame]
    · have hne : k ≠ n := fun heq ↦ hreach (heq ▸ hk)
      rw [hasks, List.count_cons_of_ne hne]

/-- What others do leaves a puller where it is. -/
theorem puller_of_others (hp : s.pullers[n]? = some p) {moves : List Move}
    (hothers : ∀ m ∈ moves, m ≠ .pull n) : (s.after moves).pullers[n]? = some p := by
  induction moves generalizing s with
  | nil => exact hp
  | cons m rest ih =>
    rw [List.forall_mem_cons] at hothers
    refine ih ?_ hothers.2
    rcases s.puller_of_move hothers.1 with hsame | ⟨hnone, -⟩
    · exact hsame.trans hp
    · exact absurd (hp.symm.trans hnone) (by simp)

/-! ### Answers and stops in a tale -/

theorem fetches_part_pull (hp : s.pullers[n]? = some p) :
    (s.part n (.pull n)).fetches = (s.fetchAnswer? p).toList := by
  rw [part_pull hp]

/-- Nobody else is given the answers to the fetches of a puller. -/
theorem fetches_part_of_ne (hm : m ≠ .pull n) : (s.part n m).fetches = [] := by
  cases m with
  | pull k =>
    rw [part_of_not_isBy]
    simpa [isBy] using fun hk ↦ hm (congrArg Move.pull hk)
  | _ =>
    unfold part
    split <;> rfl

/-- A puller that is told to stop has no answer to come but the one to the fetch that it is in. -/
theorem IsCalledOff.length_fetches_part (h : s.IsCalledOff n) (m : Move) :
    (s.part n m).fetches.length + (if (s.move m).inFetch n then 1 else 0) ≤
      if s.inFetch n then 1 else 0 := by
  obtain ⟨p, hp, hcancelled⟩ := h
  by_cases hm : m = .pull n
  · subst hm
    rw [fetches_part_pull hp, inFetch_eq hp]
    by_cases hslot : p.phase.holdsSlot = true
    · rw [if_pos hslot]
      cases hanswer : s.fetchAnswer? p with
      | some answer =>
        rw [free_of_answer hp hanswer]
        exact Nat.le_refl 1
      | none =>
        show 0 + _ ≤ 1
        split <;> omega
    · have hfree : p.phase.holdsSlot = false := by simpa using hslot
      rw [fetchAnswer?_of_free hfree, free_of_pull hp hcancelled hfree]
      exact Nat.zero_le _
  · rw [fetches_part_of_ne hm, inFetch_of_ne hp hm]
    exact Nat.le_of_eq (Nat.zero_add _)

/-- A puller tells that it has stopped only when it leaves and its subscription uses no slot. -/
theorem leaving_of_stride {bind : Option (Except BrokerError Unit)}
    {fetch : Option (Except BrokerError Delivery)} {phase : Puller.Phase} {entries : List Entry}
    (h : Stride s n p bind fetch phase entries) :
    (∀ e ∈ entries, e.tellsOf .subscriptionStopped = false) ∨
      p.phase = .leaving ∧ s.inUse p.sub = 0 := by
  cases h with
  | stop hphase hidle => exact Or.inr ⟨hphase, hidle⟩
  | _ => exact Or.inl (by simp [Setup.tells, Entry.tellsOf, Event.withBinding, Event.withNames,
      Event.withAttempt, Event.withReason, Event.of])

/-- A puller or one of its jobs tells in a move that the puller has stopped. -/
def TellsStop (s : State) (n : Nat) (m : Move) : Prop :=
  ∃ e ∈ (s.part n m).told, e.tellsOf .subscriptionStopped = true

/-- **Nobody else tells it**: no job speaks of a stop. -/
theorem TellsStop.leaving (h : s.TellsStop n m) : ∃ p, m = .pull n ∧ s.pullers[n]? = some p ∧
    p.phase = .leaving ∧ s.inUse p.sub = 0 := by
  obtain ⟨e, he, hstopped⟩ := h
  rw [told_part] at he
  obtain ⟨hby, htells⟩ := List.mem_ite_nil_right.1 he
  have hnothing (hsame : (s.move m).journal = s.journal) : False := by
    rw [tells_eq (by rw [hsame, List.append_nil])] at htells
    exact absurd htells List.not_mem_nil
  cases m with
  | pull k =>
    obtain rfl : k = n := by simpa [isBy] using hby
    cases hp : s.pullers[k]? with
    | none => exact (hnothing (by rw [State.move, hp])).elim
    | some p =>
      obtain ⟨⟨phase, entries, hstride, hstrode, -⟩, -⟩ := strides_move hp
      rw [tells_eq hstrode.told] at htells
      rcases leaving_of_stride hstride with hnone | ⟨hphase, hidle⟩
      · exact absurd hstopped (by simp [hnone e htells])
      · exact ⟨p, rfl, rfl, hphase, hidle⟩
  | work k =>
    rcases jobTurn_cases s k with ⟨hturn, -⟩ | ⟨j, -, -, hworks⟩
    · exact (hnothing ((congrArg journal hturn).trans rfl)).elim
    · obtain ⟨entries, htold, hentries⟩ := hworks.told
      rw [tells_eq (m := .work k) htold] at htells
      have hnone := (countP_of_handling hentries).2
      exact absurd hstopped (List.countP_eq_zero.1 hnone e htells)
  | _ => exact absurd hby (by simp [isBy])

end State

/-! ### Along a run -/

section Run

variable {s : State} {n : Nat}

theorem tale_append (n : Nat) (s : State) (moves more : List Move) :
    tale n s (moves ++ more) = tale n s moves ++ tale n (s.after moves) more := by
  induction more using List.reverseRecOn with
  | nil => simp [tale, State.steps]
  | append_singleton more m ih =>
    rw [← List.append_assoc, tale_concat, ih, tale_concat, State.after_append]
    ext1 <;> simp

/-- A puller that is told to stop is given the answer to the fetch that it is in, and no other. -/
theorem length_fetches_tale (h : s.IsCalledOff n) (moves : List Move) :
    (tale n s moves).fetches.length + (if (s.after moves).inFetch n then 1 else 0) ≤
      if s.inFetch n then 1 else 0 := by
  induction moves using List.reverseRecOn with
  | nil => exact Nat.le_of_eq (Nat.zero_add _)
  | append_singleton moves m ih =>
    have hpart := (h.after moves).length_fetches_part m
    rw [tale_concat, Tale.fetches_append, List.length_append, State.after_concat]
    omega

/-- **What may become of a fetch in a move.** -/
inductive Endures (s : State) (n : Nat) (m : Move) (p q : Puller) : Prop
  /-- It waits on. -/
  | wait (hslot : q.phase.holdsSlot = true)
      (hfetch : ∀ f, p.phase = .fetching f → q.phase = .fetching f)
  /-- The broker has answered it. -/
  | answered {answer : Except BrokerError Delivery} (hm : m = .pull n)
      (hanswer : (s.part n m).fetches = [answer])
  /-- It has reached the broker, and its deadline would lie past the horizon. -/
  | crash {due : Nat} {cause : Crash} (hm : m = .pull n) (hphase : p.phase = .reaching due)
      (hcrash : q.phase = .crashed cause) (hlimit : (s.fetchTimeout p.sub).limit? s.now = none)

theorem endures {p q : Puller} (hp : s.pullers[n]? = some p) (hslot : p.phase.holdsSlot = true)
    {m : Move} (hq : (s.move m).pullers[n]? = some q) : Endures s n m p q := by
  by_cases hm : m = .pull n
  · subst hm
    cases hanswer : s.fetchAnswer? p with
    | some answer =>
      refine @Endures.answered _ _ _ _ _ answer rfl ?_
      rw [State.fetches_part_pull hp, hanswer]
      rfl
    | none =>
      rcases State.fetch_of_no_answer hp hslot hanswer hq with
        ⟨hslot', hfetch⟩ | ⟨due, cause, hphase, hcrash, hlimit⟩
      · exact .wait hslot' hfetch
      · exact .crash rfl hphase hcrash hlimit
  · rcases s.puller_of_move hm with hsame | ⟨hnone, -⟩
    · obtain rfl := Option.some.inj (hp.symm.trans (hsame.symm.trans hq))
      exact .wait hslot fun f hf ↦ hf
    · exact absurd (hp.symm.trans hnone) (by simp)

/-- **What a puller still does that is told to stop.** -/
structure CutOff (s : State) (n : Nat) (moves : List Move) : Prop where
  /-- It enters no fetch. One that is on its way to the broker is in its fetch already. -/
  begins : ∀ x ∈ s.steps moves, (x.1.move x.2).inFetch n = true → x.1.inFetch n = true
  /-- It is given no answer but the one to the fetch that it is in. -/
  answers : (tale n s moves).fetches.length ≤ if s.inFetch n then 1 else 0
  /-- Its fetch is not broken off. -/
  endures : ∀ x ∈ s.steps moves, ∀ p q : Puller, x.1.pullers[n]? = some p →
    (x.1.move x.2).pullers[n]? = some q → p.phase.holdsSlot = true → Endures x.1 n x.2 p q
  /-- What it is given gets a job. -/
  dispatched : ∀ x ∈ s.steps moves, ∀ d, .ok d ∈ (x.1.part n x.2).fetches →
    ∃ j ∈ (x.1.move x.2).jobs, j.number = x.1.jobsBegun ∧ j.puller = n ∧ j.delivery = d
  /-- When it tells that it has stopped, it is given nothing any more, and all has been done for
  what it was given. -/
  settled : ∀ (earlier : List Move) (m : Move) (later : List Move), moves = earlier ++ m :: later →
    (s.after earlier).TellsStop n m → (tale n s moves).fetches = (tale n s earlier).fetches ∧
      ∀ x ∈ s.steps earlier, ∀ d, .ok d ∈ (x.1.part n x.2).fetches →
        (s.after earlier).books.Served n x.1.jobsBegun d

theorem exists_job_of_mem_fetches {m : Move} {d : Delivery}
    (h : .ok d ∈ (s.part n m).fetches) :
    ∃ j ∈ (s.move m).jobs, j.number = s.jobsBegun ∧ j.puller = n ∧ j.delivery = d := by
  by_cases hm : m = .pull n
  · subst hm
    cases hp : s.pullers[n]? with
    | none => simp [State.part, State.isBy, hp] at h
    | some p =>
      rw [State.fetches_part_pull hp, Option.mem_toList] at h
      exact State.exists_job_of_fetchAnswer? hp h
  · rw [State.fetches_part_of_ne hm] at h
    exact absurd h List.not_mem_nil

/-- **A puller that is told to stop**, wherever it is, is cut off from the broker: whoever moves from
then on, it enters no fetch, and all that it is still given is the answer to the fetch that it is in.
That fetch goes on undisturbed, and a delivery that it brings has its job, which has handled and
settled it when the puller tells that it has stopped. -/
theorem cut_off {plan : Plan} {s : State} (hbuild : plan.build = .ok s)
    (policy : Retry.Policy BrokerError) (before : List Move) {n : Nat} {p : Puller}
    (hp : ((s.retrying policy).after before).pullers[n]? = some p)
    (hcancelled : ((s.retrying policy).after before).isCancelled p.token = true)
    (moves : List Move) : CutOff ((s.retrying policy).after before) n moves := by
  have hsound := (Runs.of_moves (s.retrying policy) before).sound
    (Plan.sound_of_build hbuild policy)
  generalize (s.retrying policy).after before = t at hp hcancelled hsound ⊢
  have hoff : t.IsCalledOff n := ⟨p, hp, hcancelled⟩
  have hanswers (moves : List Move) := length_fetches_tale hoff moves
  refine {
    begins := fun x hx hfetch ↦ ?_
    answers := Nat.le_trans (Nat.le_add_right _ _) (hanswers moves)
    endures := fun x _ p q hp hq hslot ↦ Supervisor.endures hp hslot hq
    dispatched := fun x _ d hd ↦ exists_job_of_mem_fetches hd
    settled := fun earlier m later hmoves hstops ↦ ⟨?_, fun x hx d hd ↦ ?_⟩ }
  · obtain ⟨earlier, later, -, hstate⟩ := State.exists_split_of_mem_steps hx
    have hstep := (hstate ▸ hoff.after earlier : x.1.IsCalledOff n).length_fetches_part x.2
    by_contra hfree
    rw [if_pos hfetch, if_neg hfree] at hstep
    omega
  · obtain ⟨q, -, hq, hleaving, -⟩ := hstops.leaving
    have hrest := length_fetches_tale (hoff.after earlier) (m :: later)
    rw [State.inFetch_eq hq, hleaving] at hrest
    have hnone : (tale n (t.after earlier) (m :: later)).fetches = [] :=
      List.length_eq_zero_iff.1 (by
        change _ ≤ 0 at hrest
        omega)
    rw [hmoves, tale_append, Tale.fetches_append, hnone, List.append_nil]
  · obtain ⟨q, -, hq, -, hidle⟩ := hstops.leaving
    obtain ⟨first, rest, rfl, hstate⟩ := State.exists_split_of_mem_steps hx
    have hafter : t.after (first ++ x.2 :: rest) = (x.1.move x.2).after rest := by
      rw [State.after_append, ← hstate]
      rfl
    have hlate := (Runs.of_moves t (first ++ x.2 :: rest)).sound hsound
    have hearly := (Runs.of_moves t (first ++ [x.2])).sound hsound
    rw [State.after_concat, ← hstate] at hearly
    have htended : (t.after (first ++ x.2 :: rest)).books.Tended n x.1.jobsBegun d := by
      rw [hafter]
      exact (Runs.of_moves _ rest).tended hearly.1 (Or.inl (exists_job_of_mem_fetches hd))
    rcases htended with ⟨j, hj, -, hjn, -⟩ | hserved
    · exact absurd hjn (hlate.2.puller_ne_of_idle hlate.1 hq hidle hj)
    · exact hserved

end Run

/-- The supervisor starts and its puller takes its slot; then the parent token is cancelled. -/
def Move.overtaking : List Move :=
  [.newToken none, .start 0, .pull 0, .pull 0, .pull 0, .cancel 0]

/-- The puller is given its message and leaves; the handler ends a tick later, and the puller
stops. -/
def Move.leaving : List Move :=
  [.pull 0, .pull 0, .work 0, .pass { now := 1 } 0 false, .work 0, .pull 0]

/-- The puller of the small supervisor is told to stop while it reaches for the message. -/
theorem cut_off_lone : ∃ (s : State) (p : Puller), Plan.lone.build = .ok s ∧
    ((s.retrying {}).after Move.overtaking).pullers[0]? = some p ∧
    ((s.retrying {}).after Move.overtaking).isCancelled p.token = true ∧
    p.phase.holdsSlot = true ∧
    (tale 0 ((s.retrying {}).after Move.overtaking) Move.leaving).fetches.length = 1 ∧
    (tale 0 ((s.retrying {}).after Move.overtaking) Move.leaving).told.any
      (Entry.tellsOf .subscriptionStopped) = true ∧
    CutOff ((s.retrying {}).after Move.overtaking) 0 Move.leaving := by
  obtain ⟨s, p, hbuild, hp, hcancelled, hslot, hlength, hstops⟩ : ∃ (s : State) (p : Puller),
      Plan.lone.build = .ok s ∧
      ((s.retrying {}).after Move.overtaking).pullers[0]? = some p ∧
      ((s.retrying {}).after Move.overtaking).isCancelled p.token = true ∧
      p.phase.holdsSlot = true ∧
      (tale 0 ((s.retrying {}).after Move.overtaking) Move.leaving).fetches.length = 1 ∧
      (tale 0 ((s.retrying {}).after Move.overtaking) Move.leaving).told.any
        (Entry.tellsOf .subscriptionStopped) = true :=
    ⟨_, _, rfl, rfl, rfl, rfl, by decide +kernel, by decide +kernel⟩
  exact ⟨s, p, hbuild, hp, hcancelled, hslot, hlength, hstops,
    cut_off hbuild {} Move.overtaking hp hcancelled Move.leaving⟩

/-- **Where requests need no time, no fetch begins after the cancellation.** A puller has had a turn,
others have moved, and now its token is cancelled; then the journal tells of no other fetch that it
has begun, whoever moves from then on. For the look at the token, the slot and the begin of the fetch
are in one turn. -/
theorem begins_no_fetch {allowed : State → Move → Prop} {plan : Plan} {s t : State}
    (hbuild : plan.build = .ok s)
    (hchecked : ∀ x ∈ plan.subscriptions, ∃ d : Subscription.Draft, d.build = .ok x)
    (hticks : plan.client.fetchTicks = 0) (hrun : Runs allowed s t) {n : Nat} {p : Puller}
    (hp : t.pullers[n]? = some p) {others : List Move} (hothers : ∀ m ∈ others, m ≠ .pull n)
    (hcancelled : ((State.pullerTurn n t).after others).isCancelled p.token = true)
    (moves : List Move) :
    (askers (((State.pullerTurn n t).after others).after moves).journal).count n =
      (askers ((State.pullerTurn n t).after others).journal).count n := by
  obtain ⟨phase, hturn, -⟩ := Runs.rests hbuild hchecked hrun hp
  have hlater := State.puller_of_others hturn hothers
  have hoff : ((State.pullerTurn n t).after others).IsCalledOff n := ⟨_, hlater, hcancelled⟩
  refine hoff.count_askers ?_ moves
  rintro ⟨q, due, hq, hphase⟩
  obtain rfl := Option.some.inj (hlater.symm.trans hq)
  exact Runs.not_reaching hbuild hchecked hticks hrun hp ⟨_, due, hturn, hphase⟩

end PullConsumer.Supervisor
