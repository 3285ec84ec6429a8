import PullConsumer.Proofs.Supervisor.Tale

/-!
# How a puller ends that nobody told to stop

A puller whose token is not cancelled has one good reason to come to its end: the broker has failed.
Then it reports the failure, once, and tells the world that it has stopped. Both can be read off its
tale (`Ending.report_once`).

There is also a bad reason. A fetch whose deadline would lie past the horizon of the clock ends the
puller on the spot, and nothing is reported or told. The settings accept every timeout that is not
zero, so such a deadline can be asked for (`Plan.crashes_patient`). It is the only way in which a
puller ends in silence (`reports_of_over`).
-/

namespace PullConsumer

theorem Duration.limit?_eq_none_of_le {d : Duration} {now later : Nat} (hle : now ≤ later)
    (h : d.limit? now = none) : d.limit? later = none := by
  rw [limit?] at h ⊢
  have hnanos : (ofMillis now).nanos ≤ (ofMillis later).nanos := Nat.mul_le_mul_right _ hle
  split at h
  · exact absurd h (by simp)
  · next hpast => exact if_neg fun hlt ↦ hpast (by omega)

namespace Supervisor

namespace Entry

/-- A puller reported a failure. -/
def isReport : Entry → Bool
  | fatal .. => true
  | _ => false

end Entry

/-! ### The clock -/

theorem Deed.now_le {b b' : Books} (h : Deed b b') : b.now ≤ b'.now := by
  have hsame (h : b'.now = b.now) : b.now ≤ b'.now := Nat.le_of_eq h.symm
  cases h with
  | pass h => exact h
  | finish _ _ =>
    exact hsame (by simp [Books.setJobPhase, Books.changeJob, Books.measure, Books.note])
  | settle _ _ _ => exact hsame (by simp [Books.giveBack, Books.dropJob, Books.note])
  | _ => exact Nat.le_refl _

/-- Nobody turns the clock back. -/
theorem State.now_le_move (s : State) (m : Move) : s.now ≤ (s.move m).now :=
  (Runs.single trivial : Runs anything s (s.move m)).books_induction (P := fun b ↦ s.now ≤ b.now)
    (fun _ _ hdeed hb ↦ hb.trans hdeed.now_le) (fun _ _ _ hb ↦ hb) (fun _ _ _ hb ↦ hb)
    (Nat.le_refl _)

/-! ### What a tale reports -/

/-- What jobs tell is neither a report nor a stop. -/
theorem countP_of_handling {entries : List Entry} {b : Binding}
    (h : ∀ e ∈ entries, e.IsOfHandling b) : entries.countP Entry.isReport = 0 ∧
      entries.countP (Entry.tellsOf .subscriptionStopped) = 0 := by
  constructor
  · refine List.countP_eq_zero.2 fun e he ↦ ?_
    obtain ⟨event, -, rfl⟩ := h e he
    exact Bool.false_ne_true
  · refine List.countP_eq_zero.2 fun e he ↦ ?_
    obtain ⟨event, hkind, rfl⟩ := h e he
    intro htells
    have hstop : event.kind = .subscriptionStopped := of_decide_eq_true htells
    exact absurd hkind (by simp [hstop, isOfHandling])

/-- A puller that is bound and pulls has reported nothing and not stopped. -/
theorem Tale.countP_bound {x : Setup} {sub : Nat} {causes : List BrokerError}
    {fetches : List (Except BrokerError Delivery)} {handling : List Entry}
    (h : ∀ e ∈ handling, e.IsOfHandling (x.binding sub)) :
    (Tale.bound x sub causes fetches handling).told.countP Entry.isReport = 0 ∧
      (Tale.bound x sub causes fetches handling).told.countP
        (Entry.tellsOf .subscriptionStopped) = 0 := by
  obtain ⟨hreports, hstops⟩ := countP_of_handling h
  constructor
  · simpa [Tale.bound, Setup.tells, Entry.isReport] using hreports
  · simpa [Tale.bound, Setup.tells, Entry.tellsOf, Event.withBinding, Event.withNames,
      Event.withAttempt, Event.of] using hstops

namespace Ending

variable {x : Setup} {n sub : Nat} {y : Tale}

/-- **A puller that was not told to stop has reported its failure, once.** -/
theorem report_once (h : Ending x n sub y) (hlive : true ∉ y.partings) :
    y.told.countP Entry.isReport = 1 := by
  cases h with
  | unbound causes => exact absurd List.mem_cons_self hlive
  | refused causes cause => simp [Setup.tells, Entry.isReport]
  | stopped causes _ _ => exact absurd (by simp [Tale.bound]) hlive
  | failed causes cancelled _ _ hbefore hafter =>
    simp [Tale.bound, Setup.tells, List.countP_cons, Entry.isReport,
      (countP_of_handling hbefore).1, (countP_of_handling hafter).1]

/-- Until it stops a puller does not tell that it has stopped. -/
theorem countP_stopped (h : Ending x n sub y) :
    y.told.countP (Entry.tellsOf .subscriptionStopped) = 0 := by
  cases h with
  | unbound causes => rfl
  | refused causes cause => rfl
  | stopped causes _ hhandling =>
    rw [Tale.told_append, List.append_nil]
    exact (Tale.countP_bound hhandling).2
  | failed causes cancelled _ _ hbefore hafter =>
    simp [Tale.bound, Setup.tells, Entry.tellsOf, Event.withBinding, Event.withNames,
      Event.withAttempt, Event.withReason, Event.of,
      (countP_of_handling hbefore).2, (countP_of_handling hafter).2]

end Ending

/-! ### Pullers that crash -/

/-- A puller crashes when it reaches the broker, and then it stays as it is. -/
theorem Stride.of_crashed {s : State} {n : Nat} {p : Puller}
    {bind : Option (Except BrokerError Unit)} {fetch : Option (Except BrokerError Delivery)}
    {phase : Puller.Phase} {entries : List Entry} {cause : Crash}
    (h : Stride s n p bind fetch phase entries) (hphase : phase = .crashed cause) :
    p.phase = .crashed cause ∨ (s.fetchTimeout p.sub).limit? s.now = none := by
  cases h with
  | wait => exact Or.inl hphase
  | crash _ hlimit => exact Or.inr hlimit
  | retry _ hretry =>
    rcases hretry with rfl | ⟨due, rfl⟩
    · exact absurd hphase (by simp)
    · exact absurd hphase (by simp)
  | round _ hround => exact absurd hround (by simp [hphase, Puller.Phase.isRound])
  | _ => exact absurd hphase (by simp)

/-- Where a puller has crashed, the deadline of its fetches lies past the horizon. -/
def State.CrashesLate (s : State) (n : Nat) : Prop :=
  ∀ p cause, s.pullers[n]? = some p → p.phase = .crashed cause →
    (s.fetchTimeout p.sub).limit? s.now = none

theorem State.CrashesLate.move {s : State} {n : Nat} (h : s.CrashesLate n) (m : Move) :
    (s.move m).CrashesLate n := by
  intro p cause hp hcrashed
  have htimeout (sub : Nat) : (s.move m).fetchTimeout sub = s.fetchTimeout sub := by
    simp only [State.fetchTimeout, State.subscription?, s.setup_move]
  have hlater {sub : Nat} (hlimit : (s.fetchTimeout sub).limit? s.now = none) :
      ((s.move m).fetchTimeout sub).limit? (s.move m).now = none := by
    rw [htimeout]
    exact Duration.limit?_eq_none_of_le (s.now_le_move m) hlimit
  by_cases hm : m = .pull n
  · subst hm
    cases hq : s.pullers[n]? with
    | none =>
      have hmove : s.move (.pull n) = s := by rw [State.move, hq]
      rw [hmove, hq] at hp
      exact absurd hp (by simp)
    | some q =>
      obtain ⟨⟨phase, entries, hstride, hstrode, -⟩, -⟩ := State.strides_move hq
      have hpullers : (s.move (.pull n)).pullers[n]? = some { q with phase } := hstrode.puller hq
      obtain rfl : { q with phase } = p := Option.some.inj (hpullers.symm.trans hp)
      rcases hstride.of_crashed hcrashed with hold | hlimit
      · exact hlater (h q cause hq hold)
      · exact hlater hlimit
  · rcases s.puller_of_move hm with hsame | ⟨-, q, hq, hfresh⟩
    · exact hlater (h p cause (hsame ▸ hp) hcrashed)
    · obtain rfl : q = p := Option.some.inj (hq.symm.trans hp)
      exact absurd (hfresh.symm.trans hcrashed) (by simp)

theorem crashesLate_after {plan : Plan} {s : State} (hbuild : plan.build = .ok s)
    (policy : Retry.Policy BrokerError) (n : Nat) (moves : List Move) :
    ((s.retrying policy).after moves).CrashesLate n := by
  induction moves using List.reverseRecOn with
  | nil =>
    obtain ⟨setup, slots, -, -, -, -, hbooks, -⟩ := Plan.of_build hbuild
    have hpullers : s.pullers = [] := congrArg Books.pullers hbooks
    intro p cause hp
    have hnone : s.pullers[n]? = some p := hp
    rw [hpullers] at hnone
    exact absurd hnone (by simp)
  | append_singleton moves m ih =>
    rw [State.after_concat]
    exact ih.move m

/-! ### No silence but one -/

/-- **A puller that nobody told to stop does not end in silence, with one exception.** It has
reported its failure once and told the world that it has stopped, once; or it has crashed, with
neither, since the deadline of a fetch would have been past the horizon of the clock. -/
theorem reports_of_over {plan : Plan} {s : State} (hbuild : plan.build = .ok s)
    (policy : Retry.Policy BrokerError) (moves : List Move) {n : Nat} {p : Puller}
    (hp : ((s.retrying policy).after moves).pullers[n]? = some p) (hover : p.isOver = true)
    (hlive : ((s.retrying policy).after moves).isCancelled p.token = false) :
    (p.phase = .finished ∧
      (tale n (s.retrying policy) moves).told.countP Entry.isReport = 1 ∧
      (tale n (s.retrying policy) moves).told.countP (Entry.tellsOf .subscriptionStopped) = 1) ∨
    ((∃ cause, p.phase = .crashed cause) ∧
      (((s.retrying policy).after moves).fetchTimeout p.sub).limit?
        ((s.retrying policy).after moves).now = none ∧
      (tale n (s.retrying policy) moves).told.countP Entry.isReport = 0 ∧
      (tale n (s.retrying policy) moves).told.countP (Entry.tellsOf .subscriptionStopped) = 0) := by
  have hfollows := follows_tale hbuild policy n moves
  have hfits := hfollows.fits p hp
  have hpartings : true ∉ (tale n (s.retrying policy) moves).partings := by
    intro hmem
    rw [hfollows.cancelled p hp hmem] at hlive
    exact absurd hlive (by decide)
  have hlate := crashesLate_after hbuild policy n moves p
  generalize tale n (s.retrying policy) moves = y at hfits hpartings
  generalize hphase : p.phase = phase at hfits
  cases hfits with
  | finished h _ =>
    have hreport := h.report_once fun hmem ↦ hpartings (List.mem_append_left _ hmem)
    have hstop := h.countP_stopped
    refine Or.inl ⟨rfl, ?_, ?_⟩
    · rw [Tale.told_append, List.countP_append, hreport]
      rfl
    · rw [Tale.told_append, List.countP_append, hstop]
      rfl
  | bound causes hround _ hhandling =>
    rcases hround with hround | ⟨cause, rfl⟩
    · rw [Puller.isOver, hphase] at hover
      split at hover
      · exact absurd hround (by simp [Puller.Phase.isRound])
      · exact absurd hround (by simp [Puller.Phase.isRound])
      · exact absurd hover (by decide)
    · exact Or.inr ⟨⟨cause, rfl⟩, hlate cause hp hphase, Tale.countP_bound hhandling⟩
  | binding _ hbinding _ =>
    rcases hbinding with rfl | ⟨due, rfl⟩
    · exact absurd hover (by simp [Puller.isOver, hphase])
    · exact absurd hover (by simp [Puller.isOver, hphase])
  | _ => exact absurd hover (by simp [Puller.isOver, hphase])

/-- The puller of the small supervisor finds no consumer to bind to, and nobody has told it to
stop. -/
theorem reports_of_over_lone : ∃ (s : State) (p : Puller),
    Plan.build { Plan.lone with broker := {} } = .ok s ∧
    ((s.retrying {}).after [.start 0, .pull 0, .pull 0, .pull 0]).pullers[0]? = some p ∧
    p.isOver = true ∧
    ((s.retrying {}).after [.start 0, .pull 0, .pull 0, .pull 0]).isCancelled p.token = false ∧
    (tale 0 (s.retrying {}) [.start 0, .pull 0, .pull 0, .pull 0]).told.countP
      Entry.isReport = 1 := by
  obtain ⟨s, p, hbuild, hp, hphase, hlive⟩ : ∃ (s : State) (p : Puller),
      Plan.build { Plan.lone with broker := {} } = .ok s ∧
      ((s.retrying {}).after [.start 0, .pull 0, .pull 0, .pull 0]).pullers[0]? = some p ∧
      p.phase = .finished ∧
      ((s.retrying {}).after [.start 0, .pull 0, .pull 0, .pull 0]).isCancelled p.token = false :=
    ⟨_, _, rfl, rfl, rfl, rfl⟩
  have hover : p.isOver = true := by simp [Puller.isOver, hphase]
  refine ⟨s, p, hbuild, hp, hover, hlive, ?_⟩
  rcases reports_of_over hbuild {} _ hp hover hlive with ⟨-, hreport, -⟩ | ⟨⟨cause, hcrashed⟩, -⟩
  · exact hreport
  · exact absurd (hphase.symm.trans hcrashed) (by simp)

/-- The small supervisor with the longest whole seconds to wait for a message. -/
def Plan.patient : Plan :=
  { Plan.lone with settings := { fetchTimeout := .ofSeconds (Nat.pow 2 64 - 1) } }

/-- **A puller may end in silence.** The settings are accepted and so is the subscription; then its
puller crashes with its first fetch. Nobody has told it to stop, nothing is reported, and the world
is not told that it has stopped. -/
theorem Plan.crashes_patient : ∃ (d : Subscription.Draft) (x : Subscription) (s : State)
    (p : Puller) (cause : Crash), d.build = .ok x ∧ Plan.patient.subscriptions = [x] ∧
    Plan.patient.settings.validate = .ok () ∧ Plan.patient.build = .ok s ∧
    (s.after [.start 0, .pull 0, .pull 0, .pull 0, .pull 0]).pullers[0]? = some p ∧
    p.phase = .crashed cause ∧
    (s.after [.start 0, .pull 0, .pull 0, .pull 0, .pull 0]).isCancelled p.token = false ∧
    (tale 0 s [.start 0, .pull 0, .pull 0, .pull 0, .pull 0]).told.countP Entry.isReport = 0 ∧
    (tale 0 s [.start 0, .pull 0, .pull 0, .pull 0, .pull 0]).told.countP
      (Entry.tellsOf .subscriptionStopped) = 0 := by
  refine ⟨{
      stream := some "s"
      consumer := some "c"
      subject := some "a"
      maxConcurrency := some 1
      handler := some fun c ↦
        if c.count = 1 then [.sleep 1, .finish (.failed (.transient "busy"))] else [] },
    _, _, _, _, rfl, rfl, rfl, rfl, rfl, rfl, rfl, ?_, ?_⟩
  · decide +kernel
  · decide +kernel

end Supervisor

end PullConsumer
