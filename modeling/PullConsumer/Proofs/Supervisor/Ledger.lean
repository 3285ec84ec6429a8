import PullConsumer.Proofs.Meters
import PullConsumer.Proofs.Supervisor.Capacity

/-!
# The books balance

Four ledgers are kept of what becomes of deliveries: the meters count it, the broker lists what was
settled with it, the events tell of it, and the journal notes it. They are written at different
moments of a job, so that in general they differ; by how much can be read off the phases of the jobs
that are there (`Balanced`). Where there is no job they agree (`Runs.balanced`).

Only sums over all series are looked at. The errors of the broker are counted there as well, under
labels that no failure of a job has.
-/

namespace PullConsumer.Supervisor

/-! ### What is counted -/

/-- How many events of a kind were published. -/
def published (kind : EventKind) (journal : List (Nat × Entry)) : Nat :=
  journal.countP fun
    | (_, .published e) => e.kind = kind
    | _ => false

/-- How many deliveries were fetched. -/
def fetched (journal : List (Nat × Entry)) : Nat :=
  journal.countP fun
    | (_, .fetched ..) => true
    | _ => false

theorem published_cons (kind : EventKind) (tick : Nat) (e : Event)
    (journal : List (Nat × Entry)) :
    published kind ((tick, .published e) :: journal) =
      published kind journal + if e.kind = kind then 1 else 0 := by
  simp [published, List.countP_cons]

/-- What can go wrong with a job. -/
inductive Mishap where
  | transient
  | fatal
  | panic
  | ack
  | nack
  /-- It is not known when the message was published. -/
  | time
  deriving DecidableEq

namespace Mishap

/-- The label that a mishap is counted under. -/
def label : Mishap → String
  | transient => "handler_transient"
  | fatal => "handler_fatal"
  | panic => panicLabel
  | ack => ackFailedLabel
  | nack => nackFailedLabel
  | time => timeUnknownLabel

/-- The kind of the event that tells of a mishap; nothing is told if only the time is unknown. -/
def kind? : Mishap → Option EventKind
  | transient => some .handlerFailed
  | fatal => some .handlerFatal
  | panic => some .handlerPanicked
  | ack => some .ackFailed
  | nack => some .nackFailed
  | time => none

theorem label_inj {x y : Mishap} : x.label = y.label ↔ x = y := by
  constructor
  · cases x <;> cases y <;> simp [label, panicLabel, ackFailedLabel, nackFailedLabel,
      timeUnknownLabel]
  · exact congrArg label

theorem kind?_inj {x y : Mishap} {kind : EventKind} (hx : x.kind? = some kind)
    (hy : y.kind? = some kind) : x = y := by
  cases x <;> cases hx <;> cases y <;> first | rfl | cases hy

theorem isOfHandling_of_kind? {x : Mishap} {kind : EventKind} (h : x.kind? = some kind) :
    isOfHandling kind = true ∧ kind ≠ .messageNacked := by
  cases x <;> cases h <;> exact ⟨rfl, by decide⟩

/-- No error of the broker is counted as a mishap of a job. -/
theorem label_ne (x : Mishap) (cause : BrokerError) : cause.label ≠ x.label := by
  cases x <;> cases cause <;> simp [label, BrokerError.label, panicLabel, ackFailedLabel,
    nackFailedLabel, timeUnknownLabel]

/-- What became of a handler is a success or a mishap. -/
theorem failureOf_cases (r : HandlerResult) :
    r = .ok ∧ failureOf r = none ∧ (Outcome.ofResult r).settlement = .ack ∨
    (∃ reason, r = .failed (.transient reason) ∧ (Outcome.ofResult r).settlement = .nack ∧
      failureOf r = some (label transient, .handlerFailed, reason)) ∨
    ∃ x kind reason, x ≠ transient ∧ x ≠ ack ∧ x ≠ nack ∧ x ≠ time ∧ kind? x = some kind ∧
      (Outcome.ofResult r).settlement = .ack ∧ failureOf r = some (x.label, kind, reason) := by
  rcases r with _ | (reason | reason) | p
  · exact Or.inl ⟨rfl, rfl, rfl⟩
  · exact Or.inr (Or.inl ⟨reason, rfl, rfl, rfl⟩)
  · exact Or.inr (Or.inr ⟨fatal, .handlerFatal, reason, by decide, by decide, by decide, by decide,
      rfl, rfl, rfl⟩)
  · exact Or.inr (Or.inr ⟨panic, .handlerPanicked, p.message, by decide, by decide, by decide,
      by decide, rfl, rfl, rfl⟩)

/-- The mishap that a failed settlement is. -/
def ofSettlement : Settlement → Mishap
  | .ack => ack
  | .nack => nack

theorem settlementFailure_eq (x : Settlement) : ∃ kind, (ofSettlement x).kind? = some kind ∧
    settlementFailure x = ((ofSettlement x).label, kind) := by
  cases x with
  | ack => exact ⟨.ackFailed, rfl, rfl⟩
  | nack => exact ⟨.nackFailed, rfl, rfl⟩

end Mishap

/-! ### Phases -/

/-- A job that has not called its handler. -/
def Job.Phase.isFresh : Job.Phase → Bool
  | fresh => true
  | _ => false

/-- A job that settles its delivery in one of the two ways. -/
def Job.Phase.isSettling (x : Settlement) : Job.Phase → Bool
  | settling outcome .. => outcome.settlement = x
  | _ => false

/-- The kinds of phases that matter to the ledgers. -/
def Job.Phase.kinds : List (Job.Phase → Bool) :=
  [isFresh, isLive, isSettling .ack, isSettling .nack]

theorem Job.Phase.of_isLive {phase : Job.Phase} (h : phase.isLive = true) :
    phase.isFresh = false ∧ ∀ x, phase.isSettling x = false := by
  cases phase with
  | asleep due rest => exact ⟨rfl, fun _ ↦ rfl⟩
  | awaiting rest => exact ⟨rfl, fun _ ↦ rfl⟩
  | _ => exact absurd h (by simp [isLive])

namespace Books

variable {b b' : Books} {j : Job} {n sub : Nat}

/-! ### Operations on the ledgers -/

/-- What all series together have counted. -/
def total (b : Books) (c : Counter) : Nat := b.meters.total c.of

/-- How many mishaps of one sort were counted. -/
def mishaps (b : Books) (x : Mishap) : Nat := b.total (.errors x.label)

theorem total_measure (hmetered : b.setup.metered = true) (sub : Nat) (m : Measurement)
    (c : Counter) : (b.measure sub m).total c = b.total c + c.weight m := by
  simp only [total, measure, hmetered, if_true]
  exact Meters.total_record ..

theorem mishaps_measure (hmetered : b.setup.metered = true) (sub : Nat) (x y : Mishap) :
    (b.measure sub (.error x.label)).mishaps y = b.mishaps y + if x = y then 1 else 0 := by
  simp only [mishaps, total_measure hmetered, Counter.weight, Mishap.label_inj]

/-- How many jobs are in a phase of some kind. -/
def stage (b : Books) (q : Job.Phase → Bool) : Nat := b.jobs.countP fun j ↦ q j.phase

theorem stage_setJobPhase (hn : (b.jobs.map Job.number).Nodup) (hj : j ∈ b.jobs)
    (phase : Job.Phase) (q : Job.Phase → Bool) :
    (b.setJobPhase j.number phase).stage q + (if q j.phase then 1 else 0) =
      b.stage q + if q phase then 1 else 0 :=
  countP_changeJob hn hj (fun k ↦ { k with phase }) fun j ↦ q j.phase

theorem stage_dropJob (hn : (b.jobs.map Job.number).Nodup) (hj : j ∈ b.jobs)
    (q : Job.Phase → Bool) :
    (b.dropJob j.number).stage q + (if q j.phase then 1 else 0) = b.stage q :=
  countP_dropJob hn hj fun j ↦ q j.phase

/-! ### The invariant -/

/-- As many events tell of a mishap as were counted. -/
def Told (b : Books) : Prop :=
  ∀ (x : Mishap) (kind : EventKind), x.kind? = some kind →
    published kind b.journal = b.mishaps x

/-- The ledgers agree up to what the jobs that are there have still to write into them. -/
structure Balanced (b : Books) : Prop where
  lags : b.total .lags + b.mishaps .time + b.stage Job.Phase.isFresh = fetched b.journal
  processed : b.total .processed + b.stage Job.Phase.isFresh + b.stage Job.Phase.isLive =
    fetched b.journal
  nacks : b.mishaps .transient = b.broker.nacked.length + b.mishaps .nack +
    b.stage (Job.Phase.isSettling .nack)
  acks : b.total .processed = b.mishaps .transient + b.broker.acked.length + b.mishaps .ack +
    b.stage (Job.Phase.isSettling .ack)
  told : b.Told
  toldNacks : published .messageNacked b.journal = b.broker.nacked.length

theorem Told.aside (hb : b.Told) (hmishaps : ∀ x, b'.mishaps x = b.mishaps x)
    (hpublished : ∀ kind, isOfHandling kind = true → kind ≠ .messageNacked →
      published kind b'.journal = published kind b.journal) : b'.Told := by
  intro x kind h
  obtain ⟨hkind, hne⟩ := Mishap.isOfHandling_of_kind? h
  rw [hmishaps, hpublished kind hkind hne]
  exact hb x kind h

/-- A mishap is counted and told of. -/
theorem Told.report (hb : b.Told) (hmetered : b.setup.metered = true) {x : Mishap} {e : Event}
    (h : x.kind? = some e.kind) (sub : Nat) :
    ((b.measure sub (.error x.label)).publishFor sub e).Told := by
  intro y kind hy
  have hpublished : published kind ((b.measure sub (.error x.label)).publishFor sub e).journal =
      published kind b.journal + if e.kind = kind then 1 else 0 := published_cons ..
  have hmishaps : ((b.measure sub (.error x.label)).publishFor sub e).mishaps y =
      b.mishaps y + if x = y then 1 else 0 := mishaps_measure hmetered sub x y
  have hiff : e.kind = kind ↔ x = y := by
    constructor
    · rintro rfl
      exact Mishap.kind?_inj h hy
    · rintro rfl
      exact Option.some.inj (h.symm.trans hy)
  rw [hpublished, hmishaps, hb y kind hy]
  simp only [hiff]

/-- A transient failure is counted and calls for a negative settlement; whatever else is counted of
a result calls for a positive one. -/
theorem reportResult_cases (hb : b.Told) (hmetered : b.setup.metered = true) (sub : Nat)
    (r : HandlerResult) :
    (b.reportResult sub r).Told ∧
    (b.reportResult sub r).total .processed = b.total .processed ∧
    (b.reportResult sub r).total .lags = b.total .lags ∧
    fetched (b.reportResult sub r).journal = fetched b.journal ∧
    published .messageNacked (b.reportResult sub r).journal =
      published .messageNacked b.journal ∧
    ((Outcome.ofResult r).settlement = .nack ∧
        (∀ x, (b.reportResult sub r).mishaps x =
          b.mishaps x + if x = .transient then 1 else 0) ∨
      (Outcome.ofResult r).settlement = .ack ∧
        ∀ x ∈ [Mishap.transient, .ack, .nack, .time],
          (b.reportResult sub r).mishaps x = b.mishaps x) := by
  -- What is reported of any failure, whatever follows from it.
  have hreport {x : Mishap} {kind : EventKind} (reason : String) (hx : x.kind? = some kind) :
      let c := (b.measure sub (.error x.label)).publishFor sub ((Event.of kind).withReason reason)
      c.Told ∧ c.total .processed = b.total .processed ∧ c.total .lags = b.total .lags ∧
        fetched c.journal = fetched b.journal ∧
        published .messageNacked c.journal = published .messageNacked b.journal ∧
        ∀ y, c.mishaps y = b.mishaps y + if x = y then 1 else 0 := by
    intro c
    have hnacked : published .messageNacked c.journal = published .messageNacked b.journal +
        if kind = .messageNacked then 1 else 0 := published_cons ..
    rw [if_neg (Mishap.isOfHandling_of_kind? hx).2, Nat.add_zero] at hnacked
    exact ⟨hb.report hmetered hx sub, total_measure hmetered .., total_measure hmetered .., rfl,
      hnacked, mishaps_measure hmetered sub x⟩
  rcases Mishap.failureOf_cases r with ⟨rfl, -, hack⟩ | ⟨reason, rfl, hnack, -⟩ |
    ⟨x, kind, reason, htransient, hackFailed, hnackFailed, htime, hkind, hack, hfailure⟩
  · exact ⟨hb, rfl, rfl, rfl, rfl, Or.inr ⟨hack, fun _ _ ↦ rfl⟩⟩
  · obtain ⟨htold, hprocessed, hlags, hfetched, hnacked, hmishaps⟩ :=
      hreport (x := .transient) reason rfl
    refine ⟨htold, hprocessed, hlags, hfetched, hnacked, Or.inl ⟨hnack, fun x ↦ ?_⟩⟩
    refine (hmishaps x).trans ?_
    simp only [eq_comm]
  · rw [reportResult]
    rw [hfailure]
    obtain ⟨htold, hprocessed, hlags, hfetched, hnacked, hmishaps⟩ := hreport reason hkind
    refine ⟨htold, hprocessed, hlags, hfetched, hnacked, Or.inr ⟨hack, fun y hy ↦ ?_⟩⟩
    refine (hmishaps y).trans ?_
    have hne : x ≠ y := by
      rintro rfl
      simp_all
    rw [if_neg hne, Nat.add_zero]

namespace Balanced

/-- Nothing is written into the ledgers. -/
theorem aside (hb : b.Balanced) (hprocessed : b'.total .processed = b.total .processed)
    (hlags : b'.total .lags = b.total .lags) (hmishaps : ∀ x, b'.mishaps x = b.mishaps x)
    (hstage : ∀ q ∈ Job.Phase.kinds, b'.stage q = b.stage q)
    (hacked : b'.broker.acked = b.broker.acked)
    (hnacked : b'.broker.nacked = b.broker.nacked)
    (hfetched : fetched b'.journal = fetched b.journal)
    (hpublished : ∀ kind, isOfHandling kind = true →
      published kind b'.journal = published kind b.journal) : b'.Balanced where
  lags := by
    rw [hlags, hmishaps, hstage _ (by simp [Job.Phase.kinds]), hfetched]
    exact hb.lags
  processed := by
    rw [hprocessed, hstage _ (by simp [Job.Phase.kinds]), hstage _ (by simp [Job.Phase.kinds]),
      hfetched]
    exact hb.processed
  nacks := by
    rw [hmishaps, hmishaps, hnacked, hstage _ (by simp [Job.Phase.kinds])]
    exact hb.nacks
  acks := by
    rw [hprocessed, hmishaps, hmishaps, hacked, hstage _ (by simp [Job.Phase.kinds])]
    exact hb.acks
  told := hb.told.aside hmishaps fun kind hkind _ ↦ hpublished kind hkind
  toldNacks := by
    rw [hpublished _ rfl, hnacked]
    exact hb.toldNacks

/-- The end of a handler: what was counted and told is made up for by the settlement that is due
now. -/
theorem finish (hb : b.Balanced) (hmetered : b.setup.metered = true)
    (hn : (b.jobs.map Job.number).Nodup) (hj : j ∈ b.jobs) (hlive : j.phase.isLive = true)
    (r : HandlerResult) (due : Nat) (giveUpDue : Option Nat) :
    ((((b.note (.ended j.number j.sub j.delivery.message j.count r)).measure j.sub
      .processed).reportResult j.sub r).setJobPhase j.number
        (.settling (.ofResult r) due giveUpDue)).Balanced := by
  set c := (b.note (.ended j.number j.sub j.delivery.message j.count r)).measure j.sub .processed
    with hc
  have hprocessed : c.total .processed = b.total .processed + 1 := total_measure hmetered ..
  have hlags : c.total .lags = b.total .lags := total_measure hmetered ..
  have hmishaps (x : Mishap) : c.mishaps x = b.mishaps x := total_measure hmetered ..
  have htold : c.Told := hb.told.aside hmishaps fun _ _ _ ↦ rfl
  obtain ⟨htold', hprocessed', hlags', hfetched, hnacked, hresult⟩ :=
    reportResult_cases htold hmetered j.sub r
  set d := c.reportResult j.sub r with hd
  have hjobs : d.jobs = b.jobs := by simp [hd, hc, measure, note]
  have hbroker : d.broker = b.broker := by simp [hd, hc, measure, note]
  have hstage (q : Job.Phase → Bool) := stage_setJobPhase (b := d) (hjobs ▸ hn) (hjobs ▸ hj)
    (.settling (.ofResult r) due giveUpDue) q
  have hsame (q : Job.Phase → Bool) : d.stage q = b.stage q := by rw [stage, hjobs, stage]
  simp only [hsame] at hstage
  obtain ⟨hnotFresh, hnotSettling⟩ := Job.Phase.of_isLive hlive
  set e := d.setJobPhase j.number (.settling (.ofResult r) due giveUpDue)
  have hfresh : e.stage Job.Phase.isFresh = b.stage Job.Phase.isFresh := by
    have h := hstage Job.Phase.isFresh
    rwa [hnotFresh] at h
  have hlives : e.stage Job.Phase.isLive + 1 = b.stage Job.Phase.isLive := by
    have h := hstage Job.Phase.isLive
    rwa [hlive] at h
  have hsettling (x : Settlement) : e.stage (Job.Phase.isSettling x) =
      b.stage (Job.Phase.isSettling x) + if (Outcome.ofResult r).settlement = x then 1 else 0 := by
    have h := hstage (Job.Phase.isSettling x)
    rw [hnotSettling] at h
    simpa [Job.Phase.isSettling] using h
  have hnacks := hsettling .nack
  have hacks := hsettling .ack
  have hlags : e.total .lags = b.total .lags := hlags'.trans hlags
  have hprocessed : e.total .processed = b.total .processed + 1 := hprocessed'.trans hprocessed
  have hfetched : fetched e.journal = fetched b.journal := hfetched
  have hbroker : e.broker = b.broker := hbroker
  have htoldNacks : published .messageNacked e.journal = published .messageNacked b.journal :=
    hnacked
  have htime : e.mishaps .time = b.mishaps .time ∧ e.mishaps .ack = b.mishaps .ack ∧
      e.mishaps .nack = b.mishaps .nack := by
    rcases hresult with ⟨-, h⟩ | ⟨-, h⟩
    · exact ⟨(h .time).trans (hmishaps _), (h .ack).trans (hmishaps _),
        (h .nack).trans (hmishaps _)⟩
    · exact ⟨(h .time (by decide)).trans (hmishaps _), (h .ack (by decide)).trans (hmishaps _),
        (h .nack (by decide)).trans (hmishaps _)⟩
  have htransient : e.mishaps .transient = b.mishaps .transient +
      if (Outcome.ofResult r).settlement = .nack then 1 else 0 := by
    rcases hresult with ⟨hx, h⟩ | ⟨hx, h⟩
    · rw [hx, if_pos rfl]
      exact (h .transient).trans (by rw [hmishaps, if_pos rfl])
    · rw [hx, if_neg (by decide)]
      exact (h .transient (by decide)).trans (hmishaps _)
  -- A result is settled in exactly one of the two ways.
  have hone : (if (Outcome.ofResult r).settlement = .nack then 1 else 0) +
      (if (Outcome.ofResult r).settlement = .ack then 1 else 0) = 1 := by
    cases (Outcome.ofResult r).settlement <;> rfl
  have hlagsBefore := hb.lags
  have hprocessedBefore := hb.processed
  have hnacksBefore := hb.nacks
  have hacksBefore := hb.acks
  exact {
    lags := by omega
    processed := by omega
    nacks := by
      rw [hbroker]
      omega
    acks := by
      rw [hbroker]
      omega
    told := htold'
    toldNacks := by
      rw [htoldNacks, hbroker]
      exact hb.toldNacks }

/-- The call of a handler: the lag is recorded, or else that it is not known. -/
theorem call (hb : b.Balanced) (hmetered : b.setup.metered = true)
    (hn : (b.jobs.map Job.number).Nodup) (hj : j ∈ b.jobs) (hfresh : j.phase = .fresh)
    {lag : Measurement} (hlag : lag = .error timeUnknownLabel ∨ ∃ d, lag = .lag d) (count : Nat)
    {phase : Job.Phase} (hlive : phase.isLive = true) :
    (((b.measure j.sub lag).note (.started j.number j.sub j.delivery.message count)).changeJob
      j.number fun k ↦ { k with count, phase }).Balanced := by
  set e := (((b.measure j.sub lag).note (.started j.number j.sub j.delivery.message
    count)).changeJob j.number fun k ↦ { k with count, phase })
  have hstage (q : Job.Phase → Bool) : e.stage q + (if q j.phase then 1 else 0) =
      b.stage q + if q phase then 1 else 0 :=
    countP_changeJob hn hj (fun k ↦ { k with count, phase }) fun j ↦ q j.phase
  rw [hfresh] at hstage
  obtain ⟨hnotFresh, hnotSettling⟩ := Job.Phase.of_isLive hlive
  have hfreshes : e.stage Job.Phase.isFresh + 1 = b.stage Job.Phase.isFresh := by
    have h := hstage Job.Phase.isFresh
    rwa [hnotFresh] at h
  have hlives : e.stage Job.Phase.isLive = b.stage Job.Phase.isLive + 1 := by
    have h := hstage Job.Phase.isLive
    rwa [hlive] at h
  have hsettling (x : Settlement) : e.stage (Job.Phase.isSettling x) =
      b.stage (Job.Phase.isSettling x) := by
    have h := hstage (Job.Phase.isSettling x)
    rwa [hnotSettling] at h
  have htotal (c : Counter) : e.total c = b.total c + c.weight lag := total_measure hmetered ..
  have hprocessed : e.total .processed = b.total .processed := by
    rcases hlag with rfl | ⟨d, rfl⟩ <;> exact htotal _
  have hmishaps (x : Mishap) (hx : x ≠ .time) : e.mishaps x = b.mishaps x := by
    rcases hlag with rfl | ⟨d, rfl⟩
    · refine (mishaps_measure hmetered j.sub .time x).trans ?_
      rw [if_neg (Ne.symm hx), Nat.add_zero]
    · exact htotal _
  -- Either the lag counts or the time that is not known does.
  have hlags : e.total .lags + e.mishaps .time = b.total .lags + b.mishaps .time + 1 := by
    rcases hlag with rfl | ⟨d, rfl⟩
    · have h : e.mishaps .time = b.mishaps .time + 1 := mishaps_measure hmetered j.sub .time .time
      have h' : e.total .lags = b.total .lags := htotal .lags
      omega
    · have h : e.mishaps .time = b.mishaps .time := htotal _
      have h' : e.total .lags = b.total .lags + 1 := htotal .lags
      omega
  have hfetched : fetched e.journal = fetched b.journal := rfl
  have hlagsBefore := hb.lags
  have hprocessedBefore := hb.processed
  exact {
    lags := by omega
    processed := by omega
    nacks := by
      rw [hmishaps _ (by decide), hmishaps _ (by decide), hsettling]
      exact hb.nacks
    acks := by
      rw [hprocessed, hmishaps _ (by decide), hmishaps _ (by decide), hsettling]
      exact hb.acks
    told := fun x kind hx ↦ by
      rw [hmishaps x (by rintro rfl; cases hx)]
      exact hb.told x kind hx
    toldNacks := hb.toldNacks }

/-- The end of a job: its settlement is entered into the list of the broker or counted as a
mishap. -/
theorem gone (hb : b.Balanced) (hn : (b.jobs.map Job.number).Nodup) (hj : j ∈ b.jobs)
    {outcome : Outcome} {answerDue : Nat} {giveUpDue : Option Nat}
    (hphase : j.phase = .settling outcome answerDue giveUpDue)
    (hprocessed : b'.total .processed = b.total .processed) (hlags : b'.total .lags = b.total .lags)
    (hmishaps : ∀ x, x ≠ .ack → x ≠ .nack → b'.mishaps x = b.mishaps x)
    (hstage : ∀ q, b'.stage q = (b.dropJob j.number).stage q)
    (hfetched : fetched b'.journal = fetched b.journal)
    (hacks : b'.broker.acked.length + b'.mishaps .ack = b.broker.acked.length + b.mishaps .ack +
      if outcome.settlement = .ack then 1 else 0)
    (hnacks : b'.broker.nacked.length + b'.mishaps .nack = b.broker.nacked.length +
      b.mishaps .nack + if outcome.settlement = .nack then 1 else 0)
    (htold : b'.Told)
    (htoldNacks : published .messageNacked b'.journal = b'.broker.nacked.length) :
    b'.Balanced := by
  have hdrop (q : Job.Phase → Bool) := stage_dropJob hn hj q
  rw [hphase] at hdrop
  have hfresh : b'.stage Job.Phase.isFresh = b.stage Job.Phase.isFresh :=
    (hstage _).trans (hdrop Job.Phase.isFresh)
  have hlive : b'.stage Job.Phase.isLive = b.stage Job.Phase.isLive :=
    (hstage _).trans (hdrop Job.Phase.isLive)
  have hsettling (x : Settlement) : b'.stage (Job.Phase.isSettling x) +
      (if outcome.settlement = x then 1 else 0) = b.stage (Job.Phase.isSettling x) := by
    rw [hstage]
    simpa [Job.Phase.isSettling] using hdrop (Job.Phase.isSettling x)
  have hsettlingAck := hsettling .ack
  have hsettlingNack := hsettling .nack
  have htime := hmishaps .time (by decide) (by decide)
  have htransient := hmishaps .transient (by decide) (by decide)
  have hnacksBefore := hb.nacks
  have hacksBefore := hb.acks
  exact {
    lags := by
      rw [hlags, htime, hfresh, hfetched]
      exact hb.lags
    processed := by
      rw [hprocessed, hfresh, hlive, hfetched]
      exact hb.processed
    nacks := by omega
    acks := by omega
    told := htold
    toldNacks := htoldNacks }

/-- A settlement that succeeds is told of if it is negative. -/
theorem settle (hb : b.Balanced) (hn : (b.jobs.map Job.number).Nodup) (hj : j ∈ b.jobs)
    {outcome : Outcome} {answerDue : Nat} {giveUpDue : Option Nat}
    (hphase : j.phase = .settling outcome answerDue giveUpDue)
    (hok : (b.broker.settle j.delivery.handle outcome.settlement).result = .ok ()) :
    ((((Books.note { b with broker := (b.broker.settle j.delivery.handle
      outcome.settlement).broker } (.settled j.number j.delivery.handle outcome.settlement
        none)).reportSettled j.sub outcome).dropJob j.number).giveBack j.sub).Balanced := by
  obtain ⟨hacked, hnacked⟩ := Broker.settled_settle hok
  set x := (b.broker.settle j.delivery.handle outcome.settlement).broker
  set c : Books := Books.note { b with broker := x } (.settled j.number j.delivery.handle
    outcome.settlement none)
  -- The list that grows is the one of this kind of settlement.
  have hlength : x.acked.length + b.mishaps .ack = b.broker.acked.length + b.mishaps .ack +
        (if outcome.settlement = .ack then 1 else 0) ∧
      x.nacked.length + b.mishaps .nack = b.broker.nacked.length + b.mishaps .nack +
        if outcome.settlement = .nack then 1 else 0 := by
    rw [hacked, hnacked]
    cases outcome.settlement <;> simp <;> omega
  cases hx : outcome.settlement with
  | ack =>
    have hreport : c.reportSettled j.sub outcome = c := by
      rw [reportSettled]
      rw [hx]
    have hsame : x.nacked = b.broker.nacked := by simpa [hx] using hnacked
    rw [hreport]
    refine hb.gone hn hj hphase rfl rfl (fun _ _ _ ↦ rfl) (fun _ ↦ rfl) rfl hlength.1 hlength.2
      hb.told ?_
    exact hb.toldNacks.trans (congrArg List.length hsame.symm)
  | nack =>
    have hreport : c.reportSettled j.sub outcome = c.publishFor j.sub
        ((Event.of .messageNacked).withReason (outcome.detail?.getD "")) := by
      rw [reportSettled]
      rw [hx]
    have hmore : x.nacked.length = b.broker.nacked.length + 1 := by simp [hnacked, hx]
    rw [hreport]
    refine hb.gone hn hj hphase rfl rfl (fun _ _ _ ↦ rfl) (fun _ ↦ rfl) rfl hlength.1 hlength.2
      (hb.told.aside (fun _ ↦ rfl) fun kind _ hne ↦ ?_) ?_
    · exact (published_cons ..).trans (if_neg (Ne.symm hne) ▸ rfl)
    · refine (published_cons ..).trans (Eq.trans ?_ hmore.symm)
      exact congrArg (· + 1) hb.toldNacks

/-- A settlement that fails is counted and told of. -/
theorem fail (hb : b.Balanced) (hmetered : b.setup.metered = true)
    (hn : (b.jobs.map Job.number).Nodup) (hj : j ∈ b.jobs)
    {outcome : Outcome} {answerDue : Nat} {giveUpDue : Option Nat}
    (hphase : j.phase = .settling outcome answerDue giveUpDue) (reason : String) :
    ((((b.note (.settled j.number j.delivery.handle outcome.settlement
      (some reason))).reportUnsettled j.sub outcome.settlement reason).dropJob
        j.number).giveBack j.sub).Balanced := by
  set c := b.note (.settled j.number j.delivery.handle outcome.settlement (some reason))
  obtain ⟨kind, hkind, hfailure⟩ := Mishap.settlementFailure_eq outcome.settlement
  set x := Mishap.ofSettlement outcome.settlement with hx
  have htold : c.Told := hb.told.aside (fun _ ↦ rfl) fun _ _ _ ↦ rfl
  have htold := htold.report (e := (Event.of kind).withReason reason) hmetered hkind j.sub
  have hmishaps (y : Mishap) : (c.measure j.sub (.error x.label)).mishaps y =
      b.mishaps y + if x = y then 1 else 0 := mishaps_measure hmetered j.sub x y
  have hcases : (x = .ack ∧ outcome.settlement = .ack) ∨
      (x = .nack ∧ outcome.settlement = .nack) := by
    rw [hx]
    cases outcome.settlement
    · exact Or.inl ⟨rfl, rfl⟩
    · exact Or.inr ⟨rfl, rfl⟩
  have hone : b.broker.acked.length + (c.measure j.sub (.error x.label)).mishaps .ack =
        b.broker.acked.length + b.mishaps .ack + (if outcome.settlement = .ack then 1 else 0) ∧
      b.broker.nacked.length + (c.measure j.sub (.error x.label)).mishaps .nack =
        b.broker.nacked.length + b.mishaps .nack +
          if outcome.settlement = .nack then 1 else 0 := by
    rw [hmishaps, hmishaps]
    rcases hcases with ⟨hx, hs⟩ | ⟨hx, hs⟩ <;> simp [hx, hs] <;> omega
  rw [reportUnsettled, hfailure]
  refine hb.gone hn hj hphase (total_measure hmetered ..) (total_measure hmetered ..)
    (fun y hack hnack ↦ ?_) (fun _ ↦ rfl) rfl hone.1 hone.2 htold ?_
  · refine (hmishaps y).trans ?_
    rw [if_neg, Nat.add_zero]
    rintro rfl
    exact hcases.elim (fun h ↦ hack h.1) fun h ↦ hnack h.1
  · refine (published_cons ..).trans (Eq.trans ?_ hb.toldNacks)
    exact if_neg (Mishap.isOfHandling_of_kind? hkind).2 ▸ rfl

/-- A delivery is fetched: its job has everything still to write. -/
theorem receive (hb : b.Balanced) {p : Puller} {c : ConsumerId} {d : Delivery} {x : Broker}
    (htake : b.broker.take? c = .ok (some (d, x))) :
    ((Books.beginJob { b with broker := x } n p d).setPhase n .head).Balanced := by
  obtain ⟨queues, hx⟩ := Broker.exists_queues_of_take? htake
  have hacked : x.acked = b.broker.acked := by rw [hx]
  have hnacked : x.nacked = b.broker.nacked := by rw [hx]
  set e := (Books.beginJob { b with broker := x } n p d).setPhase n .head
  have hstage (q : Job.Phase → Bool) : e.stage q = b.stage q + if q .fresh then 1 else 0 := by
    show (b.jobs ++ [_]).countP _ = _
    rw [List.countP_append, List.countP_singleton, stage]
  have hfetched : fetched e.journal = fetched b.journal + 1 := List.countP_cons_of_pos rfl
  have hfresh : e.stage Job.Phase.isFresh = b.stage Job.Phase.isFresh + 1 := hstage _
  have hlagsBefore := hb.lags
  have hprocessedBefore := hb.processed
  exact {
    lags := by
      show b.total .lags + b.mishaps .time + e.stage Job.Phase.isFresh = _
      omega
    processed := by
      show b.total .processed + e.stage Job.Phase.isFresh + e.stage Job.Phase.isLive = _
      rw [hstage Job.Phase.isLive]
      simp only [Job.Phase.isLive, Bool.false_eq_true, if_false]
      omega
    nacks := by
      show b.mishaps .transient = x.nacked.length + b.mishaps .nack + _
      rw [hstage, hnacked]
      exact hb.nacks
    acks := by
      show b.total .processed = b.mishaps .transient + x.acked.length + b.mishaps .ack + _
      rw [hstage, hacked]
      exact hb.acks
    told := hb.told
    toldNacks := hb.toldNacks.trans (congrArg List.length hnacked.symm) }

/-- **Every deed keeps the balance.** -/
theorem deed (h : Deed b b') (hmetered : b.setup.metered = true) (hrecorded : b.Recorded)
    (hb : b.Balanced) : b'.Balanced := by
  have hsame {c : Books} (hmeters : c.meters = b.meters) (hjobs : c.jobs = b.jobs)
      (hacked : c.broker.acked = b.broker.acked) (hnacked : c.broker.nacked = b.broker.nacked)
      (hfetched : fetched c.journal = fetched b.journal)
      (hpublished : ∀ kind, isOfHandling kind = true →
        published kind c.journal = published kind b.journal) : c.Balanced := by
    have htotal (x : Counter) : c.total x = b.total x := by rw [total, hmeters, total]
    have hstage (q : Job.Phase → Bool) : c.stage q = b.stage q := by rw [stage, hjobs, stage]
    exact hb.aside (htotal _) (htotal _) (fun _ ↦ htotal _) (fun q _ ↦ hstage q) hacked hnacked
      hfetched hpublished
  have hjob {j : Job} {phase : Job.Phase} (hj : j ∈ b.jobs)
      (hphase : ∀ q ∈ Job.Phase.kinds, q phase = q j.phase) :
      (b.setJobPhase j.number phase).Balanced := by
    refine hb.aside rfl rfl (fun _ ↦ rfl) (fun q hq ↦ ?_) rfl rfl rfl fun _ _ ↦ rfl
    have h := stage_setJobPhase hrecorded.once hj phase q
    rw [hphase q hq] at h
    exact Nat.add_right_cancel h
  cases h with
  | pass _ => exact hsame rfl rfl rfl rfl rfl fun _ _ ↦ rfl
  | @report e he =>
    refine hsame rfl rfl rfl rfl rfl fun kind hkind ↦ ?_
    have hne : e.kind ≠ kind := fun heq ↦ by simp [heq, hkind] at he
    exact (published_cons ..).trans (by rw [if_neg hne, Nat.add_zero])
  | blame sub cause =>
    have hmishaps (x : Mishap) : (b.measure sub (.error cause.label)).mishaps x = b.mishaps x := by
      rw [mishaps, total_measure hmetered, Counter.weight, if_neg (x.label_ne cause), Nat.add_zero,
        mishaps]
    exact hb.aside (total_measure hmetered ..) (total_measure hmetered ..) hmishaps
      (fun _ _ ↦ rfl) rfl rfl rfl fun _ _ ↦ rfl
  | fatal n cause => exact hsame rfl rfl rfl rfl rfl fun _ _ ↦ rfl
  | bind x =>
    obtain ⟨bindFaults, hbind⟩ := b.broker.bind_eq x
    rw [hbind]
    exact hsame rfl rfl rfl rfl rfl fun _ _ ↦ rfl
  | supply x =>
    exact hsame rfl rfl (Broker.acked_supply ..) (Broker.nacked_supply ..) rfl fun _ _ ↦ rfl
  | turn _ _ _ _ => exact hsame rfl rfl rfl rfl rfl fun _ _ ↦ rfl
  | gauge _ _ =>
    exact hb.aside (total_measure hmetered ..) (total_measure hmetered ..)
      (fun _ ↦ total_measure hmetered ..) (fun _ _ ↦ rfl) rfl rfl rfl fun _ _ ↦ rfl
  | reserve _ _ _ _ => exact hsame rfl rfl rfl rfl rfl fun _ _ ↦ rfl
  | ask _ _ =>
    obtain ⟨fetchFaults, hask⟩ := b.broker.beginFetch_eq
    rw [hask]
    exact hsame rfl rfl rfl rfl rfl fun _ _ ↦ rfl
  | expect _ _ _ => exact hsame rfl rfl rfl rfl rfl fun _ _ ↦ rfl
  | receive _ _ htake => exact hb.receive htake
  | release _ _ _ => exact hsame rfl rfl rfl rfl rfl fun _ _ ↦ rfl
  | call hj hfresh hlag hlive => exact hb.call hmetered hrecorded.once hj hfresh hlag _ hlive
  | @rest j phase hj hlive hlive' =>
    obtain ⟨hfresh, hsettling⟩ := Job.Phase.of_isLive hlive
    obtain ⟨hfresh', hsettling'⟩ := Job.Phase.of_isLive hlive'
    refine hjob hj fun q hq ↦ ?_
    simp only [Job.Phase.kinds, List.mem_cons, List.not_mem_nil, or_false] at hq
    rcases hq with rfl | rfl | rfl | rfl
    · exact hfresh'.trans hfresh.symm
    · exact hlive'.trans hlive.symm
    · exact (hsettling' _).trans (hsettling _).symm
    · exact (hsettling' _).trans (hsettling _).symm
  | finish hj hlive => exact hb.finish hmetered hrecorded.once hj hlive _ _ _
  | await hj hphase => exact hjob hj fun q _ ↦ congrArg q hphase.symm
  | settle hj hphase hok => exact hb.settle hrecorded.once hj hphase hok
  | fail hj hphase _ => exact hb.fail hmetered hrecorded.once hj hphase _

end Balanced

end Books

/-! ### Along a run -/

theorem Plan.balanced_of_build {p : Plan} {s : State} (hbuild : p.build = .ok s)
    (hbroker : p.broker.Untouched) : s.books.Balanced := by
  obtain ⟨setup, slots, -, -, -, -, hbooks, -⟩ := Plan.of_build hbuild
  obtain ⟨-, hacked, hnacked⟩ := hbroker.nothing_settled
  rw [hbooks]
  exact {
    lags := rfl
    processed := rfl
    nacks := by simp [hnacked, Books.stage, Books.mishaps, Books.total, Meters.total]
    acks := by simp [hacked, Books.stage, Books.mishaps, Books.total, Meters.total]
    told := fun _ _ _ ↦ rfl
    toldNacks := by simp [hnacked, published] }

/-- **The ledgers are in step all along a run**, as long as strangers do not settle. -/
theorem Runs.ledgers {p : Plan} {s t : State} (hbuild : p.build = .ok s)
    (hmetered : p.metered = true) (hbroker : p.broker.Untouched) (hrun : Runs onlyJobsSettle s t) :
    t.books.Balanced := by
  have hkept {b : Books} (hb : b.Balanced) {x : Broker} (hacked : x.acked = b.broker.acked)
      (hnacked : x.nacked = b.broker.nacked) : Books.Balanced { b with broker := x } :=
    hb.aside rfl rfl (fun _ ↦ rfl) (fun _ _ ↦ rfl) hacked hnacked rfl fun _ _ ↦ rfl
  refine (hrun.settling_induction (P := fun b ↦ b.setup.metered = true ∧ b.Balanced) hbuild
    ?_ ?_ ?_ ?_ ?_).2
  · rintro b b' hdeed hrecorded ⟨hmetered, hb⟩
    exact ⟨by rwa [hdeed.setup_eq], hb.deed hdeed hmetered hrecorded⟩
  · rintro b token reporter - ⟨hmetered, hb⟩
    exact ⟨hmetered, hb.aside rfl rfl (fun _ ↦ rfl) (fun _ _ ↦ rfl) rfl rfl rfl fun _ _ ↦ rfl⟩
  · rintro b ⟨hmetered, hb⟩
    obtain ⟨fetchFaults, hask⟩ := b.broker.beginFetch_eq
    exact ⟨hmetered, hkept hb (by rw [hask]) (by rw [hask])⟩
  · rintro b c d x htake ⟨hmetered, hb⟩
    obtain ⟨queues, hx⟩ := Broker.exists_queues_of_take? htake
    exact ⟨hmetered, hkept hb (by rw [hx]) (by rw [hx])⟩
  · have hrefl : Runs own s s := Runs.refl s
    exact ⟨(hrefl.setup_of_build hbuild).2.2.trans hmetered,
      Plan.balanced_of_build hbuild hbroker⟩

/-- **The books balance wherever no slot is in use.** In every such state of a run in which only
jobs settle, summing over all series: every delivery that a puller was given was processed, and its
lag was recorded or is counted as unknown; every transient failure is a negative settlement that the
broker lists or a failed one that is counted; all other results are such positive settlements; and
as many events of each kind were published as were counted or listed. -/
theorem Runs.balanced {p : Plan} {s t : State} (hbuild : p.build = .ok s)
    (hmetered : p.metered = true) (hbroker : p.broker.Untouched) (hrun : Runs onlyJobsSettle s t)
    (hidle : ∀ sub < p.subscriptions.length, t.isIdle sub = true) :
    t.meters.total Series.processed = fetched t.journal ∧
    t.meters.total (fun x ↦ x.lag.count) + t.meters.total (·.errorsOf "metadata_unavailable") =
      fetched t.journal ∧
    t.meters.total (·.errorsOf "handler_transient") =
      t.broker.nacked.length + t.meters.total (·.errorsOf "nack_failed") ∧
    t.meters.total Series.processed = t.meters.total (·.errorsOf "handler_transient") +
      (t.broker.acked.length + t.meters.total (·.errorsOf "ack_failed")) ∧
    published .handlerFailed t.journal = t.meters.total (·.errorsOf "handler_transient") ∧
    published .handlerFatal t.journal = t.meters.total (·.errorsOf "handler_fatal") ∧
    published .handlerPanicked t.journal = t.meters.total (·.errorsOf "handler_panic") ∧
    published .messageNacked t.journal = t.broker.nacked.length ∧
    published .ackFailed t.journal = t.meters.total (·.errorsOf "ack_failed") ∧
    published .nackFailed t.journal = t.meters.total (·.errorsOf "nack_failed") := by
  have hbalanced := hrun.ledgers hbuild hmetered hbroker
  have hsubs : t.setup.subscriptions = p.subscriptions := (hrun.setup_of_build hbuild).1
  have hinUse : ∀ sub < t.setup.subscriptions.length, t.inUse sub = 0 := fun sub hsub ↦
    of_decide_eq_true (hidle sub (hsubs ▸ hsub))
  obtain ⟨hjobs, -⟩ := (hrun.counted hbuild).1.nobody_of_idle (hrun.recorded hbuild) hinUse
  have hstage (q : Job.Phase → Bool) : t.books.stage q = 0 := by
    rw [Books.stage, hjobs]
    rfl
  have hlags := hbalanced.lags
  have hprocessed := hbalanced.processed
  have hnacks := hbalanced.nacks
  have hacks := hbalanced.acks
  rw [hstage] at hlags hnacks hacks
  rw [hstage, hstage] at hprocessed
  refine ⟨hprocessed, hlags, hnacks, ?_, hbalanced.told .transient _ rfl,
    hbalanced.told .fatal _ rfl, hbalanced.told .panic _ rfl, hbalanced.toldNacks,
    hbalanced.told .ack _ rfl, hbalanced.told .nack _ rfl⟩
  rw [Nat.add_zero, Nat.add_assoc] at hacks
  exact hacks

/-- The message of the small supervisor is fetched twice, and its books balance. -/
theorem Runs.balanced_lone : ∃ s t : State, Plan.lone.build = .ok s ∧
    t.meters.total Series.processed = fetched t.journal ∧ fetched t.journal = 2 ∧
    published .messageNacked t.journal = t.broker.nacked.length := by
  obtain ⟨s, hbuild, hidle, hfetched⟩ : ∃ s, Plan.lone.build = .ok s ∧
      (∀ sub < 1, (Move.handling.foldl State.move s).isIdle sub = true) ∧
      fetched (Move.handling.foldl State.move s).journal = 2 :=
    ⟨_, rfl, by decide +kernel, by rfl⟩
  have hrun := (Runs.own_handling s).onlyJobsSettle_of_own
  obtain ⟨hprocessed, -, -, -, -, -, -, hnacked, -⟩ :=
    Runs.balanced hbuild rfl Plan.untouched_lone hrun hidle
  exact ⟨s, _, hbuild, hprocessed, hfetched, hnacked⟩

end PullConsumer.Supervisor
