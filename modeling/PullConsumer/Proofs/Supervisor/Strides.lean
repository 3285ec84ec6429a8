import PullConsumer.Proofs.Meters
import PullConsumer.Proofs.Supervisor.History

/-!
# What a puller does in one step

The broker may be asked to bind or to fetch in a step of a puller, and its answer decides what the
puller does. A `Stride` says all of that at once: the answers, the phase that the puller comes to,
and what it tells the world. What else a step changes is said by `Strode`: it is next to nothing.

Every step of a puller is a stride (`State.strides_pullerStep`). Whoever follows a puller looks at
the strides and not at the program.
-/

namespace PullConsumer

/-- What a look of a fetch is answered, if it ends the fetch. -/
def Broker.Fetch.Progress.answer? : Progress → Option (Except BrokerError Delivery)
  | waiting => none
  | finished answer => some answer

namespace Supervisor

/-! ### What the world hears of -/

namespace Entry

/-- The world hears of the events and of the failures that end pullers. -/
def isTold : Entry → Bool
  | published _ => true
  | fatal .. => true
  | _ => false

/-- An event of a kind was published. -/
def tellsOf (kind : EventKind) : Entry → Bool
  | published e => e.kind = kind
  | _ => false

/-- A puller reported a failure that is counted under a label. -/
def isFatal (kind : String) : Entry → Bool
  | fatal _ cause => cause.label = kind
  | _ => false

end Entry

/-- What a journal tells the world, the first one first. -/
def told (journal : List (Nat × Entry)) : List Entry :=
  ((journal.map (·.2)).filter Entry.isTold).reverse

/-- What a move tells the world, the first one first. -/
def State.tells (s : State) (m : Move) : List Entry := (s.written m).filter Entry.isTold

theorem told_move (s : State) (m : Move) :
    told (s.move m).journal = told s.journal ++ s.tells m := by
  have h := congrArg (List.filter Entry.isTold) (s.journal_move m)
  rw [List.filter_append, List.filter_reverse, List.filter_reverse] at h
  exact h

/-- What a move tells the world is what it adds to what was told before. -/
theorem State.tells_eq {s : State} {m : Move} {entries : List Entry}
    (h : told (s.move m).journal = told s.journal ++ entries) : s.tells m = entries :=
  List.append_cancel_left ((told_move s m).symm.trans h)

/-! ### Who has begun a fetch -/

/-- The puller that an entry says has begun a fetch. -/
def Entry.asker? : Entry → Option Nat
  | fetchBegun n => some n
  | _ => none

/-- The pullers that have begun fetches, once for each fetch, the last one first. -/
def askers (journal : List (Nat × Entry)) : List Nat := journal.filterMap fun x ↦ x.2.asker?

namespace Books

variable {b : Books}

/-- The errors of a kind that are counted under a label. -/
def errors (b : Books) (l : Label) (kind : String) : Nat := (b.meters.series l).errorsOf kind

@[simp] theorem told_note (b : Books) (e : Entry) :
    told (b.note e).journal = told b.journal ++ if e.isTold then [e] else [] := by
  by_cases h : e.isTold = true <;> simp [told, note, h]

@[simp] theorem told_publishFor (b : Books) (sub : Nat) (e : Event) :
    told (b.publishFor sub e).journal =
      told b.journal ++ [.published (e.withBinding (b.setup.binding sub))] :=
  told_note ..

@[simp] theorem errors_note (b : Books) (e : Entry) : (b.note e).errors = b.errors := rfl

@[simp] theorem errors_publishFor (b : Books) (sub : Nat) (e : Event) :
    (b.publishFor sub e).errors = b.errors := rfl

@[simp] theorem errors_setPhase (b : Books) (n : Nat) (phase : Puller.Phase) :
    (b.setPhase n phase).errors = b.errors := rfl

@[simp] theorem errors_giveBack (b : Books) (sub : Nat) : (b.giveBack sub).errors = b.errors := rfl

/-- Only a measurement counts errors. -/
theorem errors_measure (b : Books) (sub : Nat) (m : Measurement) (l : Label) (kind : String) :
    (b.measure sub m).errors l kind = b.errors l kind +
      if b.setup.metered = true ∧ l = b.setup.label sub then (Counter.errors kind).weight m
      else 0 := by
  unfold errors measure
  by_cases h : b.setup.metered = true
  · simp only [h, if_true, true_and]
    exact b.meters.of_series_record (b.setup.label sub) l m (.errors kind)
  · simp [h]

end Books

/-- What a call is told of an entry that a puller writes: the failure of the puller, if the puller
reports to the call. -/
def State.failureFor (s : State) (p : Puller) (i : Nat) : Entry → Option RuntimeError
  | .fatal _ cause =>
    if p.reporter = .call i then some (.subscriptionFailed (s.name p.sub) cause) else none
  | _ => none

/-- Calls are told of the failures among the entries that a puller writes; nothing else becomes of
them. -/
def State.Reported (s : State) (p : Puller) (entries : List Entry) (calls : List Call) : Prop :=
  ∀ i : Nat, calls[i]? = s.calls[i]?.map fun c : Call ↦
    { c with reports := c.reports ++ entries.filterMap (s.failureFor p i) }

/-- Calls are told of nothing but subscriptions that have failed. -/
theorem State.subscriptionFailed_of_mem {s : State} {p : Puller} {i : Nat} {entries : List Entry} :
    ∀ r ∈ entries.filterMap (s.failureFor p i), ∃ name cause, r = .subscriptionFailed name cause := by
  intro r hr
  obtain ⟨e, -, he⟩ := List.mem_filterMap.1 hr
  cases e with
  | fatal k cause =>
    rw [failureFor, Option.ite_none_right_eq_some] at he
    exact ⟨_, _, (Option.some.inj he.2).symm⟩
  | _ => exact absurd he (by simp [failureFor])

theorem State.Reported.silent {s : State} {p : Puller} {entries : List Entry}
    (h : ∀ i, entries.filterMap (s.failureFor p i) = []) : s.Reported p entries s.calls := by
  intro i
  rw [h]
  simp

/-! ### Strides -/

/-- The phases that a puller goes through again and again once it is bound. -/
def Puller.Phase.isRound : Puller.Phase → Bool
  | head => true
  | crowded _ => true
  | reaching _ => true
  | fetching _ => true
  | _ => false

/-- The phases in which a puller looks at its token before it goes on. -/
def Puller.Phase.looksUp : Puller.Phase → Bool
  | rebinding .. => true
  | head => true
  | crowded _ => true
  | _ => false

namespace State

/-- The answer that a puller gets to an attempt to bind, if it makes one in its next step. -/
def bindAnswer? (s : State) (p : Puller) : Option (Except BrokerError Unit) :=
  match p.phase with
  | .binding _ => some (s.tryBind p).1
  | _ => none

/-- The answer that a puller gets on reaching the broker, unless it has to wait for one. -/
def reachAnswer? (s : State) (p : Puller) : Option (Except BrokerError Delivery) :=
  match Broker.Fetch.start s.now (s.binding p.sub).toConsumerId (s.fetchTimeout p.sub) with
  | .ok f => (f.firstLook s.now s.broker).1.answer?
  | .error _ => none

/-- The answer that a puller gets to a fetch, if it gets one in its next step. -/
def fetchAnswer? (s : State) (p : Puller) : Option (Except BrokerError Delivery) :=
  match p.phase with
  | .reaching due => if due ≤ s.now then s.reachAnswer? p else none
  | .fetching f => (f.look s.now s.broker).1.answer?
  | _ => none

end State

/-- An event that a puller tells the world about its subscription. -/
def Setup.tells (x : Setup) (sub : Nat) (e : Event) : Entry := .published (e.withBinding
  (x.binding sub))

/-- The report of attempts to bind that all have failed. -/
def Setup.bindReport (x : Setup) (errors : List String) : String :=
  Retry.Report.text ⟨x.bindRetry.maxAttempts, false, Retry.failures errors⟩

/-- **What a puller does in one step**: the answers that it gets, the phase that it comes to, and
what it tells the world. -/
inductive Stride (s : State) (n : Nat) (p : Puller) : Option (Except BrokerError Unit) →
    Option (Except BrokerError Delivery) → Puller.Phase → List Entry → Prop
  | wait : Stride s n p none none p.phase []
  | begin (h : p.phase = .fresh) : Stride s n p none none (.binding [])
      [s.setup.tells p.sub (.of .subscriptionStarting)]
  | bound {errors : List String} (h : p.phase = .binding errors) :
      Stride s n p (some (.ok ())) none .head
        [s.setup.tells p.sub ((Event.of .subscriptionBound).withAttempt (errors.length + 1))]
  /-- An attempt to bind has failed and another one is to be made. -/
  | retry {errors : List String} {cause : BrokerError} {phase : Puller.Phase}
      (h : p.phase = .binding errors) (hphase : phase = .binding (errors ++ [cause.message]) ∨
        ∃ due, phase = .rebinding (errors ++ [cause.message]) due) :
      Stride s n p (some (.error cause)) none phase []
  /-- An attempt to bind has failed; after the cancellation that is nothing to speak of. -/
  | withdraw {errors : List String} {cause : BrokerError} (h : p.phase = .binding errors)
      (hcancelled : s.isCancelled p.token = true) :
      Stride s n p (some (.error cause)) none .leaving []
  | refused {errors : List String} {cause : BrokerError} (h : p.phase = .binding errors)
      (hlive : s.isCancelled p.token = false) :
      Stride s n p (some (.error cause)) none .leaving [
        s.setup.tells p.sub (((Event.of .bindFailed).withAttempt (errors.length + 1)).withReason
          (s.setup.bindReport (errors ++ [cause.message]))),
        .fatal n cause]
  | rebind {errors : List String} {due : Nat} (h : p.phase = .rebinding errors due) :
      Stride s n p none none (.binding errors) []
  | quit (h : p.phase.looksUp = true) (hcancelled : s.isCancelled p.token = true) :
      Stride s n p none none .leaving []
  /-- A puller that is bound goes on. It sets out for the broker where it has found a slot. -/
  | round {phase : Puller.Phase} (h : p.phase.isRound = true) (hphase : phase.isRound = true)
      (hreach : ∀ due, phase = .reaching due →
        p.phase = .head ∧ due = s.now + s.setup.client.fetchTicks) :
      Stride s n p none none phase []
  | fetched {d : Delivery} (h : p.phase.isRound = true) : Stride s n p none (some (.ok d)) .head []
  | timedOut {cause : BrokerError} (h : p.phase.isRound = true) (hcause : cause.isTimeout = true) :
      Stride s n p none (some (.error cause)) .head []
  | failed {cause : BrokerError} (h : p.phase.isRound = true) (hcause : cause.isTimeout = false) :
      Stride s n p none (some (.error cause)) .leaving [
        s.setup.tells p.sub ((Event.of .fetchFailed).withReason cause.message),
        .fatal n cause]
  /-- The deadline of a fetch would lie past the horizon. -/
  | crash {due : Nat} {cause : Crash} (h : p.phase = .reaching due)
      (hlimit : (s.fetchTimeout p.sub).limit? s.now = none) :
      Stride s n p none none (.crashed cause) []
  | stop (h : p.phase = .leaving) (hidle : s.inUse p.sub = 0) :
      Stride s n p none none .finished [s.setup.tells p.sub (.of .subscriptionStopped)]

/-- **What else becomes of the books in such a step.** Every failure that is reported is also
counted, and a delivery that was fetched has its job. -/
structure Strode (b : Books) (n : Nat) (p : Puller) (fetch : Option (Except BrokerError Delivery))
    (phase : Puller.Phase) (entries : List Entry) (b' : Books) : Prop where
  setup : b'.setup = b.setup
  pullers : b'.pullers = b.pullers.modify n fun p ↦ { p with phase }
  told : told b'.journal = told b.journal ++ entries
  jobs : ∀ j ∈ b'.jobs, j ∈ b.jobs ∨ j.puller = n ∧ ∃ d, fetch = some (.ok d)
  errors : ∀ l kind, b'.errors l kind = b.errors l kind +
    if b.setup.metered = true ∧ l = b.setup.label p.sub then entries.countP (Entry.isFatal kind)
    else 0

theorem Strode.puller {b b' : Books} {n : Nat} {p : Puller}
    {fetch : Option (Except BrokerError Delivery)} {phase : Puller.Phase} {entries : List Entry}
    (h : Strode b n p fetch phase entries b') (hp : b.pullers[n]? = some p) :
    b'.pullers[n]? = some { p with phase } := by
  rw [h.pullers, List.getElem?_modify_eq, hp]
  rfl

/-- What a puller begins with may be changed where nothing is told and no error is counted. -/
theorem Strode.before {b b' c : Books} {n : Nat} {p : Puller}
    {fetch : Option (Except BrokerError Delivery)} {phase : Puller.Phase} {entries : List Entry}
    (h : Strode c n p fetch phase entries b') (hsetup : c.setup = b.setup)
    (hpullers : c.pullers = b.pullers)
    (htold : Supervisor.told c.journal = Supervisor.told b.journal)
    (hjobs : c.jobs = b.jobs) (herrors : c.errors = b.errors) :
    Strode b n p fetch phase entries b' where
  setup := h.setup.trans hsetup
  pullers := hpullers ▸ h.pullers
  told := htold ▸ h.told
  jobs := hjobs ▸ h.jobs
  errors := by
    rw [← hsetup, ← herrors]
    exact h.errors

namespace State

variable {s t : State} {n : Nat} {p : Puller}

/-- A step of a puller: what it does, what else changes, and what it leaves alone. -/
structure Strides (s : State) (n : Nat) (p : Puller) (bind : Option (Except BrokerError Unit))
    (fetch : Option (Except BrokerError Delivery)) (t : State) : Prop where
  stride : ∃ phase entries, Stride s n p bind fetch phase entries ∧
    Strode s.books n p fetch phase entries t.books ∧ s.Reported p entries t.calls
  tokens : t.tokens = s.tokens

/-- A puller that comes to a phase and tells nothing. -/
theorem strode_setPhase (b : Books) (n : Nat) (p : Puller)
    (fetch : Option (Except BrokerError Delivery)) (phase : Puller.Phase) :
    Strode b n p fetch phase [] (b.setPhase n phase) where
  setup := rfl
  pullers := rfl
  told := (List.append_nil _).symm
  jobs _ hj := Or.inl hj
  errors := by simp

/-- A puller that comes to a phase and publishes an event. -/
theorem strode_publishFor (b : Books) (n : Nat) (p : Puller)
    (fetch : Option (Except BrokerError Delivery)) (phase : Puller.Phase) (e : Event) :
    Strode b n p fetch phase [b.setup.tells p.sub e] ((b.publishFor p.sub e).setPhase n phase) where
  setup := rfl
  pullers := rfl
  told := Books.told_publishFor b p.sub e
  jobs _ hj := Or.inl hj
  errors := by simp [Setup.tells, Entry.isFatal]

/-- A puller that fails: the failure is counted, published and reported. -/
theorem strode_fatal (b : Books) (n : Nat) (p : Puller)
    (fetch : Option (Except BrokerError Delivery)) (e : Event) (cause : BrokerError) :
    Strode b n p fetch .leaving [b.setup.tells p.sub e, .fatal n cause]
      ((((b.measure p.sub (.error cause.label)).publishFor p.sub e).note
        (.fatal n cause)).setPhase n .leaving) where
  setup := rfl
  pullers := rfl
  told := by
    show told (Books.note _ _).journal = _
    rw [Books.told_note, Books.told_publishFor, List.append_assoc]
    rfl
  jobs _ hj := Or.inl hj
  errors l kind := by
    rw [Books.errors_setPhase, Books.errors_note, Books.errors_publishFor, Books.errors_measure]
    simp [Setup.tells, Entry.isFatal, Counter.weight, List.countP_cons]

/-- A puller that was given a delivery, for which a job begins. -/
theorem strode_beginJob (b : Books) (n : Nat) (p : Puller) (d : Delivery) :
    Strode b n p (some (.ok d)) .head [] ((b.beginJob n p d).setPhase n .head) where
  setup := rfl
  pullers := rfl
  told := Books.told_note ..
  jobs j hj := (List.mem_append.1 hj).imp_right fun hj ↦ by
    rw [List.mem_singleton.1 hj]
    exact ⟨rfl, d, rfl⟩
  errors := by
    intro l kind
    rw [List.countP_nil, ite_self]
    rfl

theorem reported_reportFatal {u : State} (hname : u.name p.sub = s.name p.sub)
    (hcalls : u.calls = s.calls) (e : Event) (cause : BrokerError) :
    s.Reported p [s.setup.tells p.sub e, .fatal n cause] (u.reportFatal n p cause).calls := by
  intro i
  rw [← hcalls, reportFatal]
  split
  · next hreporter =>
    have hsilent : [s.setup.tells p.sub e, .fatal n cause].filterMap (s.failureFor p i) = [] := by
      simp [Setup.tells, failureFor, hreporter]
    rw [hsilent]
    simp [note]
  · next k hreporter =>
    have htold : [s.setup.tells p.sub e, .fatal n cause].filterMap (s.failureFor p i) =
        if k = i then [.subscriptionFailed (u.name p.sub) cause] else [] := by
      by_cases hk : k = i <;>
        simp [List.filterMap_cons, Setup.tells, failureFor, hreporter, hname, hk]
    show (u.calls.modify k _)[i]? = _
    rw [htold, List.getElem?_modify]
    by_cases hk : k = i
    · simp only [hk, if_true]
      rfl
    · simp [hk]

@[simp] theorem tokens_reportFatal (s : State) (n : Nat) (p : Puller) (cause : BrokerError) :
    (s.reportFatal n p cause).tokens = s.tokens := by
  rw [reportFatal]
  split <;> rfl

@[simp] theorem tokens_measure (s : State) (sub : Nat) (m : Measurement) :
    (s.measure sub m).tokens = s.tokens := by
  rw [measure]
  split <;> rfl

@[simp] theorem calls_measure (s : State) (sub : Nat) (m : Measurement) :
    (s.measure sub m).calls = s.calls := by
  rw [measure]
  split <;> rfl

/-- A failure is counted, published and reported, whatever became of the broker and the slots. -/
theorem strides_fatal {u : State} {bind : Option (Except BrokerError Unit)}
    {fetch : Option (Except BrokerError Delivery)} {e : Event} {cause : BrokerError}
    (hstride : Stride s n p bind fetch .leaving [s.setup.tells p.sub e, .fatal n cause])
    (hbooks : u.books = { s.books with broker := u.broker, slots := u.slots })
    (htokens : u.tokens = s.tokens) (hcalls : u.calls = s.calls) : Strides s n p bind fetch
      ((((u.measure p.sub (.error cause.label)).publishFor p.sub e).reportFatal n p cause).goTo n
        .leaving).1 := by
  have hstrode := strode_fatal u.books n p fetch e cause
  refine ⟨⟨.leaving, _, hstride, ?_, ?_⟩, ?_⟩
  · simp only [books_goTo, books_reportFatal, books_publishFor, books_measure]
    rw [hbooks] at hstrode ⊢
    exact hstrode.before rfl rfl rfl rfl rfl
  · have hsetup : (u.measure p.sub (.error cause.label)).setup = s.setup :=
      (congrArg Books.setup (books_measure u _ _)).trans (congrArg Books.setup hbooks)
    refine reported_reportFatal (u := (u.measure p.sub (.error cause.label)).publishFor p.sub e) ?_
      ((calls_measure ..).trans hcalls) e cause
    show (u.measure p.sub (.error cause.label)).name p.sub = _
    simp only [name, binding, subscription?, hsetup]
  · exact (tokens_reportFatal ..).trans ((tokens_measure u ..).trans htokens)

/-! ### The steps of the program -/

theorem strides_bindStep {errors : List String} (hphase : p.phase = .binding errors) :
    Strides s n p (some (s.tryBind p).1) none (s.bindStep n p errors).1 := by
  obtain ⟨answer, x, htry⟩ : ∃ answer x, s.tryBind p = (answer, { s with broker := x }) := by
    rw [tryBind]
    split <;> exact ⟨_, _, rfl⟩
  rw [bindStep]
  simp only [htry]
  cases answer with
  | ok _ =>
    refine ⟨⟨.head, _, .bound hphase, ?_, .silent fun _ ↦ rfl⟩, rfl⟩
    rw [books_goTo, books_publishFor]
    exact (strode_publishFor { s.books with broker := x } n p none .head _).before rfl rfl rfl rfl
      rfl
  | error cause =>
    have hturn {phase : Puller.Phase} (hstride : Stride s n p (some (.error cause)) none phase []) :
        Strides s n p (some (.error cause)) none (goTo { s with broker := x } n phase).1 :=
      ⟨⟨phase, [], hstride, (strode_setPhase { s.books with broker := x } n p none phase).before
        rfl rfl rfl rfl rfl, .silent fun _ ↦ rfl⟩, rfl⟩
    dsimp only
    split
    · split
      · next hcancelled => exact hturn (.withdraw hphase hcancelled)
      · split
        · exact hturn (.retry hphase (Or.inl rfl))
        · exact hturn (.retry hphase (Or.inr ⟨_, rfl⟩))
    · split
      · next hcancelled => exact hturn (.withdraw hphase hcancelled)
      · next hlive =>
        rw [List.length_append]
        exact strides_fatal (u := { s with broker := x })
          (.refused hphase (Bool.eq_false_iff.2 hlive)) rfl rfl rfl

theorem strides_headStep (hphase : p.phase = .head) :
    Strides s n p none none (s.headStep n p).1 := by
  rw [headStep]
  split
  · next hcancelled =>
    exact ⟨⟨.leaving, [], .quit (by simp [Puller.Phase.looksUp, hphase]) hcancelled,
      strode_setPhase .., .silent fun _ ↦ rfl⟩, rfl⟩
  · have hround : p.phase.isRound = true := by simp [Puller.Phase.isRound, hphase]
    set t := (s.note (.gauge p.sub (s.inUse p.sub))).measure p.sub (.concurrency (s.inUse p.sub))
      with ht
    have hbooks : t.books = ((s.books.note (.gauge p.sub (s.inUse p.sub))).measure p.sub
        (.concurrency (s.inUse p.sub))) := by simp [ht]
    have htokens : t.tokens = s.tokens := tokens_measure ..
    have hcalls : s.Reported p [] t.calls :=
      (calls_measure (s.note _) ..).symm ▸ .silent fun _ ↦ rfl
    -- The gauge is neither told nor an error.
    have hgo {u : State} {phase : Puller.Phase} (hphase : phase.isRound = true)
        (hu : u.books = ({ t.books with slots := u.slots }.setPhase n phase)) :
        Strode s.books n p none phase [] u.books := by
      rw [hu]
      refine (strode_setPhase { t.books with slots := u.slots } n p none phase).before ?_ ?_ ?_ ?_
        ?_
      · rw [hbooks]; rfl
      · rw [hbooks]; rfl
      · rw [hbooks]
        exact (Books.told_note ..).trans (List.append_nil _)
      · rw [hbooks]; rfl
      · funext l kind
        show t.books.errors l kind = _
        rw [hbooks, Books.errors_measure]
        simp [Counter.weight]
    dsimp only
    split
    · next u htake =>
      obtain ⟨pool, pool', hpool, hpool', rfl⟩ := takeSlot?_eq_some htake
      have hnow : t.now = s.now := congrArg Books.now hbooks
      have hsetup : t.setup = s.setup := congrArg Books.setup hbooks
      refine ⟨⟨.reaching _, [], .round hround rfl fun due hdue ↦ ⟨hphase, ?_⟩, hgo rfl rfl, hcalls⟩,
        htokens⟩
      rw [← hnow, ← hsetup]
      exact (Puller.Phase.reaching.inj hdue).symm
    · exact ⟨⟨.crowded _, [], .round hround rfl (by simp), hgo rfl rfl, hcalls⟩, htokens⟩

theorem strides_fetchStep {f : Broker.Fetch} {found : Broker.Fetch.Progress × Broker}
    (hround : p.phase.isRound = true) :
    Strides s n p none found.1.answer? (s.fetchStep n p f found).1 := by
  obtain ⟨progress, x⟩ := found
  rw [fetchStep]
  cases progress with
  | waiting =>
    refine ⟨⟨.fetching f, [], .round hround rfl (by simp), ?_, .silent fun _ ↦ rfl⟩, rfl⟩
    simp only [books_arm, books_listen, books_setPhase]
    exact (strode_setPhase { s.books with broker := x } n p none _).before rfl rfl rfl rfl rfl
  | finished answer =>
    cases answer with
    | ok d =>
      refine ⟨⟨.head, [], .fetched hround, ?_, .silent fun _ ↦ rfl⟩, rfl⟩
      simp only [books_goTo, books_startJob]
      exact (strode_beginJob { s.books with broker := x } n p d).before rfl rfl rfl rfl rfl
    | error cause =>
      have hfatal (hcause : cause.isTimeout = false) :=
        strides_fatal (s := s) (n := n) (.failed hround hcause)
          (u := ({ s with broker := x } : State).giveBackSlot p.sub) (books_giveBackSlot ..) rfl rfl
      cases cause with
      | timeout d =>
        refine ⟨⟨.head, [], .timedOut hround rfl, ?_, .silent fun _ ↦ rfl⟩, rfl⟩
        simp only [books_goTo, books_giveBackSlot]
        exact (strode_setPhase (.giveBack { s.books with broker := x } p.sub) n p _ .head).before
          rfl rfl rfl rfl rfl
      | _ => exact hfatal rfl

/-- What was noted and is not told makes no difference. -/
theorem Strides.of_note {e : Entry} {bind : Option (Except BrokerError Unit)}
    {fetch : Option (Except BrokerError Delivery)} (he : e.isTold = false)
    (h : Strides (s.note e) n p bind fetch t) : Strides s n p bind fetch t := by
  obtain ⟨⟨phase, entries, hstride, hstrode, hcalls⟩, htokens⟩ := h
  refine ⟨⟨phase, entries, ?_, ?_, hcalls⟩, htokens⟩
  · cases hstride with
    | wait => exact .wait
    | begin h => exact .begin h
    | bound h => exact .bound h
    | retry h hphase => exact .retry h hphase
    | withdraw h hcancelled => exact .withdraw h hcancelled
    | refused h hlive => exact .refused h hlive
    | rebind h => exact .rebind h
    | quit h hcancelled => exact .quit h hcancelled
    | round h hphase hreach => exact .round h hphase hreach
    | fetched h => exact .fetched h
    | timedOut h hcause => exact .timedOut h hcause
    | failed h hcause => exact .failed h hcause
    | crash h hlimit => exact .crash h hlimit
    | stop h hidle => exact .stop h hidle
  · exact hstrode.before rfl rfl (by simp [he]) rfl rfl

-- An equation between functions, for the reason given at `Broker.Fetch.start_eq`.
theorem reachAnswer?_eq : reachAnswer? = fun s p ↦
    match Broker.Fetch.start s.now (s.binding p.sub).toConsumerId (s.fetchTimeout p.sub) with
    | .ok f => (f.firstLook s.now s.broker).1.answer?
    | .error _ => none := rfl

/-- A puller that has reached the broker begins its fetch, or finds no deadline for it. -/
theorem strides_reachStep {due : Nat} (hphase : p.phase = .reaching due) :
    Strides s n p none (s.reachAnswer? p) (s.reachStep n p).1 := by
  have hround : p.phase.isRound = true := by simp [Puller.Phase.isRound, hphase]
  rw [reachStep_eq, reachAnswer?_eq]
  beta_reduce
  cases hstart : Broker.Fetch.start s.now (s.binding p.sub).toConsumerId (s.fetchTimeout p.sub) with
  | ok f => exact (strides_fetchStep (s := s.note (.fetchBegun n)) hround).of_note rfl
  | error cause =>
    have hlimit := Broker.Fetch.limit?_of_start_eq_error hstart
    refine ⟨⟨.crashed cause, [], .crash hphase hlimit, ?_, .silent fun _ ↦ rfl⟩, rfl⟩
    simp only [books_notify, books_setPhase, books_giveBackSlot]
    exact (strode_setPhase (s.books.giveBack p.sub) n p _ _).before rfl rfl rfl rfl rfl

/-- A puller that waits stays as it is. -/
theorem strides_wait {u : State} (hp : s.pullers[n]? = some p) (hbooks : u.books = s.books)
    (htokens : u.tokens = s.tokens) (hcalls : u.calls = s.calls) :
    Strides s n p none none u := by
  have hself : s.books.setPhase n p.phase = s.books := by
    have hmodify : s.pullers.modify n (fun q ↦ { q with phase := p.phase }) = s.pullers := by
      refine List.ext_getElem? fun i ↦ ?_
      rw [List.getElem?_modify]
      by_cases h : n = i
      · subst h
        simp [hp]
      · simp [h]
    exact congrArg (fun pullers ↦ { s.books with pullers }) hmodify
  refine ⟨⟨p.phase, [], .wait, ?_, hcalls ▸ .silent fun _ ↦ rfl⟩, htokens⟩
  have hstrode := strode_setPhase s.books n p none p.phase
  rw [hself] at hstrode
  rwa [hbooks]

/-- **Every step of a puller is a stride.** -/
theorem strides_pullerStep (hp : s.pullers[n]? = some p) :
    Strides s n p (s.bindAnswer? p) (s.fetchAnswer? p) (s.pullerStep n p).1 := by
  have hgo {phase : Puller.Phase} (hstride : Stride s n p none none phase []) :
      Strides s n p none none (s.goTo n phase).1 :=
    ⟨⟨phase, [], hstride, strode_setPhase .., .silent fun _ ↦ rfl⟩, rfl⟩
  have hwait {u : State} (hbooks : u.books = s.books) (htokens : u.tokens = s.tokens)
      (hcalls : u.calls = s.calls) := strides_wait hp hbooks htokens hcalls
  have hquit {phase : Puller.Phase} (h : p.phase = phase) (hlooks : phase.looksUp = true)
      (hcancelled : s.isCancelled p.token = true) := hgo (.quit (h ▸ hlooks) hcancelled)
  rw [pullerStep, bindAnswer?, fetchAnswer?]
  cases hphase : p.phase with
  | fresh =>
    refine ⟨⟨.binding [], _, .begin hphase, ?_, .silent fun _ ↦ rfl⟩, rfl⟩
    rw [books_goTo, books_publishFor]
    exact strode_publishFor ..
  | binding errors => exact strides_bindStep hphase
  | rebinding errors due =>
    dsimp only
    split
    · next hcancelled => exact hquit hphase rfl hcancelled
    · split
      · exact hgo (.rebind hphase)
      · exact hwait (by rw [books_arm, books_listen]) rfl rfl
  | head => exact strides_headStep hphase
  | crowded due =>
    dsimp only
    split
    · next hcancelled => exact hquit hphase rfl hcancelled
    · split
      · exact hgo (.round (by simp [Puller.Phase.isRound, hphase]) rfl (by simp))
      · exact hwait (by rw [books_arm, books_listen]) rfl rfl
  | reaching due =>
    dsimp only
    split
    · exact strides_reachStep hphase
    · exact hwait rfl rfl rfl
  | fetching f =>
    exact strides_fetchStep (by simp [Puller.Phase.isRound, hphase])
  | leaving =>
    dsimp only
    split
    · next hidle =>
      refine ⟨⟨.finished, _, .stop hphase (of_decide_eq_true hidle), ?_, .silent fun _ ↦ rfl⟩, rfl⟩
      simp only [books_notify, books_setPhase, books_publishFor]
      exact strode_publishFor ..
    · exact hwait (books_listen ..) rfl rfl
  | finished => exact hwait rfl rfl rfl
  | crashed cause => exact hwait rfl rfl rfl

end State

end Supervisor

end PullConsumer
