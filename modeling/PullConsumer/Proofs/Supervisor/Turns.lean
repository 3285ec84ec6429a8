import PullConsumer.Proofs.Supervisor.Strides

/-!
# The turn of a puller comes to rest

A turn of a puller is a chain of steps, and the program cuts it off after a number of them. It never
has to: each step after which the turn goes on lowers a count (`Books.fuel`), and a turn begins with
less than its budget. So a turn ends because the puller waits for something, and for what can be
said (`State.Rests`).

## What this rests on

* A round of a puller takes a slot for good, or it uses up a planted fault. Any other end of a fetch
  is the end of the round: a fetch that would have run out of time at once is excluded because the
  timeouts are positive.
* Between two attempts to bind time passes, unless a planted fault is used up. That a consumer is
  not there is no reason to try again.
* Between two looks for a slot time passes, because the poll intervals are positive.

Settings and drafts are checked for positive times, and the policy is the one that the settings ask
for (`Plan.timed_of_build`).

## What it is good for

A puller may be told to stop between any two turns, but not within one. At the end of a turn a puller
that holds a slot has its request on the way to the broker, or it waits there and there is nothing
for it yet. So its look at the token and the begin of the fetch that follows are in one turn.
-/

namespace PullConsumer

/-- Settings that were accepted have no time that is zero. -/
theorem Settings.positive_of_validate {x : Settings} (h : x.validate = .ok ()) :
    x.pollInterval.isZero = false ∧ x.fetchTimeout.isZero = false := by
  rw [validate] at h
  split at h
  · exact absurd h (by simp)
  · next hnone =>
    have hall := List.find?_eq_none.1 hnone
    exact ⟨Bool.eq_false_iff.2 (hall ("poll_interval", _) (by simp [required])),
      Bool.eq_false_iff.2 (hall ("fetch_timeout", _) (by simp [required]))⟩

/-- That a consumer is not there is not tried again. -/
theorem Settings.verdict_binding {x : Settings} {policy : Retry.Policy BrokerError}
    (h : x.bindRetry = .ok policy) (k : Nat) (reason : String) :
    policy.verdict k (.binding reason) = .giveUp := by
  rw [bindRetry] at h
  split at h
  · next base hbase =>
    have hdenied : base.denied = [] := by
      rw [Retry.Policy.create] at hbase
      split at hbase
      · exact absurd hbase (by simp)
      · obtain rfl := Except.ok.inj hbase
        rfl
    obtain rfl := Except.ok.inj h
    have hlabel : Categorized.category (BrokerError.binding reason) =
      (BrokerError.binding "").label := rfl
    simp [Retry.Policy.verdict, Retry.Policy.isRetryable, Retry.Policy.deny,
      Retry.Policy.withDelay, Retry.Policy.joinSets, hdenied, hlabel]
  · exact absurd h (by simp)

/-- The times of a subscription that was checked are not zero. -/
theorem Subscription.Draft.positive_of_build {d : Draft} {x : Subscription}
    (h : d.build = .ok x) : x.pollInterval.any Duration.isZero = false ∧
      x.fetchTimeout.any Duration.isZero = false := by
  obtain ⟨hproblems, -, hinterval, htimeout⟩ := of_build h
  simp only [problems, fault, List.append_eq_nil_iff, ite_eq_right_iff] at hproblems
  obtain ⟨⟨-, hpoll⟩, hfetch⟩ := hproblems
  rw [hinterval, htimeout]
  exact ⟨Bool.eq_false_iff.2 fun h ↦ by simp [h] at hpoll,
    Bool.eq_false_iff.2 fun h ↦ by simp [h] at hfetch⟩

namespace Supervisor

/-! ### What a turn can still spend -/

namespace Books

/-- The slots that are free and the faults that are planted. -/
def reserves (b : Books) (sub : Nat) : Nat :=
  ((b.slots[sub]?).map Slots.free).getD 0 + b.broker.fetchFaults.length +
    b.broker.bindFaults.length

/-- The steps that a puller can take from a phase before it has waited, or begun a round. -/
def span (now : Nat) : Puller.Phase → Nat
  | .fresh => 4
  | .binding _ => 3
  | .rebinding _ due => if due ≤ now then 4 else 1
  | .head => 2
  | .crowded due => if due ≤ now then 3 else 1
  | .reaching _ => 3
  | .fetching _ => 5
  | .leaving => 0
  | .finished => 0
  | .crashed _ => 0

/-- A number that each step lowers after which the turn goes on. -/
def fuel (b : Books) (p : Puller) : Nat := 2 * b.reserves p.sub + span b.now p.phase

theorem reserves_giveBack (b : Books) (sub : Nat) :
    (b.giveBack sub).reserves sub ≤ b.reserves sub + 1 := by
  rw [reserves, giveBack, List.getElem?_modify_eq]
  cases h : b.slots[sub]? with
  | none => simp [reserves, h]
  | some pool =>
    rw [reserves, h]
    show pool.free + 1 + b.broker.fetchFaults.length + b.broker.bindFaults.length ≤
      pool.free + b.broker.fetchFaults.length + b.broker.bindFaults.length + 1
    omega

/-- A slot that is taken can be spent no more. -/
theorem reserves_take (b : Books) {sub : Nat} {pool pool' : Slots}
    (hpool : b.slots[sub]? = some pool) (htake : pool.take? = some pool') :
    ({ b with slots := b.slots.set sub pool' } : Books).reserves sub + 1 = b.reserves sub := by
  have hsub : sub < b.slots.length := (List.getElem?_eq_some_iff.1 hpool).1
  have hfree : pool'.free + 1 = pool.free := by
    have hsum := Slots.free_add_inUse_of_take? htake
    have huse := Slots.inUse_of_take? htake
    omega
  have hset : (b.slots.set sub pool')[sub]? = some pool' := by simp [hsub]
  rw [reserves, reserves, hpool]
  show ((b.slots.set sub pool')[sub]?.map Slots.free).getD 0 + b.broker.fetchFaults.length +
    b.broker.bindFaults.length + 1 = pool.free + b.broker.fetchFaults.length +
      b.broker.bindFaults.length
  rw [hset]
  show pool'.free + _ + _ + 1 = _
  omega

/-- A planted fault that was answered can be spent no more. -/
theorem reserves_broker (b : Books) (sub : Nat) (x y : Broker) :
    ({ b with broker := y } : Books).reserves sub + (x.fetchFaults.length + x.bindFaults.length) =
      ({ b with broker := x } : Books).reserves sub +
        (y.fetchFaults.length + y.bindFaults.length) := by
  rw [reserves, reserves]
  dsimp only
  omega

@[simp] theorem reserves_note (b : Books) (e : Entry) (sub : Nat) :
    (b.note e).reserves sub = b.reserves sub := rfl

@[simp] theorem reserves_publishFor (b : Books) (k : Nat) (e : Event) (sub : Nat) :
    (b.publishFor k e).reserves sub = b.reserves sub := rfl

@[simp] theorem reserves_measure (b : Books) (k : Nat) (m : Measurement) (sub : Nat) :
    (b.measure k m).reserves sub = b.reserves sub := rfl

@[simp] theorem reserves_beginJob (b : Books) (n : Nat) (p : Puller) (d : Delivery) (sub : Nat) :
    (b.beginJob n p d).reserves sub = b.reserves sub := rfl

/-- The steps before a turn has waited are few. -/
theorem span_le (now : Nat) (phase : Puller.Phase) : span now phase ≤ 5 := by
  cases phase <;> simp only [span] <;> first | omega | (split <;> omega)

end Books

namespace State

/-- The times that pullers keep are positive, and they do not try again to bind to a consumer that is
not there. -/
structure Timed (s : State) : Prop where
  poll : ∀ sub, (s.pollInterval sub).isZero = false
  fetch : ∀ sub, (s.fetchTimeout sub).isZero = false
  bind : ∀ k reason, s.setup.bindRetry.verdict k (.binding reason) = .giveUp

/-- **What a puller waits for** at the end of its turn. -/
def Rests (s : State) (p : Puller) : Prop :=
  match p.phase with
  | .rebinding _ due => s.isCancelled p.token = false ∧ s.now < due
  | .crowded due => s.isCancelled p.token = false ∧ s.now < due
  | .reaching due => s.now < due
  | .fetching f => s.now < f.deadline ∧ s.broker.take? f.consumer = .ok none
  | .leaving => s.inUse p.sub ≠ 0
  | .finished => True
  | .crashed _ => True
  | _ => False

variable {s t u : State} {n : Nat} {p : Puller}

theorem Timed.of_setup (h : s.Timed) (hsetup : t.setup = s.setup) : t.Timed := by
  refine ⟨fun sub ↦ ?_, fun sub ↦ ?_, hsetup ▸ h.bind⟩
  · rw [pollInterval, subscription?, hsetup]
    exact h.poll sub
  · rw [fetchTimeout, subscription?, hsetup]
    exact h.fetch sub

/-- What a step comes to: the turn goes on with less to spend, or the puller rests. -/
inductive Comes (s : State) (n : Nat) (p : Puller) : State × Onward → Prop
  | go {t : State} {phase : Puller.Phase} (hsetup : t.setup = s.setup)
      (hp : t.pullers[n]? = some { p with phase })
      (hless : t.books.fuel { p with phase } < s.books.fuel p) : Comes s n p (t, .go)
  | wait {t : State} (phase : Puller.Phase) (hp : t.pullers[n]? = some { p with phase })
      (hrests : t.Rests { p with phase }) : Comes s n p (t, .wait)

theorem puller_setPhase (phase : Puller.Phase) (hp : t.books.pullers[n]? = some p) :
    (t.setPhase n phase).pullers[n]? = some { p with phase } := by
  show (t.books.pullers.modify n _)[n]? = _
  rw [List.getElem?_modify_eq, hp]
  rfl

/-- A puller that goes on with less to spend. -/
theorem comes_goTo {phase : Puller.Phase} (hp : t.books.pullers[n]? = some p)
    (hsetup : t.books.setup = s.books.setup)
    (hless : 2 * t.books.reserves p.sub + Books.span t.books.now phase < s.books.fuel p) :
    Comes s n p (t.goTo n phase) := .go hsetup (puller_setPhase phase hp) hless

/-- A puller that waits where it is. -/
theorem comes_wait (hp : t.books.pullers[n]? = some p) (hrests : t.Rests p) :
    Comes s n p (t, .wait) := .wait p.phase hp hrests

theorem Comes.of_note {e : Entry} {x : State × Onward} (h : Comes (s.note e) n p x) :
    Comes s n p x := by
  cases h with
  | go hsetup hp hless => exact .go hsetup hp hless
  | wait phase hp hrests => exact .wait phase hp hrests

/-! ### One step -/

/-- An attempt to bind uses up a planted fault, or its answer is not worth another attempt. -/
theorem tryBind_cases (s : State) (p : Puller) : ∃ answer x,
    s.tryBind p = (answer, { s with broker := x }) ∧
    x.fetchFaults = s.broker.fetchFaults ∧ x.bindFaults.length ≤ s.broker.bindFaults.length ∧
    ∀ cause, answer = .error cause → x.bindFaults.length + 1 = s.broker.bindFaults.length ∨
      ∃ reason, cause = .binding reason := by
  rw [tryBind]
  split
  · refine ⟨(s.broker.bind (s.binding p.sub)).1, (s.broker.bind (s.binding p.sub)).2, rfl, ?_⟩
    rcases s.broker.bind_cases (s.binding p.sub) with ⟨cause, -, hfetch, hbind⟩ | ⟨hsame, hanswer⟩
    · exact ⟨hfetch, by omega, fun _ _ ↦ Or.inl hbind⟩
    · rw [hsame]
      refine ⟨rfl, le_rfl, fun cause hcause ↦ Or.inr ?_⟩
      rcases hanswer with hok | ⟨reason, herror⟩
      · exact absurd (hok.symm.trans hcause) (by simp)
      · exact ⟨reason, Except.error.inj (hcause.symm.trans herror)⟩
  · exact ⟨.ok (), s.broker, rfl, rfl, le_rfl, fun _ h ↦ absurd h (by simp)⟩

theorem comes_bindStep {errors : List String} (htimed : s.Timed) (hp : s.pullers[n]? = some p)
    (hphase : p.phase = .binding errors) : Comes s n p (s.bindStep n p errors) := by
  obtain ⟨answer, x, htry, hfetch, hbind, hcause⟩ := s.tryBind_cases p
  have hfuel : s.books.fuel p = 2 * s.books.reserves p.sub + 3 := by rw [Books.fuel, hphase]; rfl
  have hreserves : ({ s with broker := x } : State).books.reserves p.sub +
      (s.broker.fetchFaults.length + s.broker.bindFaults.length) =
        s.books.reserves p.sub + (x.fetchFaults.length + x.bindFaults.length) :=
    s.books.reserves_broker p.sub s.broker x
  rw [hfetch] at hreserves
  rw [bindStep]
  simp only [htry]
  cases answer with
  | ok _ =>
    refine comes_goTo ?_ ?_ ?_
    · rw [books_publishFor]
      exact hp
    · rw [books_publishFor]
      rfl
    · rw [books_publishFor, Books.reserves_publishFor, Books.span]
      omega
  | error cause =>
    have hleave : Comes s n p (goTo { s with broker := x } n .leaving) :=
      comes_goTo hp rfl (by rw [Books.span]; omega)
    dsimp only
    split
    · next hverdict =>
      -- Another attempt is worth while only after a planted fault.
      have hused : x.bindFaults.length + 1 = s.broker.bindFaults.length := by
        refine (hcause cause rfl).resolve_right fun hrefused ↦ ?_
        obtain ⟨reason, hreason⟩ := hrefused
        have hgive := htimed.bind (errors ++ [cause.message]).length reason
        rw [← hreason, hverdict] at hgive
        exact absurd hgive (by simp)
      have hagain {phase : Puller.Phase} (hspan : Books.span s.now phase ≤ 4) :
          Comes s n p (goTo { s with broker := x } n phase) := by
        refine comes_goTo hp rfl ?_
        show _ + Books.span s.now phase < _
        omega
      split
      · exact hleave
      · split
        · exact hagain (by simp [Books.span])
        · exact hagain (by simp only [Books.span]; split <;> omega)
    · split
      · exact hleave
      · refine comes_goTo ?_ ?_ ?_
        · simp only [books_reportFatal, books_publishFor, books_measure]
          exact hp
        · simp only [books_reportFatal, books_publishFor, books_measure]
          rfl
        · simp only [books_reportFatal, books_publishFor, books_measure, Books.reserves_note,
            Books.reserves_publishFor, Books.reserves_measure, Books.span]
          omega

theorem comes_headStep (htimed : s.Timed) (hp : s.pullers[n]? = some p) (hphase : p.phase = .head) :
    Comes s n p (s.headStep n p) := by
  have hfuel : s.books.fuel p = 2 * s.books.reserves p.sub + 2 := by rw [Books.fuel, hphase]; rfl
  rw [headStep]
  split
  · exact comes_goTo hp rfl (by rw [Books.span]; omega)
  · set t := (s.note (.gauge p.sub (s.inUse p.sub))).measure p.sub (.concurrency (s.inUse p.sub))
      with ht
    have hbooks : t.books = ((s.books.note (.gauge p.sub (s.inUse p.sub))).measure p.sub
        (.concurrency (s.inUse p.sub))) := by simp [ht]
    have hp' : t.books.pullers[n]? = some p := hbooks ▸ hp
    have hsetup : t.books.setup = s.books.setup := by rw [hbooks]; rfl
    have hreserves : t.books.reserves p.sub = s.books.reserves p.sub := by rw [hbooks]; rfl
    dsimp only
    split
    · next u htake =>
      obtain ⟨pool, pool', hpool, hpool', rfl⟩ := takeSlot?_eq_some htake
      have hspent : ({ t with slots := t.slots.set p.sub pool' } : State).books.reserves p.sub + 1 =
          t.books.reserves p.sub := t.books.reserves_take hpool hpool'
      refine comes_goTo hp' hsetup ?_
      rw [Books.span]
      omega
    · -- The next look is some ticks away.
      have hpoll : t.now < t.setup.clock.wakes (t.pollInterval p.sub) t.now :=
        t.setup.clock.lt_wakes ((htimed.of_setup hsetup).poll p.sub)
      refine comes_goTo hp' hsetup ?_
      have hlater : ¬t.setup.clock.wakes (t.pollInterval p.sub) t.now ≤ t.books.now :=
        Nat.not_le.2 hpoll
      rw [Books.span, if_neg hlater]
      omega

/-- A fetch that goes on has found nothing, and its time is not up. An error gives the slot back, and
after a timeout the puller begins another round. -/
theorem comes_fetchStep {f : Broker.Fetch} {found : Broker.Fetch.Progress × Broker}
    (hp : s.pullers[n]? = some p)
    (hless : ∀ d, found.1 = .finished (.ok d) →
      2 * ({ s with broker := found.2 } : State).books.reserves p.sub + 2 < s.books.fuel p)
    (hmore : ∀ cause, found.1 = .finished (.error cause) →
      2 * ({ s with broker := found.2 } : State).books.reserves p.sub +
        (if cause.isTimeout then 4 else 2) < s.books.fuel p)
    (hwaiting : found.1 = .waiting → s.now < f.deadline ∧ found.2.take? f.consumer = .ok none) :
    Comes s n p (s.fetchStep n p f found) := by
  rw [fetchStep]
  cases hfound : found.1 with
  | waiting =>
    obtain ⟨hdue, hnone⟩ := hwaiting hfound
    refine .wait (.fetching f) (puller_setPhase _ hp) ⟨?_, hnone⟩
    show (s.scheduler.listen _ _).now < _
    rw [Scheduler.now_listen]
    exact hdue
  | finished answer =>
    cases answer with
    | ok d =>
      refine comes_goTo ?_ ?_ ?_
      · rw [books_startJob]
        exact hp
      · rw [books_startJob]
        rfl
      · rw [books_startJob, Books.reserves_beginJob]
        exact hless d hfound
    | error cause =>
      have hback := Books.reserves_giveBack ({ s with broker := found.2 } : State).books p.sub
      have hroom := hmore cause hfound
      cases cause with
      | timeout d =>
        simp only [BrokerError.isTimeout, if_true] at hroom
        refine comes_goTo ?_ ?_ ?_
        · rw [books_giveBackSlot]
          exact hp
        · rw [books_giveBackSlot]
          rfl
        · rw [books_giveBackSlot, Books.span]
          omega
      | _ =>
        simp only [BrokerError.isTimeout, Bool.false_eq_true, if_false] at hroom
        refine comes_goTo ?_ ?_ ?_
        · simp only [books_reportFatal, books_publishFor, books_measure, books_giveBackSlot]
          exact hp
        · simp only [books_reportFatal, books_publishFor, books_measure, books_giveBackSlot]
          rfl
        · simp only [books_reportFatal, books_publishFor, books_measure, books_giveBackSlot,
            Books.reserves_note, Books.reserves_publishFor, Books.reserves_measure, Books.span]
          omega

/-- A look costs a slot only if it brings a delivery. -/
theorem comes_look {f : Broker.Fetch} {b : Broker} (room : Nat) (hp : s.pullers[n]? = some p)
    (hfuel : 2 * ({ s with broker := b } : State).books.reserves p.sub + room < s.books.fuel p)
    (htwo : 2 ≤ room) (hfour : f.deadline ≤ s.now → 4 ≤ room) :
    Comes s n p (s.fetchStep n p f (f.look s.now b)) := by
  have hfinds := f.finds_look s.now b
  generalize f.look s.now b = found at hfinds
  refine comes_fetchStep hp ?_ ?_ ?_
  · intro d hd
    cases hfinds with
    | @oldest d x htake =>
      obtain ⟨hfetch, hbind⟩ := Broker.faults_take? htake
      have hreserves := s.books.reserves_broker p.sub b x
      rw [hfetch, hbind] at hreserves
      have hsame : ({ s with broker := x } : State).books.reserves p.sub =
        ({ s with broker := b } : State).books.reserves p.sub := Nat.add_right_cancel hreserves
      dsimp only
      omega
    | _ => simp at hd
  · intro cause hcause
    cases hfinds with
    | missing htake hother =>
      obtain rfl := Except.error.inj (Broker.Fetch.Progress.finished.inj hcause)
      simp only [hother, Bool.false_eq_true, if_false]
      omega
    | late htake hdue =>
      have hroom := hfour hdue
      dsimp only
      split <;> omega
    | _ => simp at hcause
  · intro hwaiting
    cases hfinds with
    | nothing htake hdue => exact ⟨hdue, htake⟩
    | _ => simp at hwaiting

/-- The broker counts a fetch before it looks, and answers with a planted fault if there is one. -/
theorem comes_firstLook {f : Broker.Fetch} (hp : s.pullers[n]? = some p)
    (hfuel : s.books.fuel p = 2 * s.books.reserves p.sub + 3) (hdeadline : s.now < f.deadline) :
    Comes s n p (s.fetchStep n p f (f.firstLook s.now s.broker)) := by
  have hreserves : ({ s with broker := s.broker.beginFetch.2 } : State).books.reserves p.sub +
      (s.broker.fetchFaults.length + s.broker.bindFaults.length) = s.books.reserves p.sub +
        (s.broker.beginFetch.2.fetchFaults.length + s.broker.beginFetch.2.bindFaults.length) :=
    s.books.reserves_broker p.sub s.broker s.broker.beginFetch.2
  obtain ⟨hbind, hbegin⟩ := s.broker.beginFetch_cases
  rw [hbind] at hreserves
  rcases f.firstLook_cases s.now s.broker with ⟨fault, hfault, hlook⟩ | ⟨hnone, hlook⟩
  · -- The fault is used up, which pays for the next round.
    have hused := (hbegin.resolve_right fun h ↦ by simp [hfault] at h).choose_spec.2
    rw [hlook]
    refine comes_fetchStep hp (fun d hd ↦ ?_) (fun cause hcause ↦ ?_) fun hwaiting ↦ ?_
    · simp at hd
    · dsimp only
      split <;> omega
    · simp at hwaiting
  · have hkept := (hbegin.resolve_left fun hfault ↦ by simp [hnone] at hfault).2
    rw [hkept] at hreserves
    rw [hlook]
    refine comes_look 2 hp (by omega) le_rfl fun hdue ↦ ?_
    exact absurd hdue (Nat.not_le.2 hdeadline)

theorem comes_reachStep {due : Nat} (htimed : s.Timed) (hp : s.pullers[n]? = some p)
    (hphase : p.phase = .reaching due) : Comes s n p (s.reachStep n p) := by
  rw [reachStep_eq]
  beta_reduce
  cases hstart : Broker.Fetch.start s.now (s.binding p.sub).toConsumerId (s.fetchTimeout p.sub) with
  | ok f =>
    have hdeadline := Broker.Fetch.lt_deadline_of_start (htimed.fetch p.sub) hstart
    refine Comes.of_note (e := .fetchBegun n) (comes_firstLook hp ?_ hdeadline)
    rw [Books.fuel, hphase]
    rfl
  | error cause =>
    exact .wait (.crashed cause) (puller_setPhase (t := s.giveBackSlot p.sub) _ hp) trivial

/-- A puller that waits for a tick as long as its token is not cancelled. -/
theorem comes_await {due : Nat} (hp : s.pullers[n]? = some p)
    (hlive : ¬s.isCancelled p.token = true) (hdue : ¬due ≤ s.now)
    (hrests : ∀ t : State, t.isCancelled p.token = false ∧ t.now < due → t.Rests p) :
    Comes s n p (s.listen (.cancelled p.token) (.puller n) |>.arm (.puller n) due, .wait) := by
  refine comes_wait ?_ (hrests _ ⟨Bool.eq_false_iff.2 hlive, ?_⟩)
  · rw [books_arm, books_listen]
    exact hp
  · show (s.scheduler.listen _ _).now < _
    rw [Scheduler.now_listen]
    exact Nat.lt_of_not_le hdue

/-- **Every step of a puller has less to spend after it, or the puller rests.** -/
theorem comes_pullerStep (htimed : s.Timed) (hp : s.pullers[n]? = some p) :
    Comes s n p (s.pullerStep n p) := by
  have hgo {phase phase' : Puller.Phase} (hphase : p.phase = phase)
      (hless : Books.span s.now phase' < Books.span s.now phase) : Comes s n p (s.goTo n phase') := by
    refine comes_goTo hp rfl ?_
    rw [Books.fuel, hphase]
    exact Nat.add_lt_add_left hless _
  rw [pullerStep]
  cases hphase : p.phase with
  | fresh =>
    refine comes_goTo ?_ ?_ ?_
    · rw [books_publishFor]
      exact hp
    · rw [books_publishFor]
      rfl
    · rw [books_publishFor, Books.reserves_publishFor, Books.fuel, hphase, Books.span, Books.span]
      omega
  | binding errors => exact comes_bindStep htimed hp hphase
  | rebinding errors due =>
    dsimp only
    split
    · exact hgo hphase (by simp only [Books.span]; split <;> omega)
    · next hlive =>
      split
      · next hdue => exact hgo hphase (by simp only [Books.span, hdue, if_true]; omega)
      · next hdue =>
        refine comes_await hp hlive hdue fun t ht ↦ ?_
        rw [Rests, hphase]
        exact ht
  | head => exact comes_headStep htimed hp hphase
  | crowded due =>
    dsimp only
    split
    · exact hgo hphase (by simp only [Books.span]; split <;> omega)
    · next hlive =>
      split
      · next hdue => exact hgo hphase (by simp only [Books.span, hdue, if_true]; omega)
      · next hdue =>
        refine comes_await hp hlive hdue fun t ht ↦ ?_
        rw [Rests, hphase]
        exact ht
  | reaching due =>
    dsimp only
    split
    · exact comes_reachStep htimed hp hphase
    · next hdue =>
      refine comes_wait hp ?_
      rw [Rests, hphase]
      exact Nat.lt_of_not_le hdue
  | fetching f =>
    refine comes_look 4 hp ?_ (by omega) fun _ ↦ le_rfl
    rw [Books.fuel, hphase, Books.span]
    exact Nat.lt_succ_self _
  | leaving =>
    dsimp only
    split
    · refine .wait .finished (puller_setPhase (t := s.publishFor p.sub _) _ ?_) trivial
      rw [books_publishFor]
      exact hp
    · next hbusy =>
      refine comes_wait ?_ ?_
      · rw [books_listen]
        exact hp
      · rw [Rests, hphase]
        exact of_decide_eq_false (Bool.eq_false_iff.2 hbusy)
  | finished =>
    refine comes_wait hp ?_
    rw [Rests, hphase]
    trivial
  | crashed cause =>
    refine comes_wait hp ?_
    rw [Rests, hphase]
    trivial

/-! ### One turn -/

theorem pullerBudget_eq (s : State) (p : Puller) :
    s.pullerBudget p = 8 + 2 * s.books.reserves p.sub := rfl

/-- With enough steps before it a puller comes to rest. -/
theorem rests_pullerSteps : ∀ (budget : Nat) {s : State} {p : Puller}, s.Timed →
    s.pullers[n]? = some p → s.books.fuel p < budget → ∃ phase,
      (pullerSteps n budget s).pullers[n]? = some { p with phase } ∧
      (pullerSteps n budget s).Rests { p with phase } := by
  intro budget
  induction budget with
  | zero => exact fun _ _ hless ↦ absurd hless (by omega)
  | succ budget ih =>
    intro s p htimed hp hless
    have hcomes := comes_pullerStep htimed hp
    rw [pullerSteps, hp]
    dsimp only
    generalize s.pullerStep n p = step at hcomes
    cases hcomes with
    | @go t phase hsetup hp' hfuel =>
      exact ih (p := { p with phase }) (htimed.of_setup hsetup) hp' (by omega)
    | wait phase hp' hrests => exact ⟨phase, hp', hrests⟩

/-- **At the end of its turn a puller rests.** -/
theorem rests_pullerTurn (htimed : s.Timed) (hp : s.pullers[n]? = some p) : ∃ phase,
    (pullerTurn n s).pullers[n]? = some { p with phase } ∧
    (pullerTurn n s).Rests { p with phase } := by
  have hp' : (s.forget (.puller n)).pullers[n]? = some p := hp
  rw [pullerTurn]
  simp only [hp']
  refine rests_pullerSteps _ (htimed.of_setup rfl) hp' ?_
  have hspan := Books.span_le (s.forget (.puller n)).books.now p.phase
  rw [Books.fuel, pullerBudget_eq]
  omega

end State

/-! ### Where the times come from -/

/-- **The times of a supervisor are positive** if its subscriptions were checked. -/
theorem Plan.timed_of_build {p : Plan} {s : State} (hbuild : p.build = .ok s)
    (hchecked : ∀ x ∈ p.subscriptions, ∃ d : Subscription.Draft, d.build = .ok x) : s.Timed := by
  obtain ⟨hvalid, hretry, hsettings, hsubs⟩ : p.settings.validate = .ok () ∧
      p.settings.bindRetry = .ok s.setup.bindRetry ∧ s.setup.settings = p.settings ∧
      s.setup.subscriptions = p.subscriptions := by
    rw [build] at hbuild
    split at hbuild
    · exact absurd hbuild (by simp)
    · exact absurd hbuild (by simp)
    · next policy hvalid hretry =>
      split at hbuild
      · exact absurd hbuild (by simp)
      · cases hbuild
        exact ⟨hvalid, hretry, rfl, rfl⟩
  obtain ⟨hpoll, hfetch⟩ := Settings.positive_of_validate hvalid
  -- A subscription has a time of its own, which was checked, or that of the settings.
  have hown {time : Subscription → Option Duration} {common : Duration}
      (hcommon : common.isZero = false)
      (htime : ∀ x ∈ p.subscriptions, (time x).any Duration.isZero = false) (sub : Nat) :
      (((s.subscription? sub).bind time).getD common).isZero = false := by
    rw [State.subscription?, hsubs]
    cases hx : p.subscriptions[sub]? with
    | none => exact hcommon
    | some x =>
      have hzero := htime x (List.mem_of_getElem? hx)
      cases hd : time x with
      | none => simpa [hd] using hcommon
      | some d => simpa [hd] using hzero
  refine ⟨hown (hsettings ▸ hpoll) fun x hx ↦ ?_, hown (hsettings ▸ hfetch) fun x hx ↦ ?_,
    Settings.verdict_binding hretry⟩
  · obtain ⟨d, hd⟩ := hchecked x hx
    exact (Subscription.Draft.positive_of_build hd).1
  · obtain ⟨d, hd⟩ := hchecked x hx
    exact (Subscription.Draft.positive_of_build hd).2

/-- **Every turn of a puller ends with a puller that rests**, in whatever state it is made. -/
theorem Runs.rests {allowed : State → Move → Prop} {p : Plan} {s t : State}
    (hbuild : p.build = .ok s)
    (hchecked : ∀ x ∈ p.subscriptions, ∃ d : Subscription.Draft, d.build = .ok x)
    (hrun : Runs allowed s t) {n : Nat} {q : Puller} (hq : t.pullers[n]? = some q) : ∃ phase,
    (State.pullerTurn n t).pullers[n]? = some { q with phase } ∧
    (State.pullerTurn n t).Rests { q with phase } :=
  State.rests_pullerTurn ((Plan.timed_of_build hbuild hchecked).of_setup hrun.setup_eq) hq

end Supervisor

end PullConsumer
