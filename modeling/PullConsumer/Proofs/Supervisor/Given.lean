import PullConsumer.Proofs.Broker.Lines
import PullConsumer.Proofs.Supervisor.CutOff
import PullConsumer.Proofs.Supervisor.Files
import PullConsumer.Proofs.Supervisor.Pools

/-!
# What a subscription is given

A puller that is given a delivery begins a job for it. The deliveries that the pullers of a
subscription are given, one after the other, each with the number of its job, are what the
subscription is given along a run (`State.given`).

Two things are shown of it. The journal tells of the same jobs in the same order
(`State.filed_after`), whoever moves in between. And the broker hands out the deliveries from the
line of one consumer: what the subscription is given, and then what still waits, is what waited
before and then what was published (`State.line_given`), as long as nothing is redelivered and the
consumer is not declared again. No two subscriptions have the same consumer, and a fetch that waits
keeps the consumer that it was begun for (`State.Aimed`), so that nobody else of the supervisor
takes from that line.
-/

namespace PullConsumer.Supervisor

open Broker (Operation along handed handedTo)

/-- A move in which a delivery may come or go: a puller fetches, someone supplies the broker, or a
stranger meddles with it. -/
def Move.trades : Move → Bool
  | pull _ => true
  | supply _ => true
  | meddle _ => true
  | _ => false

/-! ### Whoever uses the broker -/

/-- The broker has been used in any way but to supply it, and has handed out some deliveries. -/
def Consults (b b' : Broker) (flights : List Flight) : Prop :=
  ∃ ops, b' = b.after ops ∧ along handed b ops = flights ∧ ∀ op ∈ ops, ∀ x, op ≠ .supply x

namespace Consults

variable {b b' b'' : Broker} {flights more : List Flight}

theorem refl (b : Broker) : Consults b b [] := ⟨[], rfl, rfl, fun _ hop ↦ absurd hop List.not_mem_nil⟩

theorem single (op : Operation) (hop : ∀ x, op ≠ .supply x) :
    Consults b (b.operate op) (b.handed op) :=
  ⟨[op], rfl, List.append_nil _, fun _ h ↦ List.mem_singleton.1 h ▸ hop⟩

theorem trans (h : Consults b b' flights) (h' : Consults b' b'' more) :
    Consults b b'' (flights ++ more) := by
  obtain ⟨ops, rfl, hhanded, hops⟩ := h
  obtain ⟨ops', rfl, hhanded', hops'⟩ := h'
  refine ⟨ops ++ ops', (b.after_append ..).symm, ?_, ?_⟩
  · rw [Broker.along_append, hhanded, hhanded']
  · exact fun op hop ↦ (List.mem_append.1 hop).elim (hops op) (hops' op)

/-- To settle is to be handed out nothing. -/
theorem of_settles {ops : List Operation} (h : ∀ op ∈ ops, ∃ h x, op = .settle h x) :
    Consults b (b.after ops) [] := by
  induction ops generalizing b with
  | nil => exact refl b
  | cons op rest ih =>
    rw [List.forall_mem_cons] at h
    obtain ⟨⟨handle, x, rfl⟩, hrest⟩ := h
    exact (single (.settle handle x) fun _ ↦ by simp).trans (ih hrest)

end Consults

/-- What is handed out with the answer to a fetch. -/
def flightsOf (c : ConsumerId) : Option (Except BrokerError Delivery) → List Flight
  | some (.ok d) => [⟨c, d⟩]
  | _ => []

theorem consults_look (f : Broker.Fetch) (now : Nat) (b : Broker) :
    Consults b (f.look now b).2 (flightsOf f.consumer (f.look now b).1.answer?) := by
  have hhanded : b.handed (.look f now) = flightsOf f.consumer (f.look now b).1.answer? := by
    rw [handed]
    generalize (f.look now b).1 = progress
    rcases progress with - | (cause | d) <;> rfl
  rw [← hhanded]
  exact .single (.look f now) fun _ ↦ by simp

theorem consults_firstLook (f : Broker.Fetch) (now : Nat) (b : Broker) :
    Consults b (f.firstLook now b).2 (flightsOf f.consumer (f.firstLook now b).1.answer?) := by
  have hask : Consults b b.beginFetch.2 [] := .single .ask fun _ ↦ by simp
  rcases f.firstLook_cases now b with ⟨fault, -, hlook⟩ | ⟨-, hlook⟩
  · rw [hlook]
    exact hask
  · rw [hlook]
    exact hask.trans (consults_look ..)

/-! ### A step of a puller -/

/-- What a step of a puller that fetches for `c` has to do with deliveries: the one that it is given
comes from the broker and gets a job, and a fetch that goes on is for `c`. -/
structure Draws (b : Books) (n : Nat) (c : ConsumerId)
    (answer : Option (Except BrokerError Delivery)) (b' : Books) : Prop where
  begun : b'.begun = b.begun ++ (flightsOf c answer).map fun _ ↦ (n, b.jobsBegun)
  consults : Consults b.broker b'.broker (flightsOf c answer)
  aims : ∀ q f, b'.pullers[n]? = some q → q.phase = .fetching f → f.consumer = c

namespace State

variable {s t : State} {n : Nat} {p : Puller} {c : ConsumerId}

/-- A puller that comes to a phase, whatever was done before. -/
theorem draws_setPhase {b u : Books} {answer : Option (Except BrokerError Delivery)}
    {phase : Puller.Phase}
    (hbegun : u.begun = b.begun ++ (flightsOf c answer).map fun _ ↦ (n, b.jobsBegun))
    (hconsults : Consults b.broker u.broker (flightsOf c answer))
    (haims : ∀ f, phase = .fetching f → f.consumer = c) : Draws b n c answer (u.setPhase n phase) where
  begun := hbegun
  consults := hconsults
  aims q f hq hphase := by
    rw [Books.setPhase, List.getElem?_modify_eq] at hq
    obtain ⟨q', -, rfl⟩ := Option.map_eq_some_iff.1 hq
    exact haims f hphase

/-- A step that comes to a phase and is given nothing. -/
theorem draws_idle {b u : Books} {answer : Option (Except BrokerError Delivery)}
    {phase : Puller.Phase} (hanswer : flightsOf c answer = []) (hdoings : u.doings = b.doings)
    (hconsults : Consults b.broker u.broker []) (hphase : phase.holdsSlot = false) :
    Draws b n c answer (u.setPhase n phase) := by
  refine draws_setPhase ?_ (hanswer ▸ hconsults) fun f hf ↦ ?_
  · rw [Books.begun_of_doings hdoings, hanswer]
    exact (List.append_nil _).symm
  · exact absurd hphase (by simp [hf, Puller.Phase.holdsSlot])

theorem draws_bindStep (errors : List String) :
    Draws s.books n c none (s.bindStep n p errors).1.books := by
  obtain ⟨answer, x, htry, hconsults⟩ : ∃ answer x, s.tryBind p = (answer, { s with broker := x }) ∧
      Consults s.broker x [] := by
    rw [tryBind]
    split
    · exact ⟨_, _, rfl, .single (.bind _) fun _ ↦ by simp⟩
    · exact ⟨_, _, rfl, .refl _⟩
  rw [bindStep]
  simp only [htry]
  cases answer with
  | ok _ =>
    rw [books_goTo, books_publishFor]
    exact draws_idle rfl (Books.doings_publishFor ..) hconsults rfl
  | error cause =>
    have hgo {phase : Puller.Phase} (hphase : phase.holdsSlot = false) :
        Draws s.books n c none (goTo { s with broker := x } n phase).1.books :=
      draws_idle (u := { s.books with broker := x }) rfl rfl hconsults hphase
    dsimp only
    split
    · split
      · exact hgo rfl
      · split
        · exact hgo rfl
        · exact hgo rfl
    · split
      · exact hgo rfl
      · simp only [books_goTo, books_reportFatal, books_publishFor, books_measure]
        refine draws_idle rfl ?_ hconsults rfl
        exact (Books.doings_note_of_none rfl).trans (Books.doings_publishFor ..)

theorem draws_headStep : Draws s.books n c none (s.headStep n p).1.books := by
  rw [headStep]
  split
  · exact draws_idle rfl rfl (.refl _) rfl
  · set t := (s.note (.gauge p.sub (s.inUse p.sub))).measure p.sub (.concurrency (s.inUse p.sub))
      with ht
    have hbooks : t.books = ((s.books.note (.gauge p.sub (s.inUse p.sub))).measure p.sub
        (.concurrency (s.inUse p.sub))) := by simp [ht]
    have hdoings : t.books.doings = s.books.doings := by
      rw [hbooks]
      exact Books.doings_note_of_none rfl
    have hconsults : Consults s.books.broker t.books.broker [] := by
      rw [hbooks]
      exact .refl _
    dsimp only
    split
    · next u htake =>
      obtain ⟨pool, pool', -, -, rfl⟩ := takeSlot?_eq_some htake
      refine draws_setPhase (u := { t.books with slots := t.slots.set p.sub pool' }) ?_ hconsults
        fun f hf ↦ absurd hf (by simp)
      exact (Books.begun_of_doings hdoings).trans (List.append_nil _).symm
    · exact draws_idle rfl hdoings hconsults rfl

theorem draws_fetchStep {f : Broker.Fetch} {found : Broker.Fetch.Progress × Broker}
    (hconsults : Consults s.broker found.2 (flightsOf f.consumer found.1.answer?)) :
    Draws s.books n f.consumer found.1.answer? (s.fetchStep n p f found).1.books := by
  obtain ⟨progress, x⟩ := found
  rw [fetchStep]
  cases progress with
  | waiting =>
    simp only [books_arm, books_listen, books_setPhase]
    refine draws_setPhase (u := { s.books with broker := x }) (List.append_nil _).symm hconsults
      fun g hg ↦ ?_
    rw [Puller.Phase.fetching.inj hg]
  | finished answer =>
    cases answer with
    | ok d =>
      simp only [books_goTo, books_startJob]
      exact draws_setPhase (Books.begun_beginJob { s.books with broker := x } n p d) hconsults
        fun g hg ↦ absurd hg (by simp)
    | error cause =>
      cases cause with
      | timeout d =>
        simp only [books_goTo, books_giveBackSlot]
        exact draws_idle (b := s.books) (u := Books.giveBack { s.books with broker := x } p.sub) rfl
          rfl hconsults rfl
      | _ =>
        simp only [books_goTo, books_reportFatal, books_publishFor, books_measure,
          books_giveBackSlot]
        refine draws_idle (b := s.books) rfl ?_ hconsults rfl
        exact (Books.doings_note_of_none rfl).trans (Books.doings_publishFor ..)

/-- To note the begin of a fetch is to begin no job. -/
theorem Draws.of_note {b b' : Books} {e : Entry} {answer : Option (Except BrokerError Delivery)}
    (h : Draws (b.note e) n c answer b') (he : e.job? = none) : Draws b n c answer b' where
  begun := h.begun.trans (by rw [Books.begun_of_doings (Books.doings_note_of_none he)]; rfl)
  consults := h.consults
  aims := h.aims

theorem draws_reachStep (hc : (s.binding p.sub).toConsumerId = c) :
    Draws s.books n c (s.reachAnswer? p) (s.reachStep n p).1.books := by
  rw [reachStep_eq, reachAnswer?_eq]
  beta_reduce
  cases hstart : Broker.Fetch.start s.now (s.binding p.sub).toConsumerId (s.fetchTimeout p.sub) with
  | ok f =>
    have hf : f.consumer = c := by
      rw [Broker.Fetch.start_eq] at hstart
      beta_reduce at hstart
      split at hstart
      · rw [← Except.ok.inj hstart]
        exact hc
      · exact absurd hstart (by simp)
    have hdraws := draws_fetchStep (s := s.note (.fetchBegun n)) (n := n) (p := p)
      (consults_firstLook f s.now s.broker)
    rw [hf] at hdraws
    exact Draws.of_note hdraws rfl
  | error cause =>
    simp only [books_notify, books_setPhase, books_giveBackSlot]
    exact draws_idle (u := s.books.giveBack p.sub) rfl rfl (.refl _) rfl

/-- **A step of a puller, as far as deliveries are concerned.** -/
theorem draws_pullerStep (hp : s.pullers[n]? = some p) (hc : (s.binding p.sub).toConsumerId = c)
    (haim : ∀ f, p.phase = .fetching f → f.consumer = c) :
    Draws s.books n c (s.fetchAnswer? p) (s.pullerStep n p).1.books := by
  have hgo {phase : Puller.Phase} (hphase : phase.holdsSlot = false) :
      Draws s.books n c none (s.goTo n phase).1.books := draws_idle rfl rfl (.refl _) hphase
  have hwait {u : State} (hbooks : u.books = s.books) : Draws s.books n c none u.books := by
    rw [hbooks]
    refine ⟨(List.append_nil _).symm, .refl _, fun q f hq hphase ↦ ?_⟩
    obtain rfl : p = q := Option.some.inj (hp.symm.trans hq)
    exact haim f hphase
  rw [pullerStep, fetchAnswer?]
  cases hphase : p.phase with
  | fresh =>
    rw [books_goTo, books_publishFor]
    exact draws_idle rfl (Books.doings_publishFor ..) (.refl _) rfl
  | binding errors => exact draws_bindStep errors
  | rebinding errors due =>
    dsimp only
    split
    · exact hgo rfl
    · split
      · exact hgo rfl
      · exact hwait (by rw [books_arm, books_listen])
  | head => exact draws_headStep
  | crowded due =>
    dsimp only
    split
    · exact hgo rfl
    · split
      · exact hgo rfl
      · exact hwait (by rw [books_arm, books_listen])
  | reaching due =>
    dsimp only
    split
    · exact draws_reachStep hc
    · exact hwait rfl
  | fetching f =>
    obtain rfl := haim f hphase
    exact draws_fetchStep (consults_look f s.now s.broker)
  | leaving =>
    dsimp only
    split
    · simp only [books_notify, books_setPhase, books_publishFor]
      exact draws_idle rfl (Books.doings_publishFor ..) (.refl _) rfl
    · exact hwait (books_listen ..)
  | finished => exact hwait rfl
  | crashed cause => exact hwait rfl

/-! ### What a move does about deliveries -/

/-- Every fetch that waits is for the consumer of the subscription that its puller serves. -/
def Aimed (s : State) : Prop :=
  ∀ (n : Nat) (p : Puller) (f : Broker.Fetch), s.pullers[n]? = some p →
    p.phase = .fetching f → f.consumer = (s.binding p.sub).toConsumerId

theorem binding_move (s : State) (m : Move) (sub : Nat) :
    (s.move m).binding sub = s.binding sub := by
  rw [binding, subscription?, setup_move, binding, subscription?]

theorem draws_move (h : s.Aimed) (hp : s.pullers[n]? = some p) :
    Draws s.books n (s.binding p.sub).toConsumerId (s.fetchAnswer? p)
      (s.move (.pull n)).books :=
  move_pull hp ▸ draws_pullerStep hp rfl fun f hf ↦ h n p f hp hf

/-- A puller keeps its subscription. -/
theorem seat_move {sub : Nat} (h : s.books.seats[n]? = some sub) (m : Move) :
    (s.move m).books.seats[n]? = some sub := by
  rw [Books.seats, List.getElem?_map] at h ⊢
  obtain ⟨p, hp, rfl⟩ := Option.map_eq_some_iff.1 h
  by_cases hm : m = .pull n
  · subst hm
    obtain ⟨⟨phase, entries, -, hstrode, -⟩, -⟩ := strides_move hp
    rw [hstrode.puller hp]
    rfl
  · rcases s.puller_of_move hm with hsame | ⟨hnone, -⟩
    · show ((s.move m).pullers[n]?).map Puller.sub = _
      rw [hsame]
      exact h
    · exact absurd (hp.symm.trans hnone) (by simp)

/-- **Fetches stay with their consumers**, whoever moves. -/
theorem Aimed.move (h : s.Aimed) (m : Move) : (s.move m).Aimed := by
  intro i q f hq hphase
  rw [binding_move]
  by_cases hm : m = .pull i
  · subst hm
    cases hp : s.pullers[i]? with
    | none =>
      have hmove : s.move (.pull i) = s := by rw [State.move, hp]
      rw [hmove, hp] at hq
      exact absurd hq (by simp)
    | some p =>
      obtain ⟨⟨phase, entries, -, hstrode, -⟩, -⟩ := strides_move hp
      have hsub : q.sub = p.sub := by
        rw [← Option.some.inj ((hstrode.puller hp).symm.trans hq)]
      rw [hsub]
      exact (draws_move h hp).aims q f hq hphase
  · rcases s.puller_of_move hm with hsame | ⟨-, q', hq', hfresh⟩
    · exact h i q f (hsame ▸ hq) hphase
    · obtain rfl : q' = q := Option.some.inj (hq'.symm.trans hq)
      exact absurd (hfresh.symm.trans hphase) (by simp)

/-- **In no other move does a delivery come or go**: no job is begun, and at most the broker is asked
to settle. -/
theorem settles_move {m : Move} (hm : m.trades = false) :
    (s.move m).jobsBegun = s.jobsBegun ∧ Consults s.broker (s.move m).broker [] := by
  have hsame {t : State} (hbegun : t.jobsBegun = s.jobsBegun) (hbroker : t.broker = s.broker) :
      t.jobsBegun = s.jobsBegun ∧ Consults s.broker t.broker [] := ⟨hbegun, hbroker ▸ .refl _⟩
  have hbooks {b : Books} (h : (s.move m).books = b) (hbegun : b.jobsBegun = s.jobsBegun)
      (hbroker : b.broker = s.broker) :=
    hsame ((congrArg Books.jobsBegun h).trans hbegun) ((congrArg Books.broker h).trans hbroker)
  by_cases huser : m.isOfUser = true
  · rcases s.user_cases huser with h | h | ⟨x, rfl⟩ | ⟨b, rfl⟩ | ⟨x, looks, roused, rfl⟩
    · exact hbooks h rfl rfl
    · obtain ⟨token, reporter, h⟩ := h.books
      exact hbooks h rfl rfl
    · exact absurd hm (by simp [Move.trades])
    · exact absurd hm (by simp [Move.trades])
    · exact hsame rfl rfl
  · cases m with
    | pull n => exact absurd hm (by simp [Move.trades])
    | work k =>
      rcases jobTurn_cases s k with ⟨hturn, -⟩ | ⟨j, -, -, hworks⟩
      · exact hbooks ((congrArg books hturn).trans rfl) rfl rfl
      · obtain ⟨ops, hbroker, hops⟩ := hworks.settles
        exact ⟨hworks.begun, hbroker ▸ .of_settles hops⟩
    | listen => exact hbooks (watches_listenerTurn s).books rfl rfl
    | observe n => exact hbooks (watches_observerTurn s n).books rfl rfl
    | pursue n =>
      cases hc : s.calls[n]? with
      | none => exact hbooks (congrArg books (by rw [State.move, hc])) rfl rfl
      | some c =>
        obtain ⟨c', taken, left, entries, -, hpursued⟩ := pursues_move hc
        exact hbooks hpursued.books rfl rfl
    | _ => exact absurd rfl huser

/-! ### What a subscription is given -/

/-- The delivery that a subscription is given in a move, after the number of its job. -/
def given? (s : State) (sub : Nat) : Move → Option (Nat × Delivery)
  | .pull n =>
    match s.pullers[n]? with
    | some p =>
      match s.fetchAnswer? p with
      | some (.ok d) => if p.sub = sub then some (s.jobsBegun, d) else none
      | _ => none
    | none => none
  | _ => none

/-- What a subscription is given along a run, the first one first. -/
def given (s : State) (sub : Nat) (moves : List Move) : List (Nat × Delivery) :=
  (s.steps moves).filterMap fun x ↦ x.1.given? sub x.2

/-- What is put into the line of a consumer in a move by those who supply the broker. -/
def lines (s : State) (c : ConsumerId) : Move → List Delivery
  | .supply x => Broker.entering c s.broker (.supply x)
  | _ => []

/-- What is put into the line of a consumer along a run. -/
def lined (s : State) (c : ConsumerId) (moves : List Move) : List Delivery :=
  (s.steps moves).flatMap fun x ↦ x.1.lines c x.2

variable {m : Move} {moves : List Move} {sub : Nat}

theorem given_append (s : State) (sub : Nat) (moves more : List Move) :
    s.given sub (moves ++ more) = s.given sub moves ++ (s.after moves).given sub more := by
  rw [given, steps_append, List.filterMap_append, given, given]

theorem given_concat (s : State) (sub : Nat) (moves : List Move) (m : Move) :
    s.given sub (moves ++ [m]) = s.given sub moves ++ ((s.after moves).given? sub m).toList := by
  rw [given_append]
  cases h : (s.after moves).given? sub m <;> simp [given, steps, h]

theorem lined_concat (s : State) (c : ConsumerId) (moves : List Move) (m : Move) :
    s.lined c (moves ++ [m]) = s.lined c moves ++ (s.after moves).lines c m := by
  rw [lined, steps_concat, List.flatMap_append, ← lined, List.flatMap_singleton]

/-- What a puller is given is a delivery for its subscription. -/
theorem toList_given?_pull (hp : s.pullers[n]? = some p) (c : ConsumerId) :
    (s.given? sub (.pull n)).toList = if p.sub = sub then
      (flightsOf c (s.fetchAnswer? p)).map fun x ↦ (s.jobsBegun, x.delivery) else [] := by
  simp only [given?, hp]
  rcases s.fetchAnswer? p with - | (cause | d)
  · exact (ite_self _).symm
  · exact (ite_self _).symm
  · dsimp only
    split
    · rfl
    · rfl

/-- **What a subscription is given is what its pullers have begun jobs for.** -/
theorem filed_move (hrecorded : s.books.Recorded) (h : s.Aimed) (sub : Nat) (m : Move) :
    (s.move m).books.filed sub = s.books.filed sub ++ (s.given? sub m).toList.map (·.1) := by
  have hold := Books.filter_begun hrecorded (fun _ _ hseat ↦ seat_move hseat m) sub
  have hnone (hbegun : (s.move m).books.begun = s.books.begun) (hgiven : s.given? sub m = none) :
      (s.move m).books.filed sub = s.books.filed sub ++ (s.given? sub m).toList.map (·.1) := by
    rw [Books.filed, hbegun, hold, hgiven]
    exact (List.append_nil _).symm
  have hmove (hcount : (s.move m).jobsBegun = s.jobsBegun) : (s.move m).books.begun = s.books.begun := by
    rcases s.move_cases m with hdeeds | ⟨-, phases, hstarts⟩ | ⟨b, -, hmeddle⟩
    · exact Books.begun_eq hdeeds hcount
    · obtain ⟨token, reporter, hspawn⟩ := hstarts.spawned
      rw [hspawn]
      rfl
    · rw [hmeddle]
      rfl
  cases m with
  | pull n =>
    cases hp : s.pullers[n]? with
    | none =>
      refine hnone ?_ (by rw [given?, hp])
      rw [State.move, hp]
    | some p =>
      have hseat : s.books.seats[n]? = some p.sub := by
        rw [Books.seats, List.getElem?_map]
        exact congrArg (Option.map Puller.sub) hp
      have hnumber : s.books.jobsBegun = s.jobsBegun := rfl
      rw [Books.filed, (draws_move h hp).begun, List.filter_append, hold, List.map_append,
        ← Books.filed, toList_given?_pull hp (s.binding p.sub).toConsumerId, List.filter_map,
        List.map_map]
      congr 1
      by_cases hsub : p.sub = sub <;>
        simp [hsub, seat_move hseat, hnumber, Function.comp_def]
  | supply x => exact hnone (hmove rfl) rfl
  | meddle b => exact hnone (hmove rfl) rfl
  | _ => exact hnone (hmove (settles_move rfl).1) rfl

/-! ### The line that it is given from -/

theorem handedTo_flightsOf (c c' : ConsumerId) (answer : Option (Except BrokerError Delivery)) :
    handedTo c (flightsOf c' answer) =
      if c' = c then (flightsOf c' answer).map (·.delivery) else [] := by
  rcases answer with - | (cause | d)
  · exact (ite_self _).symm
  · exact (ite_self _).symm
  · by_cases h : c' = c <;> simp [flightsOf, handedTo, h]

/-- A move keeps a line in order: it does not declare the consumer again, and a stranger who makes
it supplies nothing. -/
def Orderly (s : State) (c : ConsumerId) : Move → Prop
  | .supply x => ∀ again, x ≠ .declare c again
  | .meddle b => ∃ flights, Consults s.broker b flights
  | _ => True

/-- Whoever consults a broker that does not redeliver takes from the fronts of its lines. -/
theorem line_consults {b b' : Broker} {flights : List Flight} (h : Consults b b' flights)
    (hnot : b.redelivers = false) (c : ConsumerId) :
    b'.redelivers = false ∧ handedTo c flights ++ b'.line c = b.line c := by
  obtain ⟨ops, rfl, rfl, hops⟩ := h
  exact ⟨(Broker.redelivers_after ..).trans hnot, Broker.line_after hnot hops c⟩

/-- A puller takes from the line of a subscription only if it serves that subscription. -/
theorem line_pull (hrecorded : s.books.Recorded) (h : s.Aimed)
    (hnot : s.broker.redelivers = false) (hc : (s.binding sub).toConsumerId = c)
    (hdistinct : ∀ other < s.setup.subscriptions.length,
      (s.binding other).toConsumerId = c → other = sub) (n : Nat) :
    (s.move (.pull n)).broker.redelivers = false ∧
      (s.given? sub (.pull n)).toList.map (·.2) ++ (s.move (.pull n)).broker.line c =
        s.broker.line c := by
  cases hp : s.pullers[n]? with
  | none =>
    have hmove : s.move (.pull n) = s := by rw [State.move, hp]
    rw [hmove, given?, hp]
    exact ⟨hnot, rfl⟩
  | some p =>
    obtain ⟨hredelivers, hline⟩ := line_consults (draws_move h hp).consults hnot c
    have hplaced : p.sub < s.setup.subscriptions.length :=
      hrecorded.seated p.sub (List.mem_map_of_mem (List.mem_of_getElem? hp))
    have hsub : (s.binding p.sub).toConsumerId = c ↔ p.sub = sub := by
      constructor
      · exact hdistinct p.sub hplaced
      · rintro rfl
        exact hc
    rw [handedTo_flightsOf] at hline
    simp only [hsub] at hline
    refine ⟨hredelivers, ?_⟩
    rw [toList_given?_pull hp (s.binding p.sub).toConsumerId]
    refine (congrArg (· ++ _) ?_).trans hline
    by_cases hown : p.sub = sub <;> simp [hown]

/-- **The equation of a move**: what the subscription is given, and then what waits, is what waited,
and then what is supplied. A stranger may take the first of what waits. -/
theorem line_move (hrecorded : s.books.Recorded) (h : s.Aimed)
    (hnot : s.broker.redelivers = false) (hc : (s.binding sub).toConsumerId = c)
    (hdistinct : ∀ other < s.setup.subscriptions.length,
      (s.binding other).toConsumerId = c → other = sub) (hm : s.Orderly c m) :
    (s.move m).broker.redelivers = false ∧
    ((s.given? sub m).toList.map (·.2) ++ (s.move m).broker.line c =
        s.broker.line c ++ s.lines c m ∨
      m.isOwn = false ∧ s.given? sub m = none ∧ s.lines c m = [] ∧
        (s.move m).broker.line c <:+ s.broker.line c) := by
  have hkeep (hm : m.trades = false) (hgiven : s.given? sub m = none) (hlines : s.lines c m = []) :
      (s.move m).broker.redelivers = false ∧ ((s.given? sub m).toList.map (·.2) ++
        (s.move m).broker.line c = s.broker.line c ++ s.lines c m ∨ m.isOwn = false ∧
          s.given? sub m = none ∧ s.lines c m = [] ∧
            (s.move m).broker.line c <:+ s.broker.line c) := by
    obtain ⟨hredelivers, hline⟩ := line_consults (settles_move hm).2 hnot c
    refine ⟨hredelivers, Or.inl ?_⟩
    rw [hgiven, hlines, List.append_nil]
    exact hline
  cases m with
  | pull n =>
    obtain ⟨hredelivers, hline⟩ := line_pull hrecorded h hnot hc hdistinct n
    exact ⟨hredelivers, Or.inl (hline.trans (List.append_nil _).symm)⟩
  | supply x =>
    refine ⟨(Broker.redelivers_supply ..).trans hnot, Or.inl ?_⟩
    exact Broker.line_operate (b := s.broker) fun again heq ↦ hm again (Operation.supply.inj heq)
  | meddle b =>
    obtain ⟨flights, hflights⟩ := hm
    obtain ⟨hredelivers, hline⟩ := line_consults hflights hnot c
    exact ⟨hredelivers, Or.inr ⟨rfl, rfl, rfl, _, hline⟩⟩
  | _ => exact hkeep rfl rfl rfl

end State

/-! ### Along a run -/

namespace State

variable {plan : Plan} {s : State} {sub : Nat} {x : Subscription}

theorem binding_after (hbuild : plan.build = .ok s) (hx : plan.subscriptions[sub]? = some x)
    (moves : List Move) : (s.after moves).binding sub = x.binding := by
  have hsubs := ((Runs.of_moves s moves).setup_of_build hbuild).1
  rw [binding, subscription?, hsubs, hx]
  rfl

theorem consumer_inj (hbuild : plan.build = .ok s) (hx : plan.subscriptions[sub]? = some x)
    (moves : List Move) : ∀ other < (s.after moves).setup.subscriptions.length,
      ((s.after moves).binding other).toConsumerId = x.binding.toConsumerId → other = sub := by
  intro other hother heq
  rw [((Runs.of_moves s moves).setup_of_build hbuild).1] at hother
  have hy := List.getElem?_eq_getElem hother
  rw [binding_after hbuild hy] at heq
  obtain ⟨setup, slots, hpools, -⟩ := Plan.of_build hbuild
  obtain ⟨-, -, hapart, -⟩ := Plan.pools_eq_ok_iff.1 hpools
  have hnodup := Subscription.apart_iff_nodup.1 hapart
  refine (List.getElem?_inj (by simpa using hother) hnodup).1 ?_
  rw [List.getElem?_map, List.getElem?_map, hy, hx]
  exact congrArg some heq

/-- Fetches stay with their consumers all along a run. -/
theorem aimed_after (hbuild : plan.build = .ok s) (moves : List Move) : (s.after moves).Aimed := by
  induction moves using List.reverseRecOn with
  | nil =>
    obtain ⟨setup, slots, -, -, -, -, hbooks, -⟩ := Plan.of_build hbuild
    have hpullers : s.pullers = [] := congrArg Books.pullers hbooks
    intro n p f hp
    rw [after_nil, hpullers] at hp
    exact absurd hp (by simp)
  | append_singleton moves m ih =>
    rw [after_concat]
    exact ih.move m

/-- **What a subscription is given along a run has the jobs that its pullers have begun**, in the
same order. -/
theorem filed_after (hbuild : plan.build = .ok s) (sub : Nat) (moves : List Move) :
    (s.after moves).books.filed sub = (s.given sub moves).map (·.1) := by
  induction moves using List.reverseRecOn with
  | nil =>
    obtain ⟨setup, slots, -, -, -, -, hbooks, -⟩ := Plan.of_build hbuild
    rw [after_nil, hbooks]
    rfl
  | append_singleton moves m ih =>
    have hrecorded := (Runs.of_moves s moves).recorded hbuild
    rw [after_concat, filed_move hrecorded (aimed_after hbuild moves), ih, given_concat,
      List.map_append]

/-- **What a subscription is given comes from the line of its consumer**: with what still waits it
is what waited before and what was supplied, in this order. It is all of that if no strangers take
from the line, and a part of it if they do. -/
theorem line_given (hbuild : plan.build = .ok s) (hx : plan.subscriptions[sub]? = some x)
    (before : List Move) (hnot : (s.after before).broker.redelivers = false) {rest : List Move}
    (horderly : ∀ y ∈ (s.after before).steps rest, y.1.Orderly x.binding.toConsumerId y.2) :
    (((s.after before).given sub rest).map (·.2) ++
        ((s.after before).after rest).broker.line x.binding.toConsumerId).Sublist
      ((s.after before).broker.line x.binding.toConsumerId ++
        (s.after before).lined x.binding.toConsumerId rest) ∧
    ((∀ m ∈ rest, m.isOwn = true) → ((s.after before).given sub rest).map (·.2) ++
        ((s.after before).after rest).broker.line x.binding.toConsumerId =
      (s.after before).broker.line x.binding.toConsumerId ++
        (s.after before).lined x.binding.toConsumerId rest) := by
  suffices h : ((s.after before).after rest).broker.redelivers = false ∧ _ from h.2
  induction rest using List.reverseRecOn with
  | nil =>
    have hsame : [] ++ (s.after before).broker.line x.binding.toConsumerId =
      (s.after before).broker.line x.binding.toConsumerId ++ [] := (List.append_nil _).symm
    exact ⟨hnot, hsame ▸ List.Sublist.refl _, fun _ ↦ hsame⟩
  | append_singleton rest m ih =>
    rw [steps_concat, List.forall_mem_append, List.forall_mem_singleton] at horderly
    obtain ⟨hredelivers, hpart, hwhole⟩ := ih horderly.1
    have hmoves := s.after_append before rest
    have hstep := line_move (hmoves ▸ (Runs.of_moves s (before ++ rest)).recorded hbuild)
      (hmoves ▸ aimed_after hbuild (before ++ rest)) hredelivers
      (congrArg Binding.toConsumerId (hmoves ▸ binding_after hbuild hx (before ++ rest)))
      (hmoves ▸ consumer_inj hbuild hx (before ++ rest)) horderly.2
    obtain ⟨hredelivers', hline⟩ := hstep
    rw [after_concat, given_concat, lined_concat, List.map_append, List.append_assoc,
      ← List.append_assoc ((s.after before).broker.line _)]
    refine ⟨hredelivers', ?_, fun hown ↦ ?_⟩
    · rcases hline with hline | ⟨-, hgiven, hlines, hsuffix⟩
      · rw [hline, ← List.append_assoc]
        exact hpart.append (List.Sublist.refl _)
      · rw [hgiven, hlines, List.append_nil]
        exact ((List.Sublist.refl _).append hsuffix.sublist).trans hpart
    · rw [List.forall_mem_append, List.forall_mem_singleton] at hown
      rcases hline with hline | ⟨hstranger, -⟩
      · rw [hline, ← List.append_assoc, hwhole hown.1]
      · exact absurd (hown.2.symm.trans hstranger) (by decide)

end State

end PullConsumer.Supervisor
