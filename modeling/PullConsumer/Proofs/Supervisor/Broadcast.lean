import PullConsumer.Proofs.Supervisor.Records

/-!
# What is put on the ring

The ring, the listener and the queues of the observers concern nobody else: pullers, jobs, calls and
the user put events on the ring, and that is all they do to them. The `Broadcast` of a state is what
the listener and the observers work with, together with all the events that were ever published.
Every move but theirs publishes some events there and changes nothing else of it
(`State.announces_move`), and none of these events is about the health of an observer.
-/

namespace PullConsumer.Supervisor

/-- The event of an entry, if one was published. -/
def Entry.event? : Entry → Option Event
  | published e => some e
  | _ => none

/-- What the listener and the observers work with, and the events published so far, in order. -/
structure Broadcast where
  ring : Event.Ring Event
  listening : Option Nat
  channels : List Observer.Channel
  events : List Event

namespace Broadcast

/-- Publishes an event. -/
def publish (b : Broadcast) (e : Event) : Broadcast :=
  { b with ring := b.ring.send e, events := b.events ++ [e] }

/-- Publishes some events, one after the other. -/
def publishAll (b : Broadcast) (es : List Event) : Broadcast := es.foldl publish b

theorem publishAll_append (b : Broadcast) (es more : List Event) :
    b.publishAll (es ++ more) = (b.publishAll es).publishAll more :=
  List.foldl_append

theorem events_publishAll (b : Broadcast) (es : List Event) :
    (b.publishAll es).events = b.events ++ es := by
  induction es generalizing b with
  | nil => exact (List.append_nil _).symm
  | cons e rest ih => exact (ih (b.publish e)).trans (List.append_assoc ..)

@[simp] theorem channels_publishAll (b : Broadcast) (es : List Event) :
    (b.publishAll es).channels = b.channels := by
  induction es generalizing b with
  | nil => rfl
  | cons e rest ih => exact ih (b.publish e)

@[simp] theorem listening_publishAll (b : Broadcast) (es : List Event) :
    (b.publishAll es).listening = b.listening := by
  induction es generalizing b with
  | nil => rfl
  | cons e rest ih => exact ih (b.publish e)

end Broadcast

/-- Some events are published, none of them about the health of an observer. -/
def Announces (a b : Broadcast) : Prop :=
  ∃ es, (∀ e ∈ es, isOfHealth e.kind = false) ∧ b = a.publishAll es

namespace Announces

variable {a b c : Broadcast}

theorem refl (a : Broadcast) : Announces a a := ⟨[], fun _ he ↦ absurd he List.not_mem_nil, rfl⟩

theorem of_eq (h : b = a) : Announces a b := h ▸ refl a

theorem trans (h : Announces a b) (h' : Announces b c) : Announces a c := by
  obtain ⟨es, hes, rfl⟩ := h
  obtain ⟨more, hmore, rfl⟩ := h'
  exact ⟨es ++ more, fun e he ↦ (List.mem_append.1 he).elim (hes e) (hmore e),
    (a.publishAll_append es more).symm⟩

theorem single (a : Broadcast) {e : Event} (he : isOfHealth e.kind = false) :
    Announces a (a.publish e) :=
  ⟨[e], fun _ h ↦ List.mem_singleton.1 h ▸ he, rfl⟩

end Announces

namespace State

variable {s : State} {n : Nat}

/-- The events published so far, in order. -/
def events (s : State) : List Event := (s.journal.filterMap fun x ↦ x.2.event?).reverse

def broadcast (s : State) : Broadcast where
  ring := s.ring
  listening := s.listening
  channels := s.channels
  events := s.events

/-! ### Small changes -/

theorem broadcast_note (s : State) {e : Entry} (he : e.event? = none) :
    (s.note e).broadcast = s.broadcast := by
  have hevents : (s.note e).events = s.events := by
    show (((s.now, e) :: s.journal).filterMap fun x ↦ x.2.event?).reverse = _
    rw [List.filterMap_cons_none (f := fun x : Nat × Entry ↦ x.2.event?) (a := (s.now, e)) he]
    rfl
  exact congrArg (fun es ↦ { s.broadcast with events := es }) hevents

theorem broadcast_publish (s : State) (e : Event) :
    (s.publish e).broadcast = s.broadcast.publish e := by
  have hevents : (s.publish e).events = s.events ++ [e] := by
    show (((s.now, Entry.published e) :: s.journal).filterMap fun x ↦ x.2.event?).reverse = _
    rw [List.filterMap_cons_some (by rfl), List.reverse_cons]
    rfl
  exact congrArg (fun es ↦ { s.broadcast with ring := s.ring.send e, events := es }) hevents

theorem broadcast_publishAll (s : State) (es : List Event) :
    (s.publishAll es).broadcast = s.broadcast.publishAll es := by
  induction es generalizing s with
  | nil => rfl
  | cons e rest ih =>
    show ((s.publish e).publishAll rest).broadcast = (s.broadcast.publish e).publishAll rest
    rw [ih, broadcast_publish]

theorem announces_publish (s : State) {e : Event} (he : isOfHealth e.kind = false) :
    Announces s.broadcast (s.publish e).broadcast := by
  rw [broadcast_publish]
  exact .single _ he

theorem announces_publishFor (s : State) (sub : Nat) {e : Event} (he : isOfHealth e.kind = false) :
    Announces s.broadcast (s.publishFor sub e).broadcast :=
  s.announces_publish (e := e.withBinding (s.binding sub)) he

@[simp] theorem broadcast_measure (s : State) (sub : Nat) (m : Measurement) :
    (s.measure sub m).broadcast = s.broadcast := by
  rw [measure]
  split <;> rfl

theorem broadcast_cancel (s : State) (token : Nat) : (s.cancel token).broadcast = s.broadcast := by
  have key (ns : List Nat) (s : State) :
      (ns.foldl (fun s n ↦ { s with tokens := s.tokens.modify n fun t ↦
        { t with cancelled := true } }.notify (.cancelled n)) s).broadcast = s.broadcast := by
    induction ns generalizing s with
    | nil => rfl
    | cons n rest ih => exact ih _
  exact key _ s

/-! ### Pullers -/

theorem broadcast_reportFatal (s : State) (n : Nat) (p : Puller) (cause : BrokerError) :
    (s.reportFatal n p cause).broadcast = s.broadcast := by
  have hnote : (s.note (.fatal n cause)).broadcast = s.broadcast := s.broadcast_note rfl
  rw [reportFatal]
  split
  · exact hnote
  · exact hnote

/-- A puller that fails reports it once on the ring, and otherwise beside it. -/
theorem announces_fatal (s : State) (n : Nat) (p : Puller) (cause : BrokerError) {e : Event}
    (he : isOfHealth e.kind = false) :
    Announces s.broadcast ((((s.measure p.sub (.error cause.label)).publishFor p.sub e).reportFatal
      n p cause).goTo n .leaving).1.broadcast := by
  have h := announces_publishFor (s.measure p.sub (.error cause.label)) p.sub he
  rw [broadcast_measure] at h
  exact h.trans (.of_eq (broadcast_reportFatal ..))

theorem announces_bindStep (s : State) (n : Nat) (p : Puller) (errors : List String) :
    Announces s.broadcast (s.bindStep n p errors).1.broadcast := by
  have htry : (s.tryBind p).2.broadcast = s.broadcast := by
    rw [tryBind]
    split <;> rfl
  rw [bindStep, ← htry]
  dsimp only
  split
  · exact announces_publishFor _ p.sub rfl
  · split
    · split
      · exact .refl _
      · split <;> exact .refl _
    · split
      · exact .refl _
      · exact announces_fatal (s.tryBind p).2 n p _ rfl

theorem broadcast_headStep (s : State) (n : Nat) (p : Puller) :
    (s.headStep n p).1.broadcast = s.broadcast := by
  have hnote : ((s.note (.gauge p.sub (s.inUse p.sub))).measure p.sub
      (.concurrency (s.inUse p.sub))).broadcast = s.broadcast := by
    rw [broadcast_measure]
    exact s.broadcast_note rfl
  rw [headStep]
  split
  · rfl
  · dsimp only
    split
    · next t htake =>
      obtain ⟨pool, pool', -, -, rfl⟩ := takeSlot?_eq_some htake
      exact hnote
    · exact hnote

theorem announces_fetchStep (s : State) (n : Nat) (p : Puller) (f : Broker.Fetch)
    (found : Broker.Fetch.Progress × Broker) :
    Announces s.broadcast (s.fetchStep n p f found).1.broadcast := by
  rw [fetchStep]
  dsimp only
  split
  · exact .refl _
  · next d _ =>
    exact .of_eq (broadcast_note (s := { s with broker := found.2 })
      (e := .fetched n s.jobsBegun d.handle) rfl)
  · exact .refl _
  · next cause _ _ =>
    have hback : ({ s with broker := found.2 }.giveBackSlot p.sub).broadcast = s.broadcast := rfl
    rw [← hback]
    exact announces_fatal _ n p cause rfl

/-- **A step of a puller.** -/
theorem announces_pullerStep (s : State) (n : Nat) (p : Puller) :
    Announces s.broadcast (s.pullerStep n p).1.broadcast := by
  rw [pullerStep]
  split
  · exact announces_publishFor s p.sub rfl
  · exact announces_bindStep ..
  · split
    · exact .refl _
    · split <;> exact .refl _
  · exact .of_eq (broadcast_headStep ..)
  · split
    · exact .refl _
    · split <;> exact .refl _
  · split
    · rcases reachStep_cases s n p with ⟨f, hstep⟩ | ⟨cause, hstep⟩
      · rw [hstep, ← s.broadcast_note (e := .fetchBegun n) rfl]
        exact announces_fetchStep ..
      · rw [hstep]
        exact .refl _
    · exact .refl _
  · exact announces_fetchStep ..
  · split
    · exact announces_publishFor s p.sub rfl
    · exact .refl _
  · exact .refl _
  · exact .refl _

/-! ### Jobs -/

theorem announces_settlementFailed (s : State) (j : Job) (x : Settlement) (reason : String) :
    Announces s.broadcast (s.settlementFailed j x reason).broadcast := by
  have hkind : isOfHealth (settlementFailure x).2 = false := by cases x <;> rfl
  rw [settlementFailed]
  have h := announces_publishFor ((s.note (.settled j.number j.delivery.handle x
    (some reason))).measure j.sub (.error (settlementFailure x).1)) j.sub
    (e := (Event.of (settlementFailure x).2).withReason reason) hkind
  rw [broadcast_measure, broadcast_note s rfl] at h
  exact h

theorem announces_settleNow (s : State) (j : Job) (outcome : Outcome) :
    Announces s.broadcast (s.settleNow j outcome).broadcast := by
  rw [settleNow]
  dsimp only
  generalize s.broker.settle j.delivery.handle outcome.settlement = answer
  have hanswered : (if answer.requeued = true then
      { s with broker := answer.broker }.notify .arrival
      else { s with broker := answer.broker }).broadcast = s.broadcast := by
    split <;> rfl
  rw [← hanswered]
  generalize (if answer.requeued = true then
      { s with broker := answer.broker }.notify .arrival
      else { s with broker := answer.broker }) = t
  split
  · exact announces_settlementFailed ..
  · rw [← t.broadcast_note (e := .settled j.number j.delivery.handle outcome.settlement none) rfl]
    split
    · exact .refl _
    · exact announces_publishFor _ j.sub rfl

theorem announces_settleStep (s : State) (j : Job) (outcome : Outcome) (answerDue : Nat)
    (giveUpDue : Option Nat) :
    Announces s.broadcast (s.settleStep j outcome answerDue giveUpDue).broadcast := by
  rw [settleStep]
  split
  · exact announces_settleNow s j outcome
  · split
    · exact announces_settlementFailed ..
    · exact .refl _

theorem announces_handled (s : State) (j : Job) (r : HandlerResult) :
    Announces s.broadcast (s.handled j r).broadcast := by
  rw [handled]
  generalize hnoted : (s.note (.ended j.number j.sub j.delivery.message j.count r)).measure j.sub
    .processed = t
  have ht : t.broadcast = s.broadcast := by
    rw [← hnoted, broadcast_measure]
    exact s.broadcast_note rfl
  rw [← ht]
  refine Announces.trans ?_ (announces_settleStep ..)
  split
  · next label kind reason hfailure =>
    have hkind : isOfHealth kind = false := by
      cases r with
      | ok => exact absurd hfailure (by simp [failureOf])
      | failed e =>
        obtain ⟨-, rfl, -⟩ := by simpa [failureOf] using hfailure
        cases e.isTransient <;> rfl
      | panicked p =>
        obtain ⟨-, rfl, -⟩ := by simpa [failureOf] using hfailure
        rfl
    have h := announces_publishFor (t.measure j.sub (.error label)) j.sub
      (e := (Event.of kind).withReason reason) hkind
    rwa [broadcast_measure] at h
  · exact .refl _

theorem announces_actOn (s : State) (j : Job) (plan : List Handler.Act) :
    Announces s.broadcast (s.actOn j plan).broadcast := by
  rw [actOn]
  split
  · exact announces_handled ..
  · exact .refl _
  · exact .refl _

theorem announces_callHandler (s : State) (j : Job) :
    Announces s.broadcast (s.callHandler j).broadcast := by
  have hlag : (s.recordLag j).broadcast = s.broadcast := by
    unfold recordLag
    dsimp only
    split
    · split <;> exact broadcast_measure ..
    · exact broadcast_measure ..
  rw [callHandler]
  refine Announces.trans (.of_eq ?_) (announces_actOn ..)
  exact ((s.recordLag j).countText j.sub j.delivery.message.text).2.broadcast_note rfl |>.trans hlag

/-- **The turn of a job.** -/
theorem announces_jobTurn (s : State) (n : Nat) :
    Announces s.broadcast (s.jobTurn n).broadcast := by
  have hforget : (s.forget (.job n)).broadcast = s.broadcast := rfl
  rw [jobTurn, ← hforget]
  generalize s.forget (.job n) = t
  split
  · exact .refl _
  · split
    · exact announces_callHandler ..
    · split
      · exact announces_actOn ..
      · exact .refl _
    · split
      · exact announces_actOn ..
      · exact .refl _
    · exact announces_settleStep ..

/-! ### Calls and the user -/

theorem broadcast_leaveLine (s : State) (n : Nat) :
    (s.leaveLine n).hangUp.broadcast = s.broadcast := by
  rw [leaveLine]
  dsimp only
  split <;> rfl

theorem announces_takeOver (s : State) (reason : Option String) :
    Announces s.broadcast (s.takeOver reason).broadcast := by
  rw [takeOver]
  split
  · exact .refl _
  · next r _ =>
    have hstopping (t : State) (ns : List Nat) :
        State.broadcast { t with running := none, stopping := ns } = t.broadcast := rfl
    dsimp only
    rw [hstopping, broadcast_cancel]
    cases reason <;> exact announces_publish s rfl

theorem announces_waitDraining (s : State) (n : Nat) (c : Call) (x : Signal) :
    Announces s.broadcast (s.waitDraining n c x).1.broadcast := by
  have hlisten : (s.listen x .user).broadcast = s.broadcast := rfl
  rw [waitDraining, ← hlisten]
  generalize s.listen x .user = t
  dsimp only
  split
  · exact .refl _
  · split
    · refine Announces.trans ?_ (.of_eq (broadcast_leaveLine ..))
      exact announces_publish t rfl
    · exact .refl _

/-- **A step of a call.** -/
theorem announces_callStep (s : State) (n : Nat) (c : Call) :
    Announces s.broadcast (s.callStep n c).1.broadcast := by
  rw [callStep]
  split
  · split <;> exact .refl _
  · split
    · exact announces_takeOver s c.reason
    · exact .refl _
  · split
    · exact .refl _
    · split
      · exact .refl _
      · exact announces_waitDraining s n c _
  · split
    · split
      · exact .refl _
      · exact announces_waitDraining s n c _
    · refine Announces.trans ?_ (.of_eq (broadcast_leaveLine ..))
      exact announces_publish s rfl
  · exact .refl _
  · exact .refl _

theorem broadcast_spawnPullers (s : State) (token : Nat) (reporter : Reporter)
    (first left : Nat) : (s.spawnPullers token reporter first left).broadcast = s.broadcast := by
  induction left generalizing s first with
  | zero => rfl
  | succ left ih => exact ih _ _

theorem broadcast_start (s : State) (parent : Nat) (reporter : Reporter) :
    (s.start parent reporter).2.broadcast = s.broadcast := by
  rw [start]
  split
  · rfl
  · exact broadcast_spawnPullers (s.newToken (some parent)).2 ..

theorem broadcast_enterRun (s : State) (patience : Option Nat) :
    (s.enterRun patience).broadcast = s.broadcast := by
  have hstart := broadcast_start (s.newToken none).2 (s.newToken none).1 (.call s.calls.length)
  rw [enterRun]
  dsimp only
  split
  · rfl
  · next t heq =>
    rw [heq] at hstart
    exact hstart

/-! ### Moves -/

end State

/-- The moves of the listener and the observers. -/
def Move.isOfWatcher : Move → Bool
  | listen => true
  | observe _ => true
  | _ => false

namespace State

/-- **Nobody but the listener and the observers does more to the broadcast than to publish**, and
what others publish is not about the health of observers. -/
theorem announces_move (s : State) {m : Move} (hm : m.isOfWatcher = false) :
    Announces s.broadcast (s.move m).broadcast := by
  cases m with
  | listen => exact absurd hm (by simp [Move.isOfWatcher])
  | observe n => exact absurd hm (by simp [Move.isOfWatcher])
  | pull n =>
    rw [move]
    split
    · exact announces_pullerStep ..
    · exact .refl _
  | work n => exact announces_jobTurn s n
  | pursue n =>
    rw [move]
    split
    · exact announces_callStep ..
    · exact .refl _
  | giveUp n =>
    rw [move]
    split
    · exact .refl _
    · exact .of_eq (broadcast_leaveLine ..)
  | start parent => exact .of_eq (broadcast_start s parent .callback)
  | callStop patience => exact .refl _
  | callRun patience => exact .of_eq (broadcast_enterRun s patience)
  | interrupt name => exact .refl _
  | newToken parent => exact .refl _
  | cancel token => exact .of_eq (broadcast_cancel s token)
  | abandon => exact .refl _
  | supply x => exact .refl _
  | meddle x => exact .refl _
  | pass x looks roused => exact .refl _

end State

end PullConsumer.Supervisor
