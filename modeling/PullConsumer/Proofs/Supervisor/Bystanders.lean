import PullConsumer.Proofs.Broker.Traffic
import PullConsumer.Proofs.Supervisor.Ledger
import PullConsumer.Proofs.Supervisor.Strides

/-!
# What jobs and observers leave alone

A turn of a job touches its delivery, its slot and the meters, asks the broker to settle, and tells
the world what became of one message (`Works`). The listener and the observers touch their queues, and tell the world of
observers that did not keep up (`Watches`). Neither comes near the tokens, the calls or the pullers.

Both relations are closed under going on, so each function of the program is followed once, change
by change.
-/

namespace PullConsumer.Supervisor

/-- An entry that tells of the handling of messages under a binding. -/
def Entry.IsOfHandling (x : Binding) (e : Entry) : Prop :=
  ∃ event : Event, isOfHandling event.kind = true ∧ e = .published (event.withBinding x)

/-- An entry that tells of the health of an observer. -/
def Entry.IsOfHealth (e : Entry) : Prop :=
  ∃ event : Event, isOfHealth event.kind = true ∧ e = .published event

/-! ### Jobs -/

/-- What a job may make of a state. -/
structure Works (j : Job) (s t : State) : Prop where
  setup : t.setup = s.setup
  pullers : t.pullers = s.pullers
  tokens : t.tokens = s.tokens
  calls : t.calls = s.calls
  /-- No job is added, and none is given to another puller. -/
  jobs : ∀ i ∈ t.jobs, ∃ k ∈ s.jobs, k.number = i.number ∧ k.puller = i.puller
  begun : t.jobsBegun = s.jobsBegun
  /-- Of the broker nothing is asked but to settle. -/
  settles : ∃ ops, t.broker = s.broker.after ops ∧ ∀ op ∈ ops, ∃ h x, op = .settle h x
  told : ∃ entries, told t.journal = told s.journal ++ entries ∧
    ∀ e ∈ entries, e.IsOfHandling (s.setup.binding j.sub)
  /-- Jobs begin no fetch. -/
  askers : askers t.journal = askers s.journal
  /-- Errors of the broker are not counted by jobs. -/
  errors : ∀ l (cause : BrokerError), t.books.errors l cause.label = s.books.errors l cause.label

namespace Works

variable {j : Job} {s t u : State}

theorem refl (j : Job) (s : State) : Works j s s where
  setup := rfl
  pullers := rfl
  tokens := rfl
  calls := rfl
  jobs i hi := ⟨i, hi, rfl, rfl⟩
  begun := rfl
  settles := ⟨[], rfl, fun _ hop ↦ absurd hop List.not_mem_nil⟩
  told := ⟨[], (List.append_nil _).symm, fun _ he ↦ absurd he List.not_mem_nil⟩
  askers := rfl
  errors _ _ := rfl

theorem trans (h : Works j s t) (h' : Works j t u) : Works j s u where
  setup := h'.setup.trans h.setup
  pullers := h'.pullers.trans h.pullers
  tokens := h'.tokens.trans h.tokens
  calls := h'.calls.trans h.calls
  jobs i hi := by
    obtain ⟨k, hk, hnumber, hpuller⟩ := h'.jobs i hi
    obtain ⟨k', hk', hnumber', hpuller'⟩ := h.jobs k hk
    exact ⟨k', hk', hnumber'.trans hnumber, hpuller'.trans hpuller⟩
  begun := h'.begun.trans h.begun
  settles := by
    obtain ⟨ops, hbroker, hops⟩ := h.settles
    obtain ⟨more, hbroker', hmore⟩ := h'.settles
    refine ⟨ops ++ more, by rw [hbroker', hbroker, Broker.after_append], ?_⟩
    exact fun op hop ↦ (List.mem_append.1 hop).elim (hops op) (hmore op)
  told := by
    obtain ⟨entries, htold, hentries⟩ := h.told
    obtain ⟨more, htold', hmore⟩ := h'.told
    rw [h.setup] at hmore
    refine ⟨entries ++ more, by rw [htold', htold, List.append_assoc], ?_⟩
    exact fun e he ↦ (List.mem_append.1 he).elim (hentries e) (hmore e)
  askers := h'.askers.trans h.askers
  errors l cause := (h'.errors l cause).trans (h.errors l cause)

/-- Another job may be meant, as long as it serves the same subscription. -/
theorem of_sub {k : Job} (h : Works k s t) (hsub : k.sub = j.sub) : Works j s t :=
  { h with told := hsub ▸ h.told }

/-! #### One change -/

theorem note {e : Entry} (he : e.isTold = false) (hasker : e.asker? = none) :
    Works j s (s.note e) :=
  { refl j s with
    told := ⟨[], (s.books.told_note e).trans (by simp [he]; rfl),
      fun _ h ↦ absurd h List.not_mem_nil⟩
    askers := List.filterMap_cons_none hasker }

theorem measure {m : Measurement} (hm : ∀ cause : BrokerError, m ≠ .error cause.label) :
    Works j s (s.measure j.sub m) := by
  have hbooks := State.books_measure s j.sub m
  have hweight (cause : BrokerError) : (Counter.errors cause.label).weight m = 0 := by
    cases m with
    | error kind => exact if_neg fun h ↦ hm cause (congrArg Measurement.error h)
    | _ => rfl
  refine {
    setup := congrArg Books.setup hbooks
    pullers := congrArg Books.pullers hbooks
    tokens := State.tokens_measure ..
    calls := State.calls_measure ..
    jobs := fun i hi ↦ ⟨i, ?_, rfl, rfl⟩
    begun := congrArg Books.jobsBegun hbooks
    settles := ⟨[], congrArg Books.broker hbooks, fun _ hop ↦ absurd hop List.not_mem_nil⟩
    told := ⟨[], ?_, fun _ h ↦ absurd h List.not_mem_nil⟩
    askers := congrArg (fun b : Books ↦ Supervisor.askers b.journal) hbooks
    errors := fun l cause ↦ ?_ }
  · rwa [show (s.measure j.sub m).jobs = s.jobs from congrArg Books.jobs hbooks] at hi
  · rw [List.append_nil]
    exact congrArg (fun b : Books ↦ Supervisor.told b.journal) hbooks
  · rw [hbooks, Books.errors_measure, hweight, ite_self, Nat.add_zero]

/-- A mishap of a job is no error of the broker. -/
theorem measure_mishap (x : Mishap) : Works j s (s.measure j.sub (.error x.label)) :=
  measure fun cause h ↦ x.label_ne cause (Measurement.error.inj h).symm

theorem publishFor {e : Event} (he : isOfHandling e.kind = true) :
    Works j s (s.publishFor j.sub e) :=
  { refl j s with told := ⟨[.published (e.withBinding (s.setup.binding j.sub))],
      s.books.told_publishFor j.sub e, fun _ h ↦ List.mem_singleton.1 h ▸ ⟨e, he, rfl⟩⟩ }

/-- Jobs are changed in their phases and counts, or put away. -/
theorem ofJobs {jobs : List Job} {slots : List Slots} {scheduler : Scheduler Task Signal}
    (h : ∀ i ∈ jobs, ∃ k ∈ s.jobs, k.number = i.number ∧ k.puller = i.puller) :
    Works j s { s with jobs, slots, scheduler } :=
  { refl j s with jobs := h }

theorem change {n : Nat} {f : Job → Job} {scheduler : Scheduler Task Signal}
    (hf : ∀ i, (f i).number = i.number ∧ (f i).puller = i.puller) : Works j s { s with
      jobs := s.jobs.map fun i ↦ if i.number = n then f i else i, scheduler } := by
  refine ofJobs fun i hi ↦ ?_
  obtain ⟨k, hk, rfl⟩ := List.mem_map.1 hi
  refine ⟨k, hk, ?_⟩
  split
  · exact ⟨(hf k).1.symm, (hf k).2.symm⟩
  · exact ⟨rfl, rfl⟩

/-- Waiting and waking are nothing that is looked at. -/
theorem aside {scheduler : Scheduler Task Signal} {counts : List ((Nat × String) × Nat)} :
    Works j s { s with scheduler, counts } :=
  { refl j s with }

/-- The broker is asked to settle, which may wake others. -/
theorem settle (h : Handle) (x : Settlement) {scheduler : Scheduler Task Signal} :
    Works j s { s with broker := (s.broker.settle h x).broker, scheduler } :=
  { refl j s with settles := ⟨[.settle h x], rfl, fun _ hop ↦ ⟨h, x, List.mem_singleton.1 hop⟩⟩ }

end Works

namespace State

variable {s : State} {j : Job}

/-! ### The turn of a job -/

theorem works_finishJob : Works j s (s.finishJob j) :=
  Works.ofJobs fun i hi ↦ ⟨i, (List.mem_filter.1 hi).1, rfl, rfl⟩

theorem works_settlementFailed (x : Settlement) (reason : String) :
    Works j s (s.settlementFailed j x reason) := by
  obtain ⟨kind, hkind, hfailure⟩ := Mishap.settlementFailure_eq x
  rw [settlementFailed, hfailure]
  have hnote : Works j s (s.note (.settled j.number j.delivery.handle x (some reason))) :=
    .note rfl rfl
  exact (hnote.trans (.measure_mishap _)).trans (.publishFor (Mishap.isOfHandling_of_kind? hkind).1)

theorem works_settleNow (outcome : Outcome) : Works j s (s.settleNow j outcome) := by
  have hbroker : Works j s (if (s.broker.settle j.delivery.handle outcome.settlement).requeued then
      { s with broker := (s.broker.settle j.delivery.handle outcome.settlement).broker }.notify
        .arrival
      else { s with broker := (s.broker.settle j.delivery.handle outcome.settlement).broker }) := by
    split
    · exact .settle ..
    · exact .settle ..
  have hnote {t : State} (failure : Option String) : Works j t (t.note (.settled j.number
      j.delivery.handle outcome.settlement failure)) := .note rfl rfl
  rw [settleNow]
  dsimp only
  split
  · exact hbroker.trans (works_settlementFailed ..)
  · split
    · exact hbroker.trans (hnote none)
    · exact (hbroker.trans (hnote none)).trans (.publishFor rfl)

theorem works_settleStep (outcome : Outcome) (answerDue : Nat) (giveUpDue : Option Nat) :
    Works j s (s.settleStep j outcome answerDue giveUpDue) := by
  rw [settleStep]
  split
  · exact (works_settleNow outcome).trans works_finishJob
  · split
    · exact (works_settlementFailed ..).trans works_finishJob
    · exact .change fun _ ↦ ⟨rfl, rfl⟩

theorem works_handled (r : HandlerResult) : Works j s (s.handled j r) := by
  have hend : Works j s ((s.note (.ended j.number j.sub j.delivery.message j.count r)).measure j.sub
      .processed) :=
    (Works.note rfl rfl).trans (.measure fun _ ↦ by simp)
  have hfailure {t : State} {x : Mishap} {kind : EventKind} (reason : String)
      (hkind : x.kind? = some kind) : Works j t ((t.measure j.sub (.error x.label)).publishFor j.sub
        ((Event.of kind).withReason reason)) :=
    (Works.measure_mishap x).trans (.publishFor (Mishap.isOfHandling_of_kind? hkind).1)
  unfold handled
  dsimp only
  refine Works.trans ?_ (works_settleStep ..)
  rcases Mishap.failureOf_cases r with ⟨-, hr, -⟩ | ⟨reason, -, -, hr⟩ |
    ⟨x, kind, reason, -, -, -, -, hkind, -, hr⟩
  · rw [hr]
    exact hend
  · rw [hr]
    exact hend.trans (hfailure (x := .transient) reason rfl)
  · rw [hr]
    exact hend.trans (hfailure reason hkind)

theorem works_actOn (plan : List Handler.Act) : Works j s (s.actOn j plan) := by
  rw [actOn]
  split
  · exact works_handled _
  · exact .change fun _ ↦ ⟨rfl, rfl⟩
  · exact .change fun _ ↦ ⟨rfl, rfl⟩

theorem works_recordLag : Works j s (s.recordLag j) := by
  have hunknown : Works j s (s.measure j.sub (.error timeUnknownLabel)) :=
    .measure_mishap .time
  unfold recordLag
  dsimp only
  split
  · split
    · exact .measure fun _ ↦ by simp
    · exact hunknown
  · exact hunknown

theorem works_callHandler : Works j s (s.callHandler j) := by
  rw [callHandler]
  have hcount {t : State} (text : String) : Works j t (t.countText j.sub text).2 := .aside
  have hnote {t : State} (count : Nat) : Works j t (t.note (.started j.number j.sub
      j.delivery.message count)) := .note rfl rfl
  have hchange {t : State} (count : Nat) : Works j t { t with
      jobs := t.jobs.map fun k : Job ↦ if k.number = j.number then { k with count } else k } :=
    .change fun _ ↦ ⟨rfl, rfl⟩
  have hact {t : State} (count : Nat) (plan : List Handler.Act) :
      Works j t (t.actOn { j with count } plan) := (works_actOn plan).of_sub rfl
  exact (((works_recordLag.trans (hcount _)).trans (hnote _)).trans (hchange _)).trans (hact _ _)

/-- **The turn of a job that is there concerns nobody else**; there is no turn of any other job. -/
theorem jobTurn_cases (s : State) (n : Nat) :
    (s.jobTurn n = s.forget (.job n) ∧ ∀ j ∈ s.jobs, j.number ≠ n) ∨
    ∃ j ∈ s.jobs, j.number = n ∧ Works j s (s.jobTurn n) := by
  unfold jobTurn
  dsimp only
  split
  · next hnone =>
    exact Or.inl ⟨rfl, fun j hj ↦ by simpa using List.find?_eq_none.1 hnone j hj⟩
  · next j hfind =>
    have hj : j ∈ s.jobs := List.mem_of_find?_eq_some hfind
    refine Or.inr ⟨j, hj, by simpa using List.find?_some hfind, ?_⟩
    have hforget : Works j s (s.forget (.job n)) := .aside
    refine hforget.trans ?_
    split
    · exact works_callHandler
    · split
      · exact works_actOn _
      · exact .aside
    · split
      · exact works_actOn _
      · exact .aside
    · exact works_settleStep ..

end State

/-! ### The listener and the observers -/

/-- What the listener and the observers may make of a state. -/
structure Watches (s t : State) : Prop where
  books : t.books = { s.books with journal := t.journal }
  tokens : t.tokens = s.tokens
  calls : t.calls = s.calls
  told : ∃ entries, told t.journal = told s.journal ++ entries ∧ ∀ e ∈ entries, e.IsOfHealth
  askers : askers t.journal = askers s.journal

namespace Watches

variable {s t u : State}

theorem of_books (hbooks : t.books = s.books) (htokens : t.tokens = s.tokens)
    (hcalls : t.calls = s.calls) : Watches s t where
  books := by
    rw [show t.journal = s.journal from congrArg Books.journal hbooks, hbooks]
    rfl
  tokens := htokens
  calls := hcalls
  told := by
    rw [show t.journal = s.journal from congrArg Books.journal hbooks]
    exact ⟨[], (List.append_nil _).symm, fun _ he ↦ absurd he List.not_mem_nil⟩
  askers := congrArg (fun b : Books ↦ Supervisor.askers b.journal) hbooks

theorem refl (s : State) : Watches s s := of_books rfl rfl rfl

theorem trans (h : Watches s t) (h' : Watches t u) : Watches s u where
  books := by rw [h'.books, h.books]
  tokens := h'.tokens.trans h.tokens
  calls := h'.calls.trans h.calls
  told := by
    obtain ⟨entries, htold, hentries⟩ := h.told
    obtain ⟨more, htold', hmore⟩ := h'.told
    refine ⟨entries ++ more, by rw [htold', htold, List.append_assoc], ?_⟩
    exact fun e he ↦ (List.mem_append.1 he).elim (hentries e) (hmore e)
  askers := h'.askers.trans h.askers

theorem publish {e : Event} (he : isOfHealth e.kind = true) : Watches s (s.publish e) where
  books := s.books_publish e
  tokens := rfl
  calls := rfl
  told := ⟨[.published e], s.books.told_note (.published e),
    fun _ h ↦ ⟨e, he, List.mem_singleton.1 h⟩⟩
  askers := rfl

theorem publishAll {es : List Event} (h : ∀ e ∈ es, isOfHealth e.kind = true) (s : State) :
    Watches s (s.publishAll es) := by
  induction es generalizing s with
  | nil => exact refl s
  | cons e rest ih =>
    rw [List.forall_mem_cons] at h
    exact (publish h.1).trans (ih h.2 _)

theorem notifyAll (ks : List Nat) (s : State) :
    Watches s (ks.foldl (fun s k ↦ s.notify (.queued k)) s) := by
  induction ks generalizing s with
  | nil => exact refl s
  | cons k rest ih => exact (of_books (s.books_notify (.queued k)) rfl rfl).trans (ih _)

end Watches

namespace State

variable {s : State}

theorem watches_emit (e : Event) : Watches s (s.emit e) := by
  have hrefusals (refused : List (String × Observer.Refused)) :
      ∀ report ∈ Observer.refusals e refused, isOfHealth report.kind = true :=
    fun _ ↦ isOfHealth_refusals
  have hoffer (channels : List Observer.Channel) : Watches s { s with channels } :=
    .of_books rfl rfl rfl
  rw [emit]
  exact ((hoffer _).trans (.notifyAll ..)).trans (.publishAll (hrefusals _) _)

theorem watches_stopListening (s : State) : Watches s s.stopListening :=
  (Watches.of_books (s := s) (t := { s with
    listening := none, channels := s.channels.map fun c ↦ { c with closed := true } })
      rfl rfl rfl).trans (.notifyAll ..)

theorem watches_readRing (budget position : Nat) (s : State) :
    Watches s (readRing budget position s) := by
  induction budget generalizing position s with
  | zero => exact .of_books (books_wake _ _) rfl rfl
  | succ budget ih =>
    have hlisten (next : Nat) : Watches s { s with listening := some next } :=
      .of_books rfl rfl rfl
    rw [readRing]
    split
    · next e next _ =>
      exact ((hlisten next).trans (watches_emit e)).trans (ih ..)
    · next next _ => exact (hlisten next).trans (ih ..)
    · next next _ =>
      refine (hlisten next).trans ?_
      dsimp only
      split
      · exact watches_stopListening _
      · exact .of_books (books_listen ..) rfl rfl

theorem watches_listenerTurn (s : State) : Watches s s.listenerTurn := by
  have hforget : Watches s (s.forget .listener) := .of_books rfl rfl rfl
  unfold listenerTurn
  dsimp only
  split
  · exact hforget.trans (watches_readRing ..)
  · exact hforget

theorem watches_observerTurn (s : State) (n : Nat) : Watches s (s.observerTurn n) := by
  have hforget : Watches s (s.forget (.observer n)) := .of_books rfl rfl rfl
  rw [observerTurn]
  refine hforget.trans ?_
  dsimp only
  split
  · exact .refl _
  · next c _ =>
    have hreports : ∀ report ∈ (c.work (s.forget (.observer n)).now).2,
        isOfHealth report.kind = true := fun _ ↦ isOfHealth_work
    have hwork := (Watches.of_books (s := s.forget (.observer n))
      (t := { s.forget (.observer n) with
        channels := (s.forget (.observer n)).channels.set n (c.work (s.forget (.observer n)).now).1 })
        rfl rfl rfl).trans (.publishAll hreports _)
    split
    · exact hwork.trans (.of_books (books_arm ..) rfl rfl)
    · exact hwork.trans (.of_books (books_listen ..) rfl rfl)

end State

end PullConsumer.Supervisor
