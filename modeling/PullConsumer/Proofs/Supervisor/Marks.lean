import Mathlib.Order.WithBot
import PullConsumer.Proofs.Supervisor.Records

/-!
# What a job leaves behind

Whatever a job does that others can see is a mark: a measurement, an entry of the journal, an event,
a settlement at the broker, its slot that goes back. What a mark means is what it makes of the books
(`Books.leave`).

Which marks a job leaves is told by tables over the four ways in which a handler can end and the
three in which a settlement can (`reports`, `Job.closing`). They are written down once more on
purpose: the program sorts the result of a handler twice, for what is reported and for how to
settle, and the second time by way of an outcome in which a panic and a fatal failure are the same.

That a job goes by the tables is shown step by step (`Job.Step`): it calls its handler, waits, takes
note of the end of the handler, and ends with its settlement. A turn is a chain of such steps, and
at least one is taken in every turn of a job that has nothing to wait for (`State.turn_jobTurn`).

A settlement that is given up has not come to the broker, so there is no mark at the broker then.
-/

namespace PullConsumer

/-- Why a message is to be tried again. -/
def HandlerResult.retryReason? : HandlerResult → Option String
  | failed (.transient reason) => some reason
  | _ => none

/-- A delivery goes back exactly if its message is to be tried again. -/
def HandlerResult.settlement (r : HandlerResult) : Settlement :=
  if r.retryReason?.isSome then .nack else .ack

theorem Outcome.exists_ofResult (o : Outcome) : ∃ r, o = .ofResult r := by
  cases o with
  | success => exact ⟨.ok, rfl⟩
  | transientFailure reason => exact ⟨.failed (.transient reason), rfl⟩
  | fatalFailure reason => exact ⟨.failed (.fatal reason), rfl⟩

theorem Outcome.settlement_ofResult (r : HandlerResult) :
    (Outcome.ofResult r).settlement = r.settlement := by
  rcases r with _ | (_ | _) | _ <;> rfl

namespace Supervisor

/-- Something that a job does for others to see. -/
inductive Mark where
  /-- A measurement is recorded under the label of its subscription. -/
  | measured (m : Measurement)
  | noted (e : Entry)
  /-- An event about its subscription is published. -/
  | told (kind : EventKind) (reason : String)
  /-- The broker is asked to settle a delivery. -/
  | asked (h : Handle) (x : Settlement)
  | gaveBack
  deriving DecidableEq

namespace Books

/-- What a mark of a job makes of the books. -/
def leave (b : Books) (sub : Nat) : Mark → Books
  | .measured m => b.measure sub m
  | .noted e => b.note e
  | .told kind reason => b.publishFor sub ((Event.of kind).withReason reason)
  | .asked h x => { b with broker := (b.broker.settle h x).broker }
  | .gaveBack => b.giveBack sub

/-- What some marks make of the books, one after the other. -/
def leaveAll (b : Books) (sub : Nat) (marks : List Mark) : Books :=
  marks.foldl (fun b mark ↦ b.leave sub mark) b

/-- Another job takes the place of job number `k`, or nothing does. -/
def replace (b : Books) (k : Nat) (next : Option Job) : Books :=
  { b with jobs := b.jobs.filterMap fun i ↦ if i.number = k then next else some i }

end Books

/-! ### The marks of a dispatch -/

/-- What is counted and reported of a result: nothing of a success. -/
def reports : HandlerResult → List Mark
  | .ok => []
  | .failed (.transient reason) =>
    [.measured (.error "handler_transient"), .told .handlerFailed reason]
  | .failed (.fatal reason) => [.measured (.error "handler_fatal"), .told .handlerFatal reason]
  | .panicked p => [.measured (.error "handler_panic"), .told .handlerPanicked p.message]

/-- What is counted and reported of a settlement that did not succeed. -/
def complaints : Settlement → String → List Mark
  | .ack, reason => [.measured (.error "ack_failed"), .told .ackFailed reason]
  | .nack, reason => [.measured (.error "nack_failed"), .told .nackFailed reason]

namespace Job

/-- What became of a settlement. -/
inductive Answer where
  | granted
  | refused (cause : BrokerError)
  /-- There was no answer in time. -/
  | missing (timeout : Duration)
  deriving DecidableEq

/-- The marks of a job up to the call of its handler. -/
def opening (j : Job) (lag : Option Duration) (count : Nat) : List Mark := [
  .measured (lag.elim (.error "metadata_unavailable") .lag),
  .noted (.started j.number j.sub j.delivery.message count)]

/-- The marks of a job when its handler ends. -/
def ending (j : Job) (count : Nat) (r : HandlerResult) : List Mark :=
  .noted (.ended j.number j.sub j.delivery.message count r) :: .measured .processed :: reports r

/-- The marks of a job whose settlement did not succeed. -/
def failing (j : Job) (r : HandlerResult) (reason : String) : List Mark :=
  .noted (.settled j.number j.delivery.handle r.settlement (some reason)) ::
    complaints r.settlement reason

/-- The marks of a job when its settlement is over. -/
def closing (j : Job) (r : HandlerResult) : Answer → List Mark
  | .granted =>
    .asked j.delivery.handle r.settlement ::
    .noted (.settled j.number j.delivery.handle r.settlement none) ::
    r.retryReason?.toList.map (.told .messageNacked) ++ [.gaveBack]
  | .refused cause =>
    .asked j.delivery.handle r.settlement :: j.failing r cause.message ++ [.gaveBack]
  | .missing timeout => j.failing r ("timed out after " ++ timeout.text) ++ [.gaveBack]

/-- Results with the same outcome are settled with the same marks. -/
theorem closing_congr {j : Job} {r r' : HandlerResult} (h : Outcome.ofResult r = .ofResult r')
    (a : Answer) : j.closing r a = j.closing r' a := by
  have hreason : r.retryReason? = r'.retryReason? := by
    rcases r with _ | (_ | _) | _ <;> rcases r' with _ | (_ | _) | _ <;>
      simp_all [Outcome.ofResult, HandlerResult.retryReason?]
  cases a <;> simp only [closing, failing, HandlerResult.settlement, hreason]

/-! ### Steps -/

/-- The rest of the plan of a handler that has nothing to wait for. -/
def ready? (j : Job) (s : State) : Option (List Handler.Act) :=
  match j.phase with
  | .asleep due rest => if due ≤ s.now then some rest else none
  | .awaiting rest => if s.isCancelled j.token then some rest else none
  | _ => none

/-- A job that has nothing to wait for. -/
def isDue (j : Job) (s : State) : Bool :=
  match j.phase with
  | .fresh => true
  | .settling _ answerDue giveUpDue => answerDue ≤ s.now || giveUpDue.any (· ≤ s.now)
  | _ => (j.ready? s).isSome

/-- The phase of a job whose handler waits. -/
def Phase.ofStance? : Stance → Option Phase
  | .ended _ => none
  | .asleep due rest => some (.asleep due rest)
  | .awaiting rest => some (.awaiting rest)

/-- What comes of it when a job calls its handler: how long the message has waited, as far as the
broker can tell, and the plan that the handler has for it. A message from the future has not waited
at all. How often its text has come is counted for the handler and matters to nobody else. -/
structure Calls (s : State) (j : Job) (lag : Option Duration) (count : Nat)
    (plan : List Handler.Act) : Prop where
  lag : ∀ d, lag = some d ↔ s.setup.client.knowsTimes = true ∧ ∃ stamp,
    s.broker.enqueuedAt j.delivery.handle = .ok stamp ∧
      (d.nanos : Int) = max (s.setup.timeOfDay - stamp) 0
  plan : ∃ x, s.setup.subscriptions[j.sub]? = some x ∧ plan = x.handler
    ⟨x.binding.consumer, j.delivery.message, Trace.ofMessage j.delivery.message, count⟩

/-- The answer to a settlement that is due at one tick, and given up at another. An answer that is
there is taken. -/
inductive Answers (s : State) (h : Handle) (x : Settlement) (answerDue : Nat)
    (giveUpDue : Option Nat) : Answer → Prop
  | granted (hdue : answerDue ≤ s.now) (hok : (s.broker.settle h x).result = .ok ()) :
      Answers s h x answerDue giveUpDue .granted
  | refused {cause : BrokerError} (hdue : answerDue ≤ s.now)
      (herror : (s.broker.settle h x).result = .error cause) :
      Answers s h x answerDue giveUpDue (.refused cause)
  | missing (hdue : s.now < answerDue) (hgiveUp : giveUpDue.any (· ≤ s.now) = true) :
      Answers s h x answerDue giveUpDue (.missing s.setup.settings.ackTimeout)

end Job

/-- The tick at which a settlement is answered that is asked for now. -/
def State.answerDue (s : State) (x : Settlement) : Nat := s.now + s.setup.client.settleTicks x

/-- The tick at which a settlement is given up that is asked for now, if there is one. -/
def State.giveUpDue (s : State) : Option Nat :=
  s.setup.clock.expires s.setup.settings.ackTimeout s.now

namespace Job

/-- **What a job does in one step**: the marks that it leaves, and what becomes of it. -/
inductive Step (s : State) (j : Job) : List Mark → Option Job → Prop
  /-- The handler is called. It has all of its plan before it and may go on at once. -/
  | call {lag : Option Duration} {count : Nat} {plan : List Handler.Act} (hfresh : j.phase = .fresh)
      (h : Calls s j lag count plan) :
      Step s j (j.opening lag count) (some { j with count, phase := .asleep s.now plan })
  /-- The handler goes on and has to wait again. -/
  | wait {plan : List Handler.Act} {phase : Phase} (hready : j.ready? s = some plan)
      (hphase : Phase.ofStance? (.after s.now (s.isCancelled j.token) plan) = some phase) :
      Step s j [] (some { j with phase })
  /-- The handler goes on and ends. -/
  | finish {plan : List Handler.Act} {r : HandlerResult} (hready : j.ready? s = some plan)
      (hended : Stance.after s.now (s.isCancelled j.token) plan = .ended r) :
      Step s j (j.ending j.count r)
        (some { j with phase := .settling (.ofResult r) (s.answerDue r.settlement) s.giveUpDue })
  /-- The settlement is over, and so is the job. -/
  | close {r : HandlerResult} {answerDue : Nat} {giveUpDue : Option Nat} {a : Answer}
      (hphase : j.phase = .settling (.ofResult r) answerDue giveUpDue)
      (h : Answers s j.delivery.handle r.settlement answerDue giveUpDue a) :
      Step s j (j.closing r a) none

/-- Some steps of a job, one after the other. -/
inductive Steps (s : State) : Job → List Mark → Option Job → Prop
  | last {j : Job} {marks : List Mark} {next : Option Job} (h : Step s j marks next) :
      Steps s j marks next
  | cons {j i : Job} {marks more : List Mark} {next : Option Job} (h : Step s j marks (some i))
      (hmore : Steps s i more next) : Steps s j (marks ++ more) next

/-- **A turn of a job**: some steps, or none if the job has to wait. -/
inductive Turn (s : State) (j : Job) : List Mark → Option Job → Prop
  | goes {marks : List Mark} {next : Option Job} (h : Steps s j marks next) : Turn s j marks next
  | waits (h : j.isDue s = false) : Turn s j [] (some j)

/-- What a job has still to do: the rest of the plan of its handler, and its settlement. -/
def Phase.rank : Phase → WithTop Nat
  | fresh => ⊤
  | asleep _ rest => .some (rest.length + 1)
  | awaiting rest => .some (rest.length + 1)
  | settling .. => .some 0

/-! ### Steps are progress -/

/-- The rest of the plan of a handler that waits in a phase. -/
def Phase.rest? : Phase → Option (List Handler.Act)
  | asleep _ rest => some rest
  | awaiting rest => some rest
  | _ => none

/-- A handler that has to wait again has gone on with its plan by one act at least. -/
theorem exists_append_of_stance {now : Nat} {cancelled : Bool} {plan rest : List Handler.Act}
    {phase : Phase} (h : Phase.ofStance? (.after now cancelled plan) = some phase)
    (hrest : phase.rest? = some rest) : ∃ act acts, plan = act :: acts ++ rest := by
  induction plan with
  | nil => exact absurd h (by simp [Stance.after, Phase.ofStance?])
  | cons act plan ih =>
    have hlater (h : Phase.ofStance? (.after now cancelled plan) = some phase) :
        ∃ act' acts, act :: plan = act' :: acts ++ rest := by
      obtain ⟨act', acts, hplan⟩ := ih h
      exact ⟨act, act' :: acts, congrArg (act :: ·) hplan⟩
    have hnow {phase' : Phase} (h : some phase' = some phase) (hphase' : phase'.rest? = some plan) :
        ∃ act' acts, act :: plan = act' :: acts ++ rest := by
      obtain rfl := Option.some.inj h
      obtain rfl := Option.some.inj (hphase'.symm.trans hrest)
      exact ⟨act, [], rfl⟩
    cases act with
    | sleep ticks =>
      rw [Stance.after] at h
      split at h
      · exact hlater h
      · exact hnow h rfl
    | awaitCancel =>
      rw [Stance.after] at h
      split at h
      · exact hlater h
      · exact hnow h rfl
    | endIfCancelled r =>
      rw [Stance.after] at h
      split at h
      · exact absurd h (by simp [Phase.ofStance?])
      · exact hlater h
    | finish r => exact absurd h (by simp [Stance.after, Phase.ofStance?])

variable {s t : State} {j i : Job} {marks : List Mark} {next : Option Job}

theorem rest?_of_ready? {plan : List Handler.Act} (h : j.ready? s = some plan) :
    j.phase.rest? = some plan := by
  rw [ready?] at h
  split at h
  · next hphase =>
    rw [hphase]
    exact congrArg some (Option.some.inj (Option.ite_none_right_eq_some.1 h).2)
  · next hphase =>
    rw [hphase]
    exact congrArg some (Option.some.inj (Option.ite_none_right_eq_some.1 h).2)
  · exact absurd h (by simp)

theorem Phase.rank_of_rest? {phase : Phase} {rest : List Handler.Act}
    (h : phase.rest? = some rest) : phase.rank = .some (rest.length + 1) := by
  cases phase with
  | asleep due rest' =>
    rw [← Option.some.inj h]
    rfl
  | awaiting rest' =>
    rw [← Option.some.inj h]
    rfl
  | _ => exact absurd h (by simp [rest?])

theorem Phase.exists_rest?_of_stance {stance : Stance} {phase : Phase}
    (h : ofStance? stance = some phase) : ∃ rest, phase.rest? = some rest := by
  cases stance with
  | ended r => exact absurd h (by simp [ofStance?])
  | asleep due rest => exact ⟨rest, Option.some.inj h ▸ rfl⟩
  | awaiting rest => exact ⟨rest, Option.some.inj h ▸ rfl⟩

/-- A step takes a job further. -/
theorem Step.rank_lt (h : Step s j marks (some i)) : i.phase.rank < j.phase.rank := by
  cases h with
  | call hfresh _ =>
    rw [hfresh]
    exact WithTop.coe_lt_top _
  | @wait plan phase hready hphase =>
    obtain ⟨rest, hrest⟩ := Phase.exists_rest?_of_stance hphase
    obtain ⟨act, acts, rfl⟩ := exists_append_of_stance hphase hrest
    rw [Phase.rank_of_rest? hrest, Phase.rank_of_rest? (rest?_of_ready? hready)]
    refine WithTop.coe_lt_coe.2 (Nat.succ_lt_succ ?_)
    rw [List.length_append, List.length_cons]
    omega
  | finish hready _ =>
    rw [Phase.rank_of_rest? (rest?_of_ready? hready)]
    exact WithTop.coe_lt_coe.2 (Nat.succ_pos _)

theorem Steps.rank_lt (h : Steps s j marks (some i)) : i.phase.rank < j.phase.rank := by
  generalize hnext : some i = next at h
  induction h with
  | last h => exact (hnext ▸ h).rank_lt
  | cons h _ ih => exact (ih hnext).trans h.rank_lt

/-- A job keeps its number. -/
theorem Step.number_eq (h : Step s j marks (some i)) : i.number = j.number := by
  cases h <;> rfl

theorem Steps.number_eq (h : Steps s j marks (some i)) : i.number = j.number := by
  generalize hnext : some i = next at h
  induction h with
  | last h => exact (hnext ▸ h).number_eq
  | cons h _ ih => exact (ih hnext).trans h.number_eq

theorem Turn.number_eq (h : Turn s j marks next) : ∀ i, next = some i → i.number = j.number := by
  rintro i rfl
  cases h with
  | goes h => exact h.number_eq
  | waits _ => rfl

theorem Turn.rank_lt (hdue : j.isDue s = true) (h : Turn s j marks (some i)) :
    i.phase.rank < j.phase.rank := by
  cases h with
  | goes h => exact h.rank_lt
  | waits h => exact absurd (h.symm.trans hdue) (by simp)

end Job

namespace Books

variable {b : Books} {j : Job}

/-! ### Books with marks -/

theorem leaveAll_cons (b : Books) (sub : Nat) (mark : Mark) (rest : List Mark) :
    b.leaveAll sub (mark :: rest) = (b.leave sub mark).leaveAll sub rest := rfl

theorem leaveAll_append (b : Books) (sub : Nat) (marks more : List Mark) :
    b.leaveAll sub (marks ++ more) = (b.leaveAll sub marks).leaveAll sub more :=
  List.foldl_append

/-- Marks have nothing to do with the jobs. -/
theorem leaveAll_frame (b : Books) (sub : Nat) (marks : List Mark) :
    (b.leaveAll sub marks).setup = b.setup ∧ (b.leaveAll sub marks).now = b.now ∧
    (b.leaveAll sub marks).jobs = b.jobs ∧ (b.leaveAll sub marks).jobsBegun = b.jobsBegun := by
  induction marks generalizing b with
  | nil => exact ⟨rfl, rfl, rfl, rfl⟩
  | cons mark rest ih =>
    obtain ⟨hsetup, hnow, hjobs, hbegun⟩ := ih (b.leave sub mark)
    have hmark : (b.leave sub mark).setup = b.setup ∧ (b.leave sub mark).now = b.now ∧
        (b.leave sub mark).jobs = b.jobs ∧ (b.leave sub mark).jobsBegun = b.jobsBegun := by
      cases mark <;> exact ⟨rfl, rfl, rfl, rfl⟩
    exact ⟨hsetup.trans hmark.1, hnow.trans hmark.2.1, hjobs.trans hmark.2.2.1,
      hbegun.trans hmark.2.2.2⟩

theorem reportResult_eq (b : Books) (sub : Nat) (r : HandlerResult) :
    b.reportResult sub r = b.leaveAll sub (reports r) := by
  rcases r with _ | (_ | _) | _ <;> rfl

theorem reportSettled_eq (b : Books) (sub : Nat) (r : HandlerResult) :
    b.reportSettled sub (.ofResult r) =
      b.leaveAll sub (r.retryReason?.toList.map (.told .messageNacked)) := by
  rcases r with _ | (_ | _) | _ <;> rfl

theorem reportUnsettled_eq (b : Books) (sub : Nat) (x : Settlement) (reason : String) :
    b.reportUnsettled sub x reason = b.leaveAll sub (complaints x reason) := by
  cases x <;> rfl

/-- To change a job is to put another one in its place. -/
theorem changeJob_eq (hn : (b.jobs.map Job.number).Nodup) (hj : j ∈ b.jobs) (f : Job → Job) :
    b.changeJob j.number f = b.replace j.number (some (f j)) := by
  have hsame : ∀ i ∈ b.jobs, i.number = j.number → i = j := fun i hi h ↦
    List.inj_on_of_nodup_map hn hi hj h
  simp only [changeJob, replace, Books.mk.injEq, true_and, and_true]
  rw [← List.filterMap_eq_map]
  refine List.filterMap_congr fun i hi ↦ ?_
  by_cases h : i.number = j.number
  · simp [hsame i hi h]
  · simp [h]

theorem dropJob_eq (b : Books) (k : Nat) : b.dropJob k = b.replace k none := by
  simp only [dropJob, replace, Books.mk.injEq, true_and, and_true]
  rw [← List.filterMap_eq_filter]
  refine List.filterMap_congr fun i _ ↦ ?_
  by_cases h : i.number = k <;> simp [h]

theorem leaveAll_replace (b : Books) (k : Nat) (next : Option Job) (sub : Nat)
    (marks : List Mark) :
    (b.replace k next).leaveAll sub marks = (b.leaveAll sub marks).replace k next := by
  induction marks generalizing b with
  | nil => rfl
  | cons mark rest ih =>
    have hmark : (b.replace k next).leave sub mark = (b.leave sub mark).replace k next := by
      cases mark <;> rfl
    rw [leaveAll_cons, hmark, ih, leaveAll_cons]

/-- Whoever has taken the place of a job can be replaced in turn. -/
theorem replace_replace {k : Nat} (h : j.number = k) (next : Option Job) :
    (b.replace k (some j)).replace k next = b.replace k next := by
  simp only [replace, List.filterMap_filterMap, Books.mk.injEq, true_and, and_true]
  refine List.filterMap_congr fun i _ ↦ ?_
  by_cases hi : i.number = k <;> simp [hi, h]

theorem numbers_replace {k : Nat} (h : j.number = k) :
    (b.replace k (some j)).jobs.map Job.number = b.jobs.map Job.number := by
  simp only [replace, List.map_filterMap]
  rw [← List.filterMap_eq_map]
  refine List.filterMap_congr fun i _ ↦ ?_
  by_cases hi : i.number = k <;> simp [hi, h]

/-- A job that takes its own place changes nothing. -/
theorem replace_self (hn : (b.jobs.map Job.number).Nodup) (hj : j ∈ b.jobs) :
    b.replace j.number (some j) = b := by
  have h := changeJob_eq hn hj id
  rw [changeJob] at h
  simpa using h.symm

/-- Whoever takes the place of a job is found in its place. -/
theorem find?_replace_self {k : Nat} {next : Option Job}
    (hj : b.jobs.find? (·.number = k) = some j) (hnext : ∀ i, next = some i → i.number = k) :
    (b.replace k next).jobs.find? (·.number = k) = next := by
  rw [Books.replace, List.find?_filterMap]
  cases next with
  | none =>
    have hnone : (b.jobs.find? fun i ↦ (if i.number = k then none else some i).any
        fun i ↦ decide (i.number = k)) = none := by
      rw [List.find?_eq_none]
      intro i _
      by_cases h : i.number = k <;> simp [h]
    rw [hnone, Option.bind_none]
  | some i =>
    have hsame : (fun i' : Job ↦ (if i'.number = k then some i else some i').any
        fun i ↦ decide (i.number = k)) = fun i' ↦ decide (i'.number = k) := by
      funext i'
      by_cases h : i'.number = k <;> simp [h, hnext i rfl]
    rw [hsame, hj]
    have hnumber : j.number = k := by simpa using List.find?_some hj
    exact if_pos hnumber

/-- The other jobs are found where they were. -/
theorem find?_replace_of_ne {i k : Nat} {next : Option Job}
    (hnext : ∀ j, next = some j → j.number = i) (hne : i ≠ k) :
    (b.replace i next).jobs.find? (·.number = k) = b.jobs.find? (·.number = k) := by
  have hsame : (fun j : Job ↦ (if j.number = i then next else some j).any
      fun j ↦ decide (j.number = k)) = fun j ↦ decide (j.number = k) := by
    funext j
    by_cases h : j.number = i
    · have hnone : next.any (fun j ↦ decide (j.number = k)) = false := by
        cases next with
        | none => rfl
        | some i' => simpa [hnext i' rfl] using hne
      simp [h, hnone, hne]
    · simp [h]
  rw [Books.replace, List.find?_filterMap, hsame]
  cases hfind : b.jobs.find? (·.number = k) with
  | none => rfl
  | some j =>
    have hnumber : j.number = k := by simpa using List.find?_some hfind
    exact if_neg fun h ↦ hne (h.symm.trans hnumber)

end Books

namespace State

variable {s t : State} {j : Job}

/-- What the steps of a job depend on. -/
def surroundings (s : State) : Setup × Nat × Broker × List Token :=
  (s.setup, s.now, s.broker, s.tokens)

end State

namespace Job

variable {s t : State} {j : Job} {marks : List Mark} {next : Option Job}

theorem Answers.congr {h : Handle} {x : Settlement} {answerDue : Nat} {giveUpDue : Option Nat}
    {a : Answer} (hsetup : s.setup = t.setup) (hnow : s.now = t.now) (hbroker : s.broker = t.broker)
    (ha : Answers s h x answerDue giveUpDue a) : Answers t h x answerDue giveUpDue a := by
  cases ha with
  | granted hdue hok => exact .granted (hnow ▸ hdue) (hbroker ▸ hok)
  | refused hdue herror => exact .refused (hnow ▸ hdue) (hbroker ▸ herror)
  | missing hdue hgiveUp =>
    rw [hsetup]
    exact .missing (hnow ▸ hdue) (hnow ▸ hgiveUp)

theorem Step.congr (hsame : s.surroundings = t.surroundings) (h : Step s j marks next) :
    Step t j marks next := by
  simp only [State.surroundings, Prod.mk.injEq] at hsame
  obtain ⟨hsetup, hnow, hbroker, htokens⟩ := hsame
  have hcancelled : s.isCancelled j.token = t.isCancelled j.token := by
    rw [State.isCancelled, htokens, State.isCancelled]
  have hready : j.ready? s = j.ready? t := by rw [ready?, hnow, hcancelled, ready?]
  cases h with
  | call hfresh hcalls =>
    have hcalls' := hcalls.lag
    have hplan := hcalls.plan
    rw [hsetup, hbroker] at hcalls'
    rw [hsetup] at hplan
    rw [hnow]
    exact .call hfresh ⟨hcalls', hplan⟩
  | wait h hphase =>
    rw [hready] at h
    rw [hnow, hcancelled] at hphase
    exact .wait h hphase
  | finish h hended =>
    rw [hready] at h
    rw [hnow, hcancelled] at hended
    rw [State.answerDue, State.giveUpDue, hnow, hsetup]
    exact .finish h hended
  | close hphase hanswers => exact .close hphase (hanswers.congr hsetup hnow hbroker)

theorem Steps.congr (hsame : s.surroundings = t.surroundings) (h : Steps s j marks next) :
    Steps t j marks next := by
  induction h with
  | last h => exact .last (h.congr hsame)
  | cons h _ ih => exact .cons (h.congr hsame) ih

end Job

namespace State

variable {s t : State} {j : Job} {k : Nat}

/-! ### The turn of a job -/

/-- A settlement that did not succeed is counted and reported, and the job ends. -/
theorem books_finishJob_settlementFailed (s : State) (j : Job) (r : HandlerResult)
    (reason : String) :
    ((s.settlementFailed j r.settlement reason).finishJob j).books =
      (s.books.leaveAll j.sub (j.failing r reason ++ [.gaveBack])).replace j.number none := by
  rw [books_finishJob, books_settlementFailed, Books.reportUnsettled_eq, Books.dropJob_eq,
    Books.leaveAll_append]
  rfl

/-- **A settlement is over and leaves its marks, or the job waits for the answer.** -/
theorem settleStep_cases (hn : (s.jobs.map Job.number).Nodup) (hj : j ∈ s.jobs)
    (r : HandlerResult) (answerDue : Nat) (giveUpDue : Option Nat) :
    (∃ a, Job.Answers s j.delivery.handle r.settlement answerDue giveUpDue a ∧
      (s.settleStep j (.ofResult r) answerDue giveUpDue).books =
        (s.books.leaveAll j.sub (j.closing r a)).replace j.number none) ∨
    (decide (answerDue ≤ s.now) || giveUpDue.any (· ≤ s.now)) = false ∧
      (s.settleStep j (.ofResult r) answerDue giveUpDue).books = s.books.replace j.number
        (some { j with phase := .settling (.ofResult r) answerDue giveUpDue }) := by
  rw [settleStep]
  split
  · next hdue =>
    refine Or.inl ?_
    rcases hresult : (s.broker.settle j.delivery.handle r.settlement).result with cause | ⟨⟩
    · refine ⟨_, .refused hdue hresult, ?_⟩
      -- The broker is what it was before it was asked.
      have hasked : s.books.leave j.sub (.asked j.delivery.handle r.settlement) = s.books := by
        rw [Books.leave, show s.books.broker = s.broker from rfl,
          Broker.broker_settle_of_error hresult]
        rfl
      rw [← Outcome.settlement_ofResult] at hresult
      rw [books_finishJob, books_settleNow_of_error hresult, Outcome.settlement_ofResult,
        ← books_settlementFailed, ← books_finishJob, books_finishJob_settlementFailed,
        Job.closing, List.cons_append, Books.leaveAll_cons, hasked]
    · refine ⟨_, .granted hdue hresult, ?_⟩
      rw [← Outcome.settlement_ofResult] at hresult
      rw [books_finishJob, books_settleNow_of_ok hresult, Books.reportSettled_eq,
        Books.dropJob_eq, Outcome.settlement_ofResult, Job.closing, List.cons_append,
        List.cons_append, Books.leaveAll_cons, Books.leaveAll_cons, Books.leaveAll_append]
      rfl
  · next hdue =>
    split
    · next hgiveUp =>
      refine Or.inl ⟨_, .missing (Nat.lt_of_not_le hdue) hgiveUp, ?_⟩
      rw [Outcome.settlement_ofResult]
      exact books_finishJob_settlementFailed s j ..
    · next hgiveUp =>
      refine Or.inr ⟨by simp [hdue, hgiveUp], ?_⟩
      rw [books_arm, books_setJobPhase]
      exact Books.changeJob_eq hn hj fun i ↦
        { i with phase := .settling (.ofResult r) answerDue giveUpDue }

/-- A handler that has ended. The state may still say that it was about to go on with its plan. -/
theorem steps_handled (hn : (s.jobs.map Job.number).Nodup) {phase : Job.Phase} (hj : j ∈ s.jobs)
    {plan : List Handler.Act} {r : HandlerResult}
    (hready : { j with phase }.ready? s = some plan)
    (hended : Stance.after s.now (s.isCancelled j.token) plan = .ended r) :
    ∃ marks next, Job.Steps s { j with phase } marks next ∧
      (s.handled j r).books = (s.books.leaveAll j.sub marks).replace j.number next := by
  obtain ⟨t, ht, heq⟩ := handled_eq s j r
  have hfinish : Job.Step s { j with phase } (j.ending j.count r) (some { j with
      phase := .settling (.ofResult r) (s.answerDue r.settlement) s.giveUpDue }) :=
    .finish hready hended
  have hbooks : t.books = s.books.leaveAll j.sub (j.ending j.count r) := by
    rw [ht, Books.reportResult_eq]
    rfl
  obtain ⟨hsetup, hnow, hjobs, -⟩ := s.books.leaveAll_frame j.sub (j.ending j.count r)
  rw [← hbooks] at hsetup hnow hjobs
  change t.jobs = s.jobs at hjobs
  have hbroker : t.books.broker = s.books.broker := by
    rw [ht, (Books.reportResult_frame ..).2.2.2.2.2.2]
    rfl
  rw [← hjobs] at hn hj
  rw [heq, Outcome.settlement_ofResult]
  change ∃ marks next, _ ∧
    (t.settleStep j (.ofResult r) (s.answerDue r.settlement) s.giveUpDue).books = _
  rcases settleStep_cases hn hj r (s.answerDue r.settlement) s.giveUpDue with
    ⟨a, ha, hclosed⟩ | ⟨-, hwaits⟩
  · have hclose : Job.Step s { j with
        phase := .settling (.ofResult r) (s.answerDue r.settlement) s.giveUpDue }
        (j.closing r a) none := .close rfl (ha.congr hsetup hnow hbroker)
    refine ⟨_, _, .cons hfinish (.last hclose), ?_⟩
    rw [hclosed, hbooks, Books.leaveAll_append]
  · refine ⟨_, _, .last hfinish, ?_⟩
    rw [hwaits, hbooks]

/-- A handler that goes on with its plan, in whatever phase the state still has the job. -/
theorem steps_actOn (hn : (s.jobs.map Job.number).Nodup) {phase : Job.Phase} (hj : j ∈ s.jobs)
    {plan : List Handler.Act} (hready : { j with phase }.ready? s = some plan) :
    ∃ marks next, Job.Steps s { j with phase } marks next ∧
      (s.actOn j plan).books = (s.books.leaveAll j.sub marks).replace j.number next := by
  have hwait {phase' : Job.Phase} (hphase : Job.Phase.ofStance? (.after s.now
      (s.isCancelled j.token) plan) = some phase') : ∃ marks next,
      Job.Steps s { j with phase } marks next ∧
        s.books.setJobPhase j.number phase' =
          (s.books.leaveAll j.sub marks).replace j.number next :=
    ⟨[], _, .last (.wait hready hphase),
      Books.changeJob_eq hn hj fun i ↦ { i with phase := phase' }⟩
  rw [actOn]
  split
  · next r hstance => exact steps_handled hn hj hready hstance
  · next due rest hstance =>
    rw [books_arm, books_setJobPhase]
    exact hwait (by rw [hstance]; rfl)
  · next rest hstance =>
    rw [books_listen, books_setJobPhase]
    exact hwait (by rw [hstance]; rfl)

/-- How long the message of a job has waited is recorded as far as it is known. -/
theorem recordLag_eq (s : State) (j : Job) : ∃ lag : Option Duration,
    (∀ d, lag = some d ↔ s.setup.client.knowsTimes = true ∧ ∃ stamp,
      s.broker.enqueuedAt j.delivery.handle = .ok stamp ∧
        (d.nanos : Int) = max (s.setup.timeOfDay - stamp) 0) ∧
    s.recordLag j = s.measure j.sub (lag.elim (.error "metadata_unavailable") .lag) := by
  have hlag (stamp : Int) (d : Duration) : some (⟨(s.setup.timeOfDay - stamp).toNat⟩ : Duration) =
      some d ↔ (d.nanos : Int) = max (s.setup.timeOfDay - stamp) 0 := by
    obtain ⟨nanos⟩ := d
    simp only [Option.some.injEq, Duration.mk.injEq]
    omega
  unfold recordLag
  dsimp only
  cases hknows : s.setup.client.knowsTimes with
  | false => exact ⟨none, by simp, rfl⟩
  | true =>
    cases hstamp : s.broker.enqueuedAt j.delivery.handle with
    | error cause => exact ⟨none, by simp, rfl⟩
    | ok stamp => exact ⟨some ⟨(s.setup.timeOfDay - stamp).toNat⟩, by simpa using hlag stamp, rfl⟩

/-- The lag is recorded and the handler is called; what it makes of the call comes afterwards. -/
theorem step_callHandler (hb : s.books.Recorded) (hj : j ∈ s.jobs) (hfresh : j.phase = .fresh) :
    ∃ (lag : Option Duration) (count : Nat) (plan : List Handler.Act) (t : State),
      Job.Step s j (j.opening lag count)
        (some { j with count, phase := .asleep s.now plan }) ∧
      t.books = (s.books.leaveAll j.sub (j.opening lag count)).replace j.number
        (some { j with count }) ∧
      t.surroundings = s.surroundings ∧
      s.callHandler j = t.actOn { j with count } plan := by
  obtain ⟨lag, hlag, hrecord⟩ := recordLag_eq s j
  obtain ⟨count, t, plan, ht, htokens, hplan, heq⟩ := callHandler_eq s j
  have hbooks : t.books = (s.books.leaveAll j.sub (j.opening lag count)).replace j.number
      (some { j with count }) := by
    have hjobs : (s.books.leaveAll j.sub (j.opening lag count)).jobs = s.jobs :=
      (Books.leaveAll_frame ..).2.2.1
    rw [← Books.changeJob_eq (by rw [hjobs]; exact hb.once) (hjobs ▸ hj) fun k ↦ { k with count },
      ht, hrecord, books_measure]
    rfl
  refine ⟨lag, count, plan, t, ?_, hbooks, ?_, heq⟩
  · have hsetup : (s.recordLag j).setup = s.setup := by
      rw [hrecord]
      exact congrArg Books.setup (s.books_measure ..)
    obtain ⟨x, hx⟩ := hb.subscription_of_job hj
    change s.setup.subscriptions[j.sub]? = some x at hx
    refine .call hfresh ⟨hlag, x, hx, ?_⟩
    simpa [binding, subscription?, hsetup, hx] using hplan
  · have htokens' : t.tokens = s.tokens := by
      rw [htokens, hrecord, measure]
      split <;> rfl
    rw [surroundings, htokens']
    exact congrArg (fun b : Books ↦ (b.setup, b.now, b.broker, s.tokens)) hbooks

theorem steps_callHandler (hb : s.books.Recorded) (hj : j ∈ s.jobs) (hfresh : j.phase = .fresh) :
    ∃ marks next, Job.Steps s j marks next ∧
      (s.callHandler j).books = (s.books.leaveAll j.sub marks).replace j.number next := by
  obtain ⟨lag, count, plan, t, hcall, hbooks, hsame, heq⟩ := step_callHandler hb hj hfresh
  have hjobs : t.jobs = (s.books.replace j.number (some { j with count })).jobs := by
    rw [show t.jobs = _ from congrArg Books.jobs hbooks, Books.replace,
      (Books.leaveAll_frame ..).2.2.1]
    rfl
  have hn : (t.jobs.map Job.number).Nodup := by
    rw [hjobs, Books.numbers_replace (j := { j with count }) rfl]
    exact hb.once
  have hmem : { j with count } ∈ t.jobs := by
    rw [hjobs]
    exact List.mem_filterMap.2 ⟨j, hj, by simp⟩
  have hready : Job.ready? { j with count, phase := .asleep s.now plan } t = some plan := by
    have hnow : t.now = s.now := congrArg (·.2.1) hsame
    simp [Job.ready?, hnow]
  obtain ⟨marks, next, hsteps, hacted⟩ := steps_actOn (j := { j with count }) hn hmem hready
  refine ⟨_, next, .cons hcall (hsteps.congr hsame), ?_⟩
  rw [heq, hacted, hbooks, Books.leaveAll_replace, Books.leaveAll_append]
  exact Books.replace_replace rfl next

/-- The job of a number, if it is there. -/
def job? (s : State) (k : Nat) : Option Job := s.jobs.find? (·.number = k)

theorem of_job? (h : s.job? k = some j) : j ∈ s.jobs ∧ j.number = k :=
  ⟨List.mem_of_find?_eq_some h, by simpa using List.find?_some h⟩

/-- **What a job does in its turn**: it leaves marks, it is changed or gone, and nothing else in the
books is touched. -/
theorem turn_jobTurn (hb : s.books.Recorded) (hj : s.job? k = some j) :
    ∃ marks next, Job.Turn s j marks next ∧
      (s.jobTurn k).books = (s.books.leaveAll j.sub marks).replace k next := by
  obtain ⟨hmem, rfl⟩ := of_job? hj
  have hn : (s.jobs.map Job.number).Nodup := hb.once
  set u := s.forget (.job j.number) with hu
  have hsame : u.surroundings = s.surroundings := rfl
  have hgoes {t : State} (h : ∃ marks next, Job.Steps u j marks next ∧
      t.books = (u.books.leaveAll j.sub marks).replace j.number next) :
      ∃ marks next, Job.Turn s j marks next ∧
        t.books = (s.books.leaveAll j.sub marks).replace j.number next := by
    obtain ⟨marks, next, hsteps, hbooks⟩ := h
    exact ⟨marks, next, .goes (hsteps.congr hsame), hbooks⟩
  have hact {plan : List Handler.Act} (hready : j.ready? u = some plan) :=
    hgoes (@steps_actOn u j hn j.phase hmem plan hready)
  have hwaits {t : State} (hdue : j.isDue s = false) (h : t.books = s.books) :
      ∃ marks next, Job.Turn s j marks next ∧
        t.books = (s.books.leaveAll j.sub marks).replace j.number next :=
    ⟨[], some j, .waits hdue, h.trans (Books.replace_self hn hmem).symm⟩
  unfold jobTurn
  dsimp only
  rw [← hu, show u.jobs.find? (·.number = j.number) = some j from hj]
  dsimp only
  split
  · next hphase => exact hgoes (steps_callHandler hb hmem hphase)
  · next due rest hphase =>
    split
    · next hdue => exact hact (by rw [Job.ready?, hphase]; exact if_pos hdue)
    · next hdue =>
      have hdue : ¬ due ≤ s.now := hdue
      exact hwaits (by simp [Job.isDue, Job.ready?, hphase, hdue]) (books_arm ..)
  · next rest hphase =>
    split
    · next hcancelled => exact hact (by rw [Job.ready?, hphase]; exact if_pos hcancelled)
    · next hcancelled =>
      have hcancelled : ¬ s.isCancelled j.token = true := hcancelled
      exact hwaits (by simp [Job.isDue, Job.ready?, hphase, hcancelled]) (books_listen ..)
  · next outcome answerDue giveUpDue hphase =>
    obtain ⟨r, rfl⟩ := outcome.exists_ofResult
    rcases settleStep_cases (s := u) hn hmem r answerDue giveUpDue with
      ⟨a, ha, hclosed⟩ | ⟨hdue, hsettles⟩
    · exact hgoes ⟨_, _, .last (.close hphase ha), hclosed⟩
    · refine hwaits ?_ ?_
      · rw [Job.isDue, hphase]
        exact hdue
      · rw [hsettles, ← hphase]
        exact Books.replace_self hn hmem

end State

end Supervisor

end PullConsumer
