import PullConsumer.Proofs.Supervisor.Deeds

/-!
# What the journal tells about jobs

A job leaves four entries in the journal, always in the same order: its delivery was fetched, its
handler was called, the handler ended, the delivery was settled. How many of them are there already
can be read off the phase of the job, and all four are there once it is gone (`Recorded`). This ties
the journal, which nobody reads, to the state of the tasks, and it is kept by every deed
(`Recorded.deed`).

The invariant also says that jobs are told apart by their numbers and that each belongs to a
subscription of the puller that fetched for it; without that a deed of one job might be one of
another.
-/

namespace PullConsumer.Supervisor

/-- The job that an entry is about. -/
def Entry.job? : Entry → Option Nat
  | fetched _ job _ => some job
  | started job .. => some job
  | ended job .. => some job
  | settled job .. => some job
  | _ => none

/-- What a journal tells about a job, the last first. -/
def about (job : Nat) (journal : List (Nat × Entry)) : List Entry :=
  (journal.map (·.2)).filter fun e ↦ e.job? = some job

/-! ### Jobs and their entries -/

namespace Job

/-- The entries of a job whose handler ended with `r` and whose settlement failed or did not fail,
the last first. -/
def life (j : Job) (r : HandlerResult) (failure : Option String) : List Entry := [
  .settled j.number j.delivery.handle (Outcome.ofResult r).settlement failure,
  .ended j.number j.sub j.delivery.message j.count r,
  .started j.number j.sub j.delivery.message j.count,
  .fetched j.puller j.number j.delivery.handle]

/-- The entries that a job has left so far, the last first. -/
def Tells (j : Job) (entries : List Entry) : Prop :=
  match j.phase with
  | .fresh => entries = [.fetched j.puller j.number j.delivery.handle]
  | .asleep .. => entries = [
      .started j.number j.sub j.delivery.message j.count,
      .fetched j.puller j.number j.delivery.handle]
  | .awaiting _ => entries = [
      .started j.number j.sub j.delivery.message j.count,
      .fetched j.puller j.number j.delivery.handle]
  | .settling outcome .. => ∃ r, outcome = .ofResult r ∧ entries = [
      .ended j.number j.sub j.delivery.message j.count r,
      .started j.number j.sub j.delivery.message j.count,
      .fetched j.puller j.number j.delivery.handle]

theorem tells_of_isLive {j : Job} {entries : List Entry} (h : j.phase.isLive = true) :
    j.Tells entries ↔ entries = [
      .started j.number j.sub j.delivery.message j.count,
      .fetched j.puller j.number j.delivery.handle] := by
  rw [Tells]
  cases hphase : j.phase <;> simp_all [Phase.isLive]

/-- A job tells once that its delivery was fetched. -/
theorem Tells.fetched {j : Job} {entries : List Entry} {n k : Nat} {h : Handle}
    (htells : j.Tells entries) (hmem : .fetched n k h ∈ entries) :
    n = j.puller ∧ k = j.number ∧ h = j.delivery.handle := by
  rw [Tells] at htells
  split at htells
  · simpa [htells] using hmem
  · simpa [htells] using hmem
  · simpa [htells] using hmem
  · obtain ⟨r, -, hentries⟩ := htells
    simpa [hentries] using hmem

/-- While a job is there, it tells of no settlement. -/
theorem Tells.not_settled {j : Job} {entries : List Entry} {k : Nat} {h : Handle} {x : Settlement}
    {failure : Option String} (htells : j.Tells entries) :
    .settled k h x failure ∉ entries := by
  rw [Tells] at htells
  split at htells
  · simp [htells]
  · simp [htells]
  · simp [htells]
  · obtain ⟨r, -, hentries⟩ := htells
    simp [hentries]

end Job

namespace Books

variable {b b' : Books} {j : Job} {n k sub : Nat}

/-! ### Changes that do not concern the jobs -/

@[simp] theorem reportResult_frame (b : Books) (sub : Nat) (r : HandlerResult) :
    (b.reportResult sub r).setup = b.setup ∧ (b.reportResult sub r).now = b.now ∧
    (b.reportResult sub r).slots = b.slots ∧ (b.reportResult sub r).pullers = b.pullers ∧
    (b.reportResult sub r).jobs = b.jobs ∧ (b.reportResult sub r).jobsBegun = b.jobsBegun ∧
    (b.reportResult sub r).broker = b.broker := by
  rw [reportResult]
  split <;> exact ⟨rfl, rfl, rfl, rfl, rfl, rfl, rfl⟩

@[simp] theorem reportSettled_frame (b : Books) (sub : Nat) (outcome : Outcome) :
    (b.reportSettled sub outcome).setup = b.setup ∧
    (b.reportSettled sub outcome).now = b.now ∧
    (b.reportSettled sub outcome).slots = b.slots ∧
    (b.reportSettled sub outcome).pullers = b.pullers ∧
    (b.reportSettled sub outcome).jobs = b.jobs ∧
    (b.reportSettled sub outcome).jobsBegun = b.jobsBegun ∧
    (b.reportSettled sub outcome).broker = b.broker := by
  rw [reportSettled]
  split <;> exact ⟨rfl, rfl, rfl, rfl, rfl, rfl, rfl⟩

/-! ### Records -/

/-- What the journal tells about a job, the last first. -/
def record (b : Books) (k : Nat) : List Entry := about k b.journal

theorem record_note (b : Books) (e : Entry) (k : Nat) :
    (b.note e).record k = if e.job? = some k then e :: b.record k else b.record k := by
  simp [record, about, note, List.filter_cons]

theorem record_note_self {e : Entry} (h : e.job? = some k) :
    (b.note e).record k = e :: b.record k := by
  rw [record_note, if_pos h]

theorem record_note_of_ne {e : Entry} (h : e.job? ≠ some k) :
    (b.note e).record k = b.record k := by
  rw [record_note, if_neg h]

@[simp] theorem record_publishFor (b : Books) (sub : Nat) (e : Event) :
    (b.publishFor sub e).record k = b.record k :=
  record_note_of_ne (by simp [Entry.job?])

@[simp] theorem record_measure (b : Books) (sub : Nat) (m : Measurement) :
    (b.measure sub m).record k = b.record k := rfl

@[simp] theorem record_setPhase (b : Books) (n : Nat) (phase : Puller.Phase) :
    (b.setPhase n phase).record k = b.record k := rfl

@[simp] theorem record_giveBack (b : Books) (sub : Nat) :
    (b.giveBack sub).record k = b.record k := rfl

@[simp] theorem record_changeJob (b : Books) (n : Nat) (f : Job → Job) :
    (b.changeJob n f).record k = b.record k := rfl

@[simp] theorem record_setJobPhase (b : Books) (n : Nat) (phase : Job.Phase) :
    (b.setJobPhase n phase).record k = b.record k := rfl

@[simp] theorem record_dropJob (b : Books) (n : Nat) : (b.dropJob n).record k = b.record k := rfl

@[simp] theorem record_reportResult (b : Books) (sub : Nat) (r : HandlerResult) :
    (b.reportResult sub r).record k = b.record k := by
  rw [reportResult]
  split
  · simp
  · rfl

@[simp] theorem record_reportSettled (b : Books) (sub : Nat) (outcome : Outcome) :
    (b.reportSettled sub outcome).record k = b.record k := by
  rw [reportSettled]
  split
  · rfl
  · simp

@[simp] theorem record_reportUnsettled (b : Books) (sub : Nat) (x : Settlement) (reason : String) :
    (b.reportUnsettled sub x reason).record k = b.record k := by
  simp [reportUnsettled]

theorem mem_record {e : Entry} :
    e ∈ b.record k ↔ (∃ tick, (tick, e) ∈ b.journal) ∧ e.job? = some k := by
  simp [record, about]

/-! ### Jobs by their numbers -/

/-- The subscriptions of the pullers, by number. -/
def seats (b : Books) : List Nat := b.pullers.map Puller.sub

@[simp] theorem seats_setPhase (b : Books) (n : Nat) (phase : Puller.Phase) :
    (b.setPhase n phase).seats = b.seats := by
  simp only [seats, setPhase]
  refine List.ext_getElem? fun i ↦ ?_
  rw [List.getElem?_map, List.getElem?_map, List.getElem?_modify]
  by_cases h : n = i <;> simp [h, Option.map_map, Function.comp_def]

theorem seats_spawn (b : Books) (token : Nat) (reporter : Reporter) (first count : Nat) :
    (b.spawn token reporter first count).seats = b.seats ++ List.range' first count := by
  simp [seats, spawn, Function.comp_def]

/-- Whoever has a seat keeps it when others come. -/
theorem seat_spawn (h : b.seats[n]? = some sub) (token : Nat) (reporter : Reporter)
    (first count : Nat) : (b.spawn token reporter first count).seats[n]? = some sub := by
  rw [seats_spawn, List.getElem?_append_left (List.getElem?_eq_some_iff.1 h).1]
  exact h

theorem exists_split_of_puller {p : Puller} (hp : b.pullers[n]? = some p) (phase : Puller.Phase) :
    ∃ before after, b.pullers = before ++ p :: after ∧
      (b.setPhase n phase).pullers = before ++ { p with phase } :: after := by
  obtain ⟨hn, hget⟩ := List.getElem?_eq_some_iff.1 hp
  obtain ⟨before, q, after, hsplit, hlength, hmodify⟩ :=
    List.exists_of_modify (fun p : Puller ↦ { p with phase }) hn
  obtain rfl : q = p := by
    rw [← hget]
    simp [hsplit, ← hlength]
  exact ⟨before, after, hsplit, hmodify⟩

/-- A job that is told apart by its number stands at one place; what is done to the job of that
number is done there and nowhere else. -/
theorem exists_split_of_mem (hn : (b.jobs.map Job.number).Nodup) (hj : j ∈ b.jobs) :
    ∃ before after, b.jobs = before ++ j :: after ∧
      (∀ f, (b.changeJob j.number f).jobs = before ++ f j :: after) ∧
      (b.dropJob j.number).jobs = before ++ after ∧
      ∀ i ∈ before ++ after, i.number ≠ j.number := by
  obtain ⟨before, after, hjobs⟩ := List.append_of_mem hj
  rw [hjobs, List.map_append, List.map_cons, List.nodup_append] at hn
  obtain ⟨-, hafter, hbefore⟩ := hn
  rw [List.nodup_cons] at hafter
  have hne : ∀ i ∈ before ++ after, i.number ≠ j.number := by
    intro i hi he
    -- The number stands on neither side of the job.
    rcases List.mem_append.1 hi with hi | hi
    · exact hbefore _ (List.mem_map_of_mem hi) _ (by simp) he
    · exact hafter.1 (he ▸ List.mem_map_of_mem hi)
  have hmap (f : Job → Job) {l : List Job} (hl : ∀ i ∈ l, i.number ≠ j.number) :
      (l.map fun i ↦ if i.number = j.number then f i else i) = l :=
    (List.map_congr_left fun i hi ↦ if_neg (hl i hi)).trans (List.map_id l)
  have hfilter {l : List Job} (hl : ∀ i ∈ l, i.number ≠ j.number) :
      l.filter (·.number ≠ j.number) = l :=
    List.filter_eq_self.2 fun i hi ↦ by simpa using hl i hi
  rw [List.forall_mem_append] at hne
  refine ⟨before, after, hjobs, fun f ↦ ?_, ?_, List.forall_mem_append.2 hne⟩
  · show b.jobs.map _ = _
    rw [hjobs, List.map_append, List.map_cons, hmap f hne.1, hmap f hne.2, if_pos rfl]
  · show b.jobs.filter _ = _
    rw [hjobs, List.filter_append, List.filter_cons, hfilter hne.1, hfilter hne.2]
    simp

/-! ### Counting -/

/-- Of a step of a puller only the puller itself has to be counted anew. -/
theorem countP_setPhase {p : Puller} (hp : b.pullers[n]? = some p) (phase : Puller.Phase)
    (q : Puller → Bool) :
    (b.setPhase n phase).pullers.countP q + (if q p then 1 else 0) =
      b.pullers.countP q + if q { p with phase } then 1 else 0 := by
  obtain ⟨before, after, hsplit, hset⟩ := exists_split_of_puller hp phase
  rw [hset, hsplit, List.countP_append, List.countP_append, List.countP_cons, List.countP_cons]
  omega

/-- Of a deed of a job only the job itself has to be counted anew. -/
theorem countP_changeJob (hn : (b.jobs.map Job.number).Nodup) (hj : j ∈ b.jobs) (f : Job → Job)
    (q : Job → Bool) :
    (b.changeJob j.number f).jobs.countP q + (if q j then 1 else 0) =
      b.jobs.countP q + if q (f j) then 1 else 0 := by
  obtain ⟨before, after, hsplit, hchange, -⟩ := exists_split_of_mem hn hj
  rw [hchange, hsplit, List.countP_append, List.countP_append, List.countP_cons, List.countP_cons]
  omega

theorem countP_dropJob (hn : (b.jobs.map Job.number).Nodup) (hj : j ∈ b.jobs) (q : Job → Bool) :
    (b.dropJob j.number).jobs.countP q + (if q j then 1 else 0) = b.jobs.countP q := by
  obtain ⟨before, after, hsplit, -, hdrop, -⟩ := exists_split_of_mem hn hj
  rw [hdrop, hsplit, List.countP_append, List.countP_append, List.countP_cons]
  omega

/-! ### The invariant -/

/-- The pullers serve subscriptions that there are, the jobs are told apart by their numbers, and
the journal tells of each job what its phase says: all of its life if it is gone, nothing if it has
not begun. -/
structure Recorded (b : Books) : Prop where
  seated : ∀ sub ∈ b.seats, sub < b.setup.subscriptions.length
  once : (b.jobs.map Job.number).Nodup
  begun : ∀ j ∈ b.jobs, j.number < b.jobsBegun
  placed : ∀ j ∈ b.jobs, b.seats[j.puller]? = some j.sub
  present : ∀ j ∈ b.jobs, j.Tells (b.record j.number)
  gone : ∀ k < b.jobsBegun, (∀ j ∈ b.jobs, j.number ≠ k) →
    ∃ (j : Job) (r : HandlerResult) (failure : Option String),
      j.number = k ∧ b.seats[j.puller]? = some j.sub ∧ b.record k = j.life r failure
  future : ∀ k, b.jobsBegun ≤ k → b.record k = []

namespace Recorded

/-- What concerns no job, and seats nobody elsewhere, keeps the records. -/
theorem aside (hb : b.Recorded) (hsetup : b'.setup = b.setup) (hseats : b'.seats = b.seats)
    (hjobs : b'.jobs = b.jobs) (hbegun : b'.jobsBegun = b.jobsBegun)
    (hrecord : ∀ k, b'.record k = b.record k) : b'.Recorded where
  seated := by
    rw [hseats, hsetup]
    exact hb.seated
  once := hjobs ▸ hb.once
  begun := by
    rw [hjobs, hbegun]
    exact hb.begun
  placed := by
    rw [hjobs, hseats]
    exact hb.placed
  present j hj := by
    rw [hrecord]
    exact hb.present j (hjobs ▸ hj)
  gone k hk hne := by
    rw [hrecord, hseats]
    exact hb.gone k (hbegun ▸ hk) (hjobs ▸ hne)
  future k hk := by
    rw [hrecord]
    exact hb.future k (hbegun ▸ hk)

/-- A job begins with the number that is next. -/
theorem began (hb : b.Recorded) (hplaced : b.seats[j.puller]? = some j.sub)
    (hnumber : j.number = b.jobsBegun) (hphase : j.phase = .fresh) (hsetup : b'.setup = b.setup)
    (hseats : b'.seats = b.seats) (hjobs : b'.jobs = b.jobs ++ [j])
    (hbegun : b'.jobsBegun = b.jobsBegun + 1)
    (hrecord : ∀ k, b'.record k = if k = j.number then
      .fetched j.puller j.number j.delivery.handle :: b.record k else b.record k) :
    b'.Recorded := by
  have hne : ∀ i ∈ b.jobs, i.number ≠ j.number := fun i hi ↦ by
    have := hb.begun i hi
    omega
  refine {
    seated := by
      rw [hseats, hsetup]
      exact hb.seated
    once := ?_
    begun := ?_
    placed := ?_
    present := ?_
    gone := ?_
    future := ?_ }
  · rw [hjobs, List.map_append, List.nodup_append]
    refine ⟨hb.once, List.nodup_singleton _, ?_⟩
    intro x hx y hy
    obtain ⟨i, hi, rfl⟩ := List.mem_map.1 hx
    rw [List.map_singleton, List.mem_singleton] at hy
    exact hy ▸ hne i hi
  · rw [hjobs, hbegun, List.forall_mem_append, List.forall_mem_singleton]
    exact ⟨fun i hi ↦ Nat.lt_succ_of_lt (hb.begun i hi), by omega⟩
  · rw [hjobs, hseats, List.forall_mem_append, List.forall_mem_singleton]
    exact ⟨hb.placed, hplaced⟩
  · rw [hjobs, List.forall_mem_append, List.forall_mem_singleton]
    refine ⟨fun i hi ↦ ?_, ?_⟩
    · rw [hrecord, if_neg (hne i hi)]
      exact hb.present i hi
    · rw [hrecord, if_pos rfl, hb.future _ (by omega)]
      simp [Job.Tells, hphase]
  · intro k hk hall
    rw [hjobs, List.forall_mem_append, List.forall_mem_singleton] at hall
    rw [hrecord, if_neg (Ne.symm hall.2), hseats]
    exact hb.gone k (by omega) hall.1
  · intro k hk
    rw [hrecord, if_neg (by omega)]
    exact hb.future k (by omega)

/-- A job goes on: its entries are then those that its new phase calls for. -/
theorem changed {f : Job → Job} (hb : b.Recorded) (hj : j ∈ b.jobs)
    (hf : (f j).number = j.number ∧ (f j).puller = j.puller ∧ (f j).sub = j.sub)
    (hsetup : b'.setup = b.setup) (hseats : b'.seats = b.seats)
    (hjobs : b'.jobs = (b.changeJob j.number f).jobs) (hbegun : b'.jobsBegun = b.jobsBegun)
    (hrecord : ∀ k ≠ j.number, b'.record k = b.record k)
    (htells : (f j).Tells (b'.record j.number)) : b'.Recorded := by
  obtain ⟨before, after, hsplit, hchange, -, hne⟩ := exists_split_of_mem hb.once hj
  -- The numbers stay as they are, so that every other job keeps its entries.
  have hmem : ∀ i ∈ b'.jobs, i = f j ∨ i ∈ before ++ after := by
    intro i hi
    rw [hjobs, hchange] at hi
    simpa [or_left_comm] using hi
  have hold : ∀ i ∈ before ++ after, i ∈ b.jobs := by
    intro i hi
    rw [hsplit]
    simp only [List.mem_append, List.mem_cons] at hi ⊢
    exact hi.imp_right Or.inr
  have hnumbers : b'.jobs.map Job.number = b.jobs.map Job.number := by
    rw [hjobs, hchange, hsplit]
    simp [hf.1]
  refine {
    seated := by
      rw [hseats, hsetup]
      exact hb.seated
    once := hnumbers ▸ hb.once
    begun := fun i hi ↦ ?_
    placed := fun i hi ↦ ?_
    present := fun i hi ↦ ?_
    gone := fun k hk hall ↦ ?_
    future := fun k hk ↦ ?_ }
  · rcases hmem i hi with rfl | hi
    · rw [hf.1, hbegun]
      exact hb.begun j hj
    · rw [hbegun]
      exact hb.begun i (hold i hi)
  · rcases hmem i hi with rfl | hi
    · rw [hf.2.1, hf.2.2, hseats]
      exact hb.placed j hj
    · rw [hseats]
      exact hb.placed i (hold i hi)
  · rcases hmem i hi with rfl | hi
    · rw [hf.1]
      exact htells
    · rw [hrecord _ (hne i hi)]
      exact hb.present i (hold i hi)
  · have hall' : ∀ i ∈ b.jobs, i.number ≠ k := by
      rw [← List.forall_mem_map (f := Job.number) (P := (· ≠ k))] at hall ⊢
      rwa [hnumbers] at hall
    rw [hrecord k (Ne.symm (hall' j hj)), hseats]
    exact hb.gone k (hbegun ▸ hk) hall'
  · have hlt := hb.begun j hj
    rw [hrecord k (by omega)]
    exact hb.future k (hbegun ▸ hk)

/-- A job goes, and the journal tells all of its life. -/
theorem dropped {r : HandlerResult} {failure : Option String} (hb : b.Recorded) (hj : j ∈ b.jobs)
    (hsetup : b'.setup = b.setup) (hseats : b'.seats = b.seats)
    (hjobs : b'.jobs = (b.dropJob j.number).jobs) (hbegun : b'.jobsBegun = b.jobsBegun)
    (hrecord : ∀ k ≠ j.number, b'.record k = b.record k)
    (hlife : b'.record j.number = j.life r failure) : b'.Recorded := by
  have hmem : ∀ i, i ∈ b'.jobs ↔ i ∈ b.jobs ∧ i.number ≠ j.number := by
    intro i
    rw [hjobs]
    simp [dropJob]
  refine {
    seated := by
      rw [hseats, hsetup]
      exact hb.seated
    once := ?_
    begun := fun i hi ↦ hbegun ▸ hb.begun i ((hmem i).1 hi).1
    placed := fun i hi ↦ hseats ▸ hb.placed i ((hmem i).1 hi).1
    present := fun i hi ↦ ?_
    gone := fun k hk hall ↦ ?_
    future := fun k hk ↦ ?_ }
  · rw [hjobs]
    exact hb.once.sublist (List.filter_sublist.map _)
  · obtain ⟨hi, hne⟩ := (hmem i).1 hi
    rw [hrecord _ hne]
    exact hb.present i hi
  · -- Whoever is gone now was gone before or is the job that goes.
    rw [hseats]
    by_cases hk' : k = j.number
    · exact ⟨j, r, failure, hk'.symm, hb.placed j hj, hk' ▸ hlife⟩
    · rw [hrecord k hk']
      exact hb.gone k (hbegun ▸ hk) fun i hi he ↦ hall i ((hmem i).2 ⟨hi, he ▸ hk'⟩) he
  · have hlt := hb.begun j hj
    rw [hrecord k (by omega)]
    exact hb.future k (hbegun ▸ hk)

/-- A job that settles its delivery has all of its life but the last entry. -/
theorem exists_life_of_settling (hb : b.Recorded) (hj : j ∈ b.jobs) {outcome : Outcome}
    {answerDue : Nat} {giveUpDue : Option Nat}
    (hphase : j.phase = .settling outcome answerDue giveUpDue) :
    ∃ r, outcome = .ofResult r ∧ ∀ failure,
      .settled j.number j.delivery.handle outcome.settlement failure :: b.record j.number =
        j.life r failure := by
  have htells := hb.present j hj
  rw [Job.Tells, hphase] at htells
  obtain ⟨r, rfl, htells⟩ := htells
  exact ⟨r, rfl, fun _ ↦ congrArg _ htells⟩

/-- **Every deed keeps the records.** -/
theorem deed (h : Deed b b') (hb : b.Recorded) : b'.Recorded := by
  have hnote {e : Entry} (he : e.job? = none) (k : Nat) : (b.note e).record k = b.record k :=
    record_note_of_ne (by simp [he])
  cases h with
  | pass _ => exact hb.aside rfl rfl rfl rfl fun _ ↦ rfl
  | report _ => exact hb.aside rfl rfl rfl rfl (hnote rfl)
  | blame sub cause => exact hb.aside rfl rfl rfl rfl fun _ ↦ rfl
  | fatal n cause => exact hb.aside rfl rfl rfl rfl (hnote rfl)
  | bind x => exact hb.aside rfl rfl rfl rfl fun _ ↦ rfl
  | supply x => exact hb.aside rfl rfl rfl rfl fun _ ↦ rfl
  | turn _ _ _ _ => exact hb.aside rfl (seats_setPhase ..) rfl rfl fun _ ↦ rfl
  | gauge _ _ => exact hb.aside rfl rfl rfl rfl (hnote rfl)
  | reserve _ _ _ _ => exact hb.aside rfl (seats_setPhase ..) rfl rfl fun _ ↦ rfl
  | ask _ _ => exact hb.aside rfl rfl rfl rfl (hnote rfl)
  | expect _ _ _ => exact hb.aside rfl (seats_setPhase ..) rfl rfl fun _ ↦ rfl
  | @receive n p c d x hp _ _ =>
    have hseat : b.seats[n]? = some p.sub := by simp [seats, hp]
    refine hb.began (j := ⟨b.jobsBegun, n, p.sub, p.token, d, 0, .fresh⟩) hseat rfl rfl rfl
      (seats_setPhase ..) rfl rfl fun k ↦ ?_
    rw [record_setPhase, beginJob, record_note]
    simp only [Entry.job?, Option.some.injEq, eq_comm]
    rfl
  | release _ _ _ => exact hb.aside rfl (seats_setPhase ..) rfl rfl fun _ ↦ rfl
  | @call j lag count phase hj hfresh _ hlive =>
    have htells := hb.present j hj
    rw [Job.Tells, hfresh] at htells
    refine hb.changed hj ⟨rfl, rfl, rfl⟩ rfl rfl rfl rfl (fun k hk ↦ ?_) ?_
    · rw [record_changeJob, record_note_of_ne (by simpa [Entry.job?] using hk.symm),
        record_measure]
    · rw [Job.tells_of_isLive hlive, record_changeJob, record_note_self rfl, record_measure, htells]
  | @rest j phase hj hlive hlive' =>
    have htells := hb.present j hj
    rw [Job.tells_of_isLive hlive] at htells
    refine hb.changed hj ⟨rfl, rfl, rfl⟩ rfl rfl rfl rfl (fun k _ ↦ rfl) ?_
    rw [Job.tells_of_isLive hlive', record_setJobPhase, htells]
  | @finish j r giveUpDue hj hlive =>
    have htells := hb.present j hj
    rw [Job.tells_of_isLive hlive] at htells
    let phase : Job.Phase := .settling (.ofResult r)
      (b.now + b.setup.client.settleTicks (Outcome.ofResult r).settlement) giveUpDue
    refine hb.changed (f := fun k ↦ { k with phase }) hj ⟨rfl, rfl, rfl⟩
      (by simp [setJobPhase, changeJob, measure, note])
      (by simp [seats, setJobPhase, changeJob, measure, note])
      (by simp [setJobPhase, changeJob, measure, note, phase])
      (by simp [setJobPhase, changeJob, measure, note]) (fun k hk ↦ ?_) ?_
    · rw [record_setJobPhase, record_reportResult, record_measure,
        record_note_of_ne (by simpa [Entry.job?] using hk.symm)]
    · rw [Job.Tells, record_setJobPhase, record_reportResult, record_measure,
        record_note_self rfl, htells]
      exact ⟨r, rfl, rfl⟩
  | @await j outcome answerDue giveUpDue hj hphase =>
    have htells := hb.present j hj
    rw [Job.Tells, hphase] at htells
    exact hb.changed hj ⟨rfl, rfl, rfl⟩ rfl rfl rfl rfl (fun k _ ↦ rfl) htells
  | @settle j outcome answerDue giveUpDue hj hphase _ =>
    obtain ⟨r, -, hlife⟩ := hb.exists_life_of_settling hj hphase
    refine @dropped b _ j r none hb hj (by simp [giveBack, dropJob, note])
      (by simp [seats, giveBack, dropJob, note]) (by simp [giveBack, dropJob, note])
      (by simp [giveBack, dropJob, note]) (fun k hk ↦ ?_) ?_
    · rw [record_giveBack, record_dropJob, record_reportSettled,
        record_note_of_ne (by simpa [Entry.job?] using hk.symm)]
      rfl
    · rw [record_giveBack, record_dropJob, record_reportSettled, record_note_self rfl]
      exact hlife none
  | @fail j outcome answerDue giveUpDue reason hj hphase _ =>
    obtain ⟨r, -, hlife⟩ := hb.exists_life_of_settling hj hphase
    refine @dropped b _ j r (some reason) hb hj rfl rfl rfl rfl (fun k hk ↦ ?_) ?_
    · rw [record_giveBack, record_dropJob, record_reportUnsettled,
        record_note_of_ne (by simpa [Entry.job?] using hk.symm)]
    · rw [record_giveBack, record_dropJob, record_reportUnsettled, record_note_self rfl]
      exact hlife (some reason)

theorem spawn (hb : b.Recorded) (token : Nat) (reporter : Reporter) :
    (b.spawn token reporter 0 b.setup.subscriptions.length).Recorded := by
  refine {
    seated := fun sub hsub ↦ ?_
    once := hb.once
    begun := hb.begun
    placed := fun j hj ↦ seat_spawn (hb.placed j hj) ..
    present := hb.present
    gone := fun k hk hall ↦ ?_
    future := hb.future }
  · rw [seats_spawn, List.mem_append] at hsub
    rcases hsub with hsub | hsub
    · exact hb.seated sub hsub
    · exact (List.mem_range'_1.1 hsub).2.trans_eq (Nat.zero_add _)
  · obtain ⟨j, r, failure, hnumber, hj, hlife⟩ := hb.gone k hk hall
    exact ⟨j, r, failure, hnumber, seat_spawn hj .., hlife⟩

/-- Pullers and jobs serve subscriptions that there are. -/
theorem subscription_of_puller {p : Puller} (hb : b.Recorded) (hp : b.pullers[n]? = some p) :
    ∃ x, b.setup.subscriptions[p.sub]? = some x := by
  have hlt := hb.seated p.sub (List.mem_map_of_mem (List.mem_of_getElem? hp))
  exact ⟨_, List.getElem?_eq_getElem hlt⟩

theorem subscription_of_job (hb : b.Recorded) (hj : j ∈ b.jobs) :
    ∃ x, b.setup.subscriptions[j.sub]? = some x := by
  have hlt := hb.seated j.sub (List.mem_of_getElem? (hb.placed j hj))
  exact ⟨_, List.getElem?_eq_getElem hlt⟩

/-- Whatever the journal tells about a job, the job has begun. -/
theorem lt_of_mem (hb : b.Recorded) {tick : Nat} {e : Entry} (he : (tick, e) ∈ b.journal)
    (hk : e.job? = some k) : k < b.jobsBegun := by
  by_contra hlt
  have hmem := mem_record.2 ⟨⟨tick, he⟩, hk⟩
  rw [hb.future k (by omega)] at hmem
  exact absurd hmem List.not_mem_nil

/-- A job that was begun is there, or the journal tells all of its life. -/
theorem mem_or_life (hb : b.Recorded) (hk : k < b.jobsBegun) :
    (∃ j ∈ b.jobs, j.number = k) ∨ ∃ (j : Job) (r : HandlerResult) (failure : Option String),
      j.number = k ∧ b.seats[j.puller]? = some j.sub ∧ b.record k = j.life r failure := by
  by_cases h : ∃ j ∈ b.jobs, j.number = k
  · exact Or.inl h
  · refine Or.inr (hb.gone k hk fun j hj he ↦ h ⟨j, hj, he⟩)

/-- A job is gone as soon as its settlement was answered or given up, and not before. -/
theorem mem_iff (hb : b.Recorded) : (∃ j ∈ b.jobs, j.number = k) ↔ k < b.jobsBegun ∧
    ∀ tick h x failure, (tick, .settled k h x failure) ∉ b.journal := by
  constructor
  · rintro ⟨j, hj, rfl⟩
    refine ⟨hb.begun j hj, fun tick h x failure hmem ↦ ?_⟩
    exact (hb.present j hj).not_settled (mem_record.2 ⟨⟨tick, hmem⟩, rfl⟩)
  · rintro ⟨hk, hsettled⟩
    refine (hb.mem_or_life hk).resolve_right ?_
    rintro ⟨j, r, failure, rfl, -, hlife⟩
    have hmem : .settled j.number j.delivery.handle (Outcome.ofResult r).settlement failure ∈
        b.record j.number := by simp [hlife, Job.life]
    obtain ⟨⟨tick, hmem⟩, -⟩ := mem_record.1 hmem
    exact hsettled _ _ _ _ hmem

/-- A puller that was given a delivery has its seat. -/
theorem seat_of_fetched (hb : b.Recorded) {tick : Nat} {h : Handle}
    (hmem : (tick, .fetched n k h) ∈ b.journal) : ∃ sub, b.seats[n]? = some sub := by
  have hrecord : .fetched n k h ∈ b.record k := mem_record.2 ⟨⟨tick, hmem⟩, rfl⟩
  rcases hb.mem_or_life (hb.lt_of_mem hmem rfl) with
    ⟨j, hj, rfl⟩ | ⟨j, r, failure, rfl, hseat, hlife⟩
  · obtain ⟨rfl, -, -⟩ := (hb.present j hj).fetched hrecord
    exact ⟨j.sub, hb.placed j hj⟩
  · obtain ⟨rfl, -⟩ : n = j.puller ∧ h = j.delivery.handle := by
      simpa [hlife, Job.life] using hrecord
    exact ⟨j.sub, hseat⟩

/-- What was fetched and not settled yet has its job. -/
theorem exists_job_of_unsettled (hb : b.Recorded) {tick : Nat} {h : Handle}
    (hmem : (tick, .fetched n k h) ∈ b.journal)
    (hsettled : ∀ tick h x failure, (tick, .settled k h x failure) ∉ b.journal) :
    ∃ j ∈ b.jobs, j.number = k ∧ j.delivery.handle = h ∧ b.seats[n]? = some j.sub := by
  obtain ⟨j, hj, rfl⟩ := hb.mem_iff.2 ⟨hb.lt_of_mem hmem rfl, hsettled⟩
  obtain ⟨rfl, -, rfl⟩ := (hb.present j hj).fetched (mem_record.2 ⟨⟨tick, hmem⟩, rfl⟩)
  exact ⟨j, hj, rfl, rfl, hb.placed j hj⟩

end Recorded

end Books

/-! ### Along a run -/

/-- A supervisor that was just built has done nothing, and nobody is at work. -/
theorem Plan.of_build {p : Plan} {s : State} (h : p.build = .ok s) :
    ∃ (setup : Setup) (slots : List Slots), Plan.pools [] p.subscriptions = .ok slots ∧
      setup.subscriptions = p.subscriptions ∧ setup.client = p.client ∧
      setup.metered = p.metered ∧ s.books = ⟨setup, 0, slots, [], [], 0, p.broker, {}, []⟩ ∧
      s.calls = [] ∧ s.running = none ∧ s.stopping = [] ∧ s.draining = [] := by
  rw [Plan.build] at h
  split at h
  · exact absurd h (by simp)
  · exact absurd h (by simp)
  · split at h
    · exact absurd h (by simp)
    · next slots hpools =>
      cases h
      exact ⟨_, slots, hpools, rfl, rfl, rfl, rfl, rfl, rfl, rfl, rfl⟩

theorem Plan.recorded_of_build {p : Plan} {s : State} (h : p.build = .ok s) :
    s.books.Recorded := by
  obtain ⟨setup, slots, -, -, -, -, hbooks, -⟩ := Plan.of_build h
  rw [hbooks]
  exact {
    seated := fun _ hsub ↦ absurd hsub List.not_mem_nil
    once := List.nodup_nil
    begun := fun _ hj ↦ absurd hj List.not_mem_nil
    placed := fun _ hj ↦ absurd hj List.not_mem_nil
    present := fun _ hj ↦ absurd hj List.not_mem_nil
    gone := fun k hk ↦ absurd hk (Nat.not_lt_zero k)
    future := fun _ _ ↦ rfl }

/-- Nothing changes the setup. -/
theorem Deed.setup_eq {b b' : Books} (h : Deed b b') : b'.setup = b.setup := by
  cases h with
  | finish _ _ => simp [Books.setJobPhase, Books.changeJob, Books.measure, Books.note]
  | settle _ _ _ => simp [Books.giveBack, Books.dropJob, Books.note]
  | _ => rfl

theorem Runs.setup_eq {allowed : State → Move → Prop} {s t : State} (h : Runs allowed s t) :
    t.setup = s.setup :=
  h.books_induction (P := fun b ↦ b.setup = s.setup) (fun _ _ hdeed hb ↦ hdeed.setup_eq.trans hb)
    (fun _ _ _ hb ↦ hb) (fun _ _ _ hb ↦ hb) rfl

/-- What the plan asks for is what the supervisor has. -/
theorem Runs.setup_of_build {allowed : State → Move → Prop} {p : Plan} {s t : State}
    (hbuild : p.build = .ok s) (h : Runs allowed s t) :
    t.setup.subscriptions = p.subscriptions ∧ t.setup.client = p.client ∧
      t.setup.metered = p.metered := by
  obtain ⟨setup, slots, -, hsubs, hclient, hmetered, hbooks, -⟩ := Plan.of_build hbuild
  obtain rfl : t.setup = setup := h.setup_eq.trans (congrArg Books.setup hbooks)
  exact ⟨hsubs, hclient, hmetered⟩

section Induction

variable {allowed : State → Move → Prop} {p : Plan} {s t : State} {P : Books → Prop}

/-- **The journal keeps up with the jobs all along a run**, whatever strangers do to the broker. -/
theorem Runs.recorded (hbuild : p.build = .ok s) (h : Runs allowed s t) : t.books.Recorded :=
  h.books_induction (fun _ _ hdeed hb ↦ hb.deed hdeed)
    (fun _ token reporter hb ↦ hb.spawn token reporter)
    (fun _ _ _ hb ↦ hb.aside rfl rfl rfl rfl fun _ ↦ rfl) (Plan.recorded_of_build hbuild)

/-- Whoever follows the books along a run may use that the journal keeps up with the jobs. -/
theorem Runs.recorded_induction (hbuild : p.build = .ok s) (h : Runs allowed s t)
    (deed : ∀ b b', Deed b b' → b.Recorded → P b → P b')
    (spawn : ∀ b token reporter, b.Recorded → P b →
      P (b.spawn token reporter 0 b.setup.subscriptions.length))
    (meddle : ∀ s x, allowed s (.meddle x) → s.books.Recorded → P s.books →
      P { s.books with broker := x })
    (hs : P s.books) : P t.books := by
  refine (h.books_induction (P := fun b ↦ b.Recorded ∧ P b) ?_ ?_ ?_
    ⟨Plan.recorded_of_build hbuild, hs⟩).2
  · rintro b b' hdeed ⟨hrecorded, hb⟩
    exact ⟨hrecorded.deed hdeed, deed b b' hdeed hrecorded hb⟩
  · rintro b token reporter ⟨hrecorded, hb⟩
    exact ⟨hrecorded.spawn token reporter, spawn b token reporter hrecorded hb⟩
  · rintro u x hmeddle ⟨hrecorded, hb⟩
    exact ⟨hrecorded.aside rfl rfl rfl rfl fun _ ↦ rfl, meddle u x hmeddle hrecorded hb⟩

/-- The same for a run in which strangers only fetch. -/
theorem Runs.settling_induction (hbuild : p.build = .ok s) (h : Runs onlyJobsSettle s t)
    (deed : ∀ b b', Deed b b' → b.Recorded → P b → P b')
    (spawn : ∀ b token reporter, b.Recorded → P b →
      P (b.spawn token reporter 0 b.setup.subscriptions.length))
    (ask : ∀ b : Books, P b → P { b with broker := b.broker.beginFetch.2 })
    (take : ∀ (b : Books) c d x, b.broker.take? c = .ok (some (d, x)) → P b →
      P { b with broker := x })
    (hs : P s.books) : P t.books := by
  refine h.recorded_induction hbuild deed spawn (fun u x hmeddle _ hu ↦ ?_) hs
  rcases hmeddle x rfl with rfl | ⟨c, d, htake⟩
  · exact ask _ hu
  · exact take _ c d x htake hu

/-- The same for a run without strangers. -/
theorem Runs.own_induction (hbuild : p.build = .ok s) (h : Runs own s t)
    (deed : ∀ b b', Deed b b' → b.Recorded → P b → P b')
    (spawn : ∀ b token reporter, b.Recorded → P b →
      P (b.spawn token reporter 0 b.setup.subscriptions.length))
    (hs : P s.books) : P t.books :=
  h.recorded_induction hbuild deed spawn
    (fun _ _ hmeddle _ _ ↦ absurd hmeddle (by simp [own, Move.isOwn])) hs

end Induction

end PullConsumer.Supervisor
