import PullConsumer.Proofs.Supervisor.Capacity
import PullConsumer.Proofs.Supervisor.Flights
import PullConsumer.Proofs.Supervisor.Usage

/-!
# The file of a subscription

The journal tells of jobs among much else. What it tells of them (`Books.doings`) grows by one entry
at a time: a job is begun, or one that is there goes on (`Books.Does`). The jobs that were begun for
a subscription, in that order, are its file (`Books.filed`).

Where a subscription may have one job at a time, only the last job of its file can be there, since
whoever begins another one holds the only slot. Whatever a job tells is then told after all that was
told of those before it, so that the entries about the whole file are the records of its jobs, one
after the other (`Books.Filed`).
-/

namespace PullConsumer.Supervisor

/-! ### What is told of jobs -/

/-- A puller was given a delivery and began a job for it. -/
def Entry.begun? : Entry → Option (Nat × Nat)
  | fetched n k _ => some (n, k)
  | _ => none

namespace Books

variable {b b' : Books} {j : Job} {n k sub : Nat}

/-- What the journal tells about jobs, the first one first. -/
def doings (b : Books) : List Entry := b.tellings fun e ↦ if e.job?.isSome then some e else none

theorem mem_doings {e : Entry} :
    e ∈ b.doings ↔ (∃ tick, (tick, e) ∈ b.journal) ∧ e.job?.isSome = true := by
  rw [doings, tellings, List.mem_filterMap]
  constructor
  · rintro ⟨⟨tick, x⟩, hmem, hx⟩
    rw [Option.ite_none_right_eq_some] at hx
    obtain ⟨hjob, heq⟩ := hx
    obtain rfl := Option.some.inj heq
    exact ⟨⟨tick, List.mem_reverse.1 hmem⟩, hjob⟩
  · rintro ⟨⟨tick, hmem⟩, hjob⟩
    exact ⟨(tick, e), List.mem_reverse.2 hmem, if_pos hjob⟩

theorem doings_note {e : Entry} (he : e.job? = some k) : (b.note e).doings = b.doings ++ [e] := by
  rw [doings, tellings_note, he]
  rfl

theorem doings_note_of_none {e : Entry} (he : e.job? = none) : (b.note e).doings = b.doings := by
  rw [doings, tellings_note, he]
  exact List.append_nil _

@[simp] theorem doings_publishFor (b : Books) (sub : Nat) (e : Event) :
    (b.publishFor sub e).doings = b.doings :=
  doings_note_of_none rfl

@[simp] theorem doings_measure (b : Books) (sub : Nat) (m : Measurement) :
    (b.measure sub m).doings = b.doings := rfl

@[simp] theorem doings_reportResult (b : Books) (sub : Nat) (r : HandlerResult) :
    (b.reportResult sub r).doings = b.doings := by
  rw [reportResult]
  split
  · simp
  · rfl

@[simp] theorem doings_reportSettled (b : Books) (sub : Nat) (outcome : Outcome) :
    (b.reportSettled sub outcome).doings = b.doings := by
  rw [reportSettled]
  split
  · rfl
  · simp

@[simp] theorem doings_reportUnsettled (b : Books) (sub : Nat) (x : Settlement) (reason : String) :
    (b.reportUnsettled sub x reason).doings = b.doings := by
  simp [reportUnsettled]

theorem doings_beginJob (b : Books) (n : Nat) (p : Puller) (d : Delivery) :
    (b.beginJob n p d).doings = b.doings ++ [.fetched n b.jobsBegun d.handle] :=
  doings_note rfl

/-- No job is added, and none comes to another subscription. -/
def Stay (b b' : Books) : Prop := ∀ i ∈ b'.jobs, ∃ j ∈ b.jobs, j.number = i.number ∧ j.sub = i.sub

theorem Stay.of_eq (h : b'.jobs = b.jobs) : Stay b b' := fun i hi ↦ ⟨i, h ▸ hi, rfl, rfl⟩

theorem stay_changeJob {f : Job → Job} (hf : ∀ i, (f i).number = i.number ∧ (f i).sub = i.sub)
    (h : b'.jobs = (b.changeJob n f).jobs) : Stay b b' := by
  intro i hi
  rcases mem_changeJob (h ▸ hi) with hi | ⟨j, hj, rfl⟩
  · exact ⟨i, hi, rfl, rfl⟩
  · exact ⟨j, hj, (hf j).1.symm, (hf j).2.symm⟩

theorem stay_setJobPhase (n : Nat) (phase : Job.Phase)
    (h : b'.jobs = (b.setJobPhase n phase).jobs) : Stay b b' :=
  stay_changeJob (f := fun i ↦ { i with phase }) (fun _ ↦ ⟨rfl, rfl⟩) h

theorem stay_dropJob (h : b'.jobs = (b.dropJob n).jobs) : Stay b b' :=
  fun i hi ↦ ⟨i, (List.mem_filter.1 (h ▸ hi)).1, rfl, rfl⟩

/-- **What a deed has to do with jobs**: nothing is told of any, one of those that are there tells
something, or one is begun by a puller that holds a slot. -/
inductive Does (b b' : Books) : Prop
  | aside (hdoings : b'.doings = b.doings) (hcount : b'.jobsBegun = b.jobsBegun)
      (hjobs : Stay b b')
  | tells {j : Job} {e : Entry} (hj : j ∈ b.jobs) (he : e.job? = some j.number)
      (hbegun : e.begun? = none) (hdoings : b'.doings = b.doings ++ [e])
      (hcount : b'.jobsBegun = b.jobsBegun) (hjobs : Stay b b')
  | begins {n : Nat} {p : Puller} {d : Delivery} (hp : b.pullers[n]? = some p)
      (hslot : p.phase.holdsSlot = true)
      (hdoings : b'.doings = b.doings ++ [.fetched n b.jobsBegun d.handle])
      (hcount : b'.jobsBegun = b.jobsBegun + 1)
      (hjobs : ∀ i ∈ b'.jobs, i ∈ b.jobs ∨ i.number = b.jobsBegun ∧ i.sub = p.sub)

theorem does_deed (h : Deed b b') : Does b b' := by
  cases h with
  | report _ => exact .aside (doings_note_of_none rfl) rfl (.of_eq rfl)
  | fatal _ _ => exact .aside (doings_note_of_none rfl) rfl (.of_eq rfl)
  | gauge _ _ => exact .aside (doings_note_of_none rfl) rfl (.of_eq rfl)
  | ask _ _ => exact .aside (doings_note_of_none rfl) rfl (.of_eq rfl)
  | @receive n p c d x hp hslot _ =>
    refine .begins hp hslot (doings_beginJob ..) rfl fun i hi ↦ ?_
    rcases List.mem_append.1 hi with hi | hi
    · exact Or.inl hi
    · obtain rfl := List.mem_singleton.1 hi
      exact Or.inr ⟨rfl, rfl⟩
  | @call j lag count phase hj _ _ _ =>
    exact .tells hj rfl rfl (doings_note rfl) rfl
      (stay_changeJob (f := fun i ↦ { i with count, phase }) (fun _ ↦ ⟨rfl, rfl⟩) rfl)
  | rest _ _ _ => exact .aside rfl rfl (stay_setJobPhase _ _ rfl)
  | @finish j r giveUpDue hj _ =>
    refine .tells hj rfl rfl ((doings_reportResult ..).trans (doings_note rfl))
      (by simp [setJobPhase, changeJob, measure, note]) ?_
    refine stay_setJobPhase j.number (.settling (.ofResult r)
      (b.now + b.setup.client.settleTicks (Outcome.ofResult r).settlement) giveUpDue) ?_
    simp [setJobPhase, changeJob, measure, note]
  | await _ _ => exact .aside rfl rfl (stay_setJobPhase _ _ rfl)
  | @settle j outcome answerDue giveUpDue hj _ _ =>
    exact .tells hj rfl rfl ((doings_reportSettled ..).trans (doings_note rfl))
      (by simp [giveBack, dropJob, note])
      (stay_dropJob (n := j.number) (by simp [giveBack, dropJob, note]))
  | fail hj _ _ =>
    exact .tells hj rfl rfl ((doings_reportUnsettled ..).trans (doings_note rfl)) rfl
      (stay_dropJob rfl)
  | _ => exact .aside rfl rfl (.of_eq rfl)

/-! ### Jobs that were begun -/

/-- The jobs that were begun, each with its puller, the first one first. -/
def begun (b : Books) : List (Nat × Nat) := b.doings.filterMap Entry.begun?

theorem begun_of_doings (h : b'.doings = b.doings) : b'.begun = b.begun := by
  rw [begun, h, begun]

theorem begun_of_tells {e : Entry} (hdoings : b'.doings = b.doings ++ [e]) (he : e.begun? = none) :
    b'.begun = b.begun := by
  rw [begun, hdoings, List.filterMap_append, begun]
  simp [he]

theorem begun_beginJob (b : Books) (n : Nat) (p : Puller) (d : Delivery) :
    (b.beginJob n p d).begun = b.begun ++ [(n, b.jobsBegun)] := by
  rw [begun, doings_beginJob, List.filterMap_append]
  rfl

/-- The journal tells of as many jobs as are begun. -/
theorem begun_deed (h : Deed b b') :
    ∃ new, b'.begun = b.begun ++ new ∧ b'.jobsBegun = b.jobsBegun + new.length := by
  cases does_deed h with
  | aside hdoings hcount _ =>
    exact ⟨[], (begun_of_doings hdoings).trans (List.append_nil _).symm, hcount⟩
  | tells _ _ hbegun hdoings hcount _ =>
    exact ⟨[], (begun_of_tells hdoings hbegun).trans (List.append_nil _).symm, hcount⟩
  | @begins n p d _ _ hdoings hcount _ =>
    refine ⟨[(n, b.jobsBegun)], ?_, hcount⟩
    rw [begun, hdoings, List.filterMap_append, begun]
    rfl

/-- Where no job is begun, none is told of. -/
theorem begun_eq (h : Deeds b b') (hcount : b'.jobsBegun = b.jobsBegun) : b'.begun = b.begun := by
  suffices hnew : ∃ new, b'.begun = b.begun ++ new ∧ b'.jobsBegun = b.jobsBegun + new.length by
    obtain ⟨new, hbegun, hlength⟩ := hnew
    have hnil : new = [] := List.length_eq_zero_iff.1 (by omega)
    rw [hbegun, hnil, List.append_nil]
  clear hcount
  induction h with
  | refl => exact ⟨[], (List.append_nil _).symm, rfl⟩
  | tail _ hlast ih =>
    obtain ⟨new, hbegun, hlength⟩ := ih
    obtain ⟨more, hbegun', hlength'⟩ := begun_deed hlast
    refine ⟨new ++ more, by rw [hbegun', hbegun, List.append_assoc], ?_⟩
    rw [hlength', hlength, List.length_append, Nat.add_assoc]

/-- The jobs that were begun by the pullers of a subscription, the first one first. -/
def filed (b : Books) (sub : Nat) : List Nat :=
  (b.begun.filter fun x ↦ b.seats[x.1]? = some sub).map (·.2)

/-- Whoever has begun a job was given a delivery for it. -/
theorem mem_begun {x : Nat × Nat} :
    x ∈ b.begun ↔ ∃ tick h, (tick, .fetched x.1 x.2 h) ∈ b.journal := by
  simp only [begun, List.mem_filterMap, mem_doings]
  constructor
  · rintro ⟨e, ⟨⟨tick, hmem⟩, -⟩, hbegun⟩
    cases e with
    | fetched n k h =>
      obtain rfl := Option.some.inj hbegun
      exact ⟨tick, h, hmem⟩
    | _ => exact absurd hbegun (by simp [Entry.begun?])
  · rintro ⟨tick, h, hmem⟩
    exact ⟨_, ⟨⟨tick, hmem⟩, rfl⟩, rfl⟩

theorem lt_of_filed (hb : b.Recorded) (hk : k ∈ b.filed sub) : k < b.jobsBegun := by
  obtain ⟨x, hx, rfl⟩ := List.mem_map.1 hk
  obtain ⟨tick, h, hmem⟩ := mem_begun.1 (List.mem_filter.1 hx).1
  exact hb.lt_of_mem hmem rfl

/-- A job that is in the file of a subscription serves it. -/
theorem sub_of_filed (hb : b.Recorded) (hj : j ∈ b.jobs) (hk : j.number ∈ b.filed sub) :
    j.sub = sub := by
  obtain ⟨⟨n, k⟩, hx, rfl⟩ := List.mem_map.1 hk
  obtain ⟨hbegun, hseat⟩ := List.mem_filter.1 hx
  obtain ⟨tick, h, hmem⟩ := mem_begun.1 hbegun
  obtain ⟨rfl, -, -⟩ := (hb.present j hj).fetched (mem_record.2 ⟨⟨tick, hmem⟩, rfl⟩)
  exact Option.some.inj ((hb.placed j hj).symm.trans (of_decide_eq_true hseat))

/-- Whoever has begun a job had a seat then; as long as he keeps it, others may come. -/
theorem filter_begun (hb : b.Recorded)
    (hseats : ∀ (n sub : Nat), b.seats[n]? = some sub → b'.seats[n]? = some sub) (sub : Nat) :
    (b.begun.filter fun x ↦ b'.seats[x.1]? = some sub) =
      b.begun.filter fun x ↦ b.seats[x.1]? = some sub := by
  refine List.filter_congr fun x hx ↦ ?_
  obtain ⟨tick, h, hmem⟩ := mem_begun.1 hx
  obtain ⟨sub', hseat⟩ := hb.seat_of_fetched hmem
  rw [hseats _ _ hseat, hseat]

/-! ### One after the other -/

/-- The record of a job is what is told of it. -/
theorem reverse_record (b : Books) (k : Nat) :
    (b.record k).reverse = b.doings.filter fun e ↦ e.job? = some k := by
  rw [record, about, doings, tellings, ← List.filter_reverse, ← List.map_reverse]
  generalize b.journal.reverse = journal
  induction journal with
  | nil => rfl
  | cons entry rest ih =>
    obtain ⟨tick, e⟩ := entry
    rw [List.map_cons, List.filter_cons, ih, List.filterMap_cons]
    cases h : e.job? with
    | none => simp
    | some i => simp [List.filter_cons, h]

/-- What is told of some jobs, the first one first. -/
def trace (b : Books) (ks : List Nat) : List Entry := b.doings.filter fun e ↦ e.job?.any (· ∈ ks)

section Tells

variable {e : Entry} (hdoings : b'.doings = b.doings ++ [e]) (he : e.job? = some n)

include hdoings he

/-- What a job tells is added to its record. -/
theorem reverse_record_of_tells (k : Nat) :
    (b'.record k).reverse = (b.record k).reverse ++ if n = k then [e] else [] := by
  rw [reverse_record, reverse_record, hdoings, List.filter_append]
  by_cases h : n = k <;> simp [he, h]

theorem record_of_tells (hne : n ≠ k) : b'.record k = b.record k := by
  have h := reverse_record_of_tells hdoings he k
  rw [if_neg hne, List.append_nil] at h
  exact List.reverse_injective h

theorem trace_of_tells (ks : List Nat) :
    b'.trace ks = b.trace ks ++ if n ∈ ks then [e] else [] := by
  rw [trace, hdoings, List.filter_append, ← trace]
  by_cases h : n ∈ ks <;> simp [he, h]

end Tells

/-- A file is kept one job after the other: only the last of them can be there, and what is told of
all of them are their records in that order. -/
structure Filed (b : Books) (sub : Nat) : Prop where
  nodup : (b.filed sub).Nodup
  last : ∀ j ∈ b.jobs, j.sub = sub → (b.filed sub).getLast? = some j.number
  trace : b.trace (b.filed sub) = (b.filed sub).flatMap fun k ↦ (b.record k).reverse

theorem seats_deed (h : Deed b b') : b'.seats = b.seats := by
  cases h with
  | turn _ _ _ _ => exact seats_setPhase ..
  | reserve _ _ _ _ => exact seats_setPhase ..
  | expect _ _ _ => exact seats_setPhase ..
  | receive _ _ _ => exact seats_setPhase ..
  | release _ _ _ => exact seats_setPhase ..
  | finish _ _ => simp [seats, setJobPhase, changeJob, measure, note]
  | settle _ _ _ => simp [seats, giveBack, dropJob, note]
  | _ => rfl

namespace Filed

/-- The file stays as it is, and so does what is told of its jobs. -/
theorem aside (hb : b.Filed sub) (hfiled : b'.filed sub = b.filed sub) (hjobs : Stay b b')
    (htrace : b'.trace (b.filed sub) = b.trace (b.filed sub))
    (hrecord : ∀ k ∈ b.filed sub, b'.record k = b.record k) : b'.Filed sub where
  nodup := hfiled ▸ hb.nodup
  last i hi hsub := by
    obtain ⟨j, hj, hnumber, hsame⟩ := hjobs i hi
    rw [hfiled, ← hnumber]
    exact hb.last j hj (hsame.trans hsub)
  trace := by
    rw [hfiled, htrace, hb.trace]
    exact List.flatMap_congr fun k hk ↦ by rw [hrecord k hk]

/-- A job that is there tells something: if it is in the file, it is the last one there. -/
theorem tells (hb : b.Filed sub) (hrecorded : b.Recorded) (hj : j ∈ b.jobs) {e : Entry}
    (he : e.job? = some j.number) (hfiled : b'.filed sub = b.filed sub) (hjobs : Stay b b')
    (hdoings : b'.doings = b.doings ++ [e]) : b'.Filed sub := by
  have htrace := trace_of_tells hdoings he (b.filed sub)
  by_cases hmem : j.number ∈ b.filed sub
  · refine ⟨hfiled ▸ hb.nodup, fun i hi hsub ↦ ?_, ?_⟩
    · obtain ⟨i', hi', hnumber, hsame⟩ := hjobs i hi
      rw [hfiled, ← hnumber]
      exact hb.last i' hi' (hsame.trans hsub)
    · obtain ⟨before, hlast⟩ :=
        List.getLast?_eq_some_iff.1 (hb.last j hj (sub_of_filed hrecorded hj hmem))
      have hnew : ∀ k ∈ before, j.number ≠ k := by
        rintro k hk rfl
        have hnodup := hb.nodup
        rw [hlast, List.nodup_append] at hnodup
        exact hnodup.2.2 _ hk _ (List.mem_singleton_self _) rfl
      rw [hfiled, htrace, if_pos hmem, hb.trace, hlast, List.flatMap_append, List.flatMap_append,
        List.append_assoc]
      refine congrArg₂ (· ++ ·) (List.flatMap_congr fun k hk ↦ ?_) ?_
      · rw [record_of_tells hdoings he (hnew k hk)]
      · rw [List.flatMap_singleton, List.flatMap_singleton, reverse_record_of_tells hdoings he,
          if_pos rfl]
  · refine hb.aside hfiled hjobs ?_ fun k hk ↦ record_of_tells hdoings he fun h ↦ hmem (h ▸ hk)
    rw [htrace, if_neg hmem, List.append_nil]

section Begins

variable {h : Handle} (hb : b.Filed sub) (hrecorded : b.Recorded)
  (hdoings : b'.doings = b.doings ++ [.fetched n b.jobsBegun h])

include hrecorded in
theorem number_ne (hk : k ∈ b.filed sub) : b.jobsBegun ≠ k :=
  Nat.ne_of_gt (lt_of_filed hrecorded hk)

include hrecorded in
/-- Nothing was told of the new job before. -/
theorem trace_concat : b.trace (b.filed sub ++ [b.jobsBegun]) = b.trace (b.filed sub) := by
  have hfuture : ∀ e ∈ b.doings, e.job? ≠ some b.jobsBegun := by
    have hnil := reverse_record b b.jobsBegun
    rw [hrecorded.future _ (Nat.le_refl _), List.reverse_nil] at hnil
    simpa using List.filter_eq_nil_iff.1 hnil.symm
  refine List.filter_congr fun e he ↦ ?_
  have hne := hfuture e he
  cases hjob : e.job? with
  | none => rfl
  | some k => simp [show k ≠ b.jobsBegun from fun h ↦ hne (hjob.trans (congrArg some h))]

include hb hrecorded hdoings

/-- The records of the jobs in the file are what they were. -/
theorem records_eq :
    (b.filed sub).flatMap (fun k ↦ (b'.record k).reverse) = b.trace (b.filed sub) := by
  rw [hb.trace]
  refine List.flatMap_congr fun k hk ↦ ?_
  rw [record_of_tells hdoings rfl (number_ne hrecorded hk)]

/-- A job for another subscription. -/
theorem begins_elsewhere (hfiled : b'.filed sub = b.filed sub)
    (hjobs : ∀ i ∈ b'.jobs, i.sub = sub → i ∈ b.jobs) : b'.Filed sub where
  nodup := hfiled ▸ hb.nodup
  last i hi hsub := by
    rw [hfiled]
    exact hb.last i (hjobs i hi hsub) hsub
  trace := by
    have hnew : b.jobsBegun ∉ b.filed sub := fun hk ↦ number_ne hrecorded hk rfl
    rw [hfiled, trace_of_tells hdoings rfl, if_neg hnew, List.append_nil,
      records_eq hb hrecorded hdoings]

/-- A job for the subscription, of which no other job is there. -/
theorem begins_here (hfiled : b'.filed sub = b.filed sub ++ [b.jobsBegun])
    (hjobs : ∀ i ∈ b'.jobs, i.sub = sub → i.number = b.jobsBegun) : b'.Filed sub where
  nodup := by
    rw [hfiled]
    exact List.nodup_append.2 ⟨hb.nodup, List.nodup_singleton _, fun k hk k' hk' ↦
      List.mem_singleton.1 hk' ▸ (number_ne hrecorded hk).symm⟩
  last i hi hsub := by rw [hfiled, List.getLast?_concat, hjobs i hi hsub]
  trace := by
    rw [hfiled, trace_of_tells hdoings rfl, if_pos (by simp), trace_concat hrecorded,
      List.flatMap_append, records_eq hb hrecorded hdoings, List.flatMap_singleton,
      reverse_record_of_tells hdoings rfl, if_pos rfl, hrecorded.future _ (Nat.le_refl _)]
    rfl

/-- **A job is begun**, by whoever holds a slot. Where it is for the subscription, no other job of it
is there. -/
theorem begins {p : Puller} (hp : b.pullers[n]? = some p)
    (halone : p.sub = sub → b.working sub = 0) (hseats : b'.seats = b.seats)
    (hjobs : ∀ i ∈ b'.jobs, i ∈ b.jobs ∨ i.number = b.jobsBegun ∧ i.sub = p.sub) :
    b'.Filed sub := by
  have hseat : b.seats[n]? = some p.sub := by
    rw [seats, List.getElem?_map, hp]
    rfl
  have hfiled : b'.filed sub = b.filed sub ++ if p.sub = sub then [b.jobsBegun] else [] := by
    rw [filed, begun, hdoings, List.filterMap_append, ← begun, List.filter_append, hseats,
      List.map_append, ← filed]
    by_cases hsub : p.sub = sub <;> simp [Entry.begun?, hseat, hsub]
  by_cases hsub : p.sub = sub
  · rw [if_pos hsub] at hfiled
    refine begins_here hb hrecorded hdoings hfiled fun i hi hi' ↦ ?_
    rcases hjobs i hi with hi | ⟨hnumber, -⟩
    · have hnone := List.countP_eq_zero.1 (halone hsub) i hi
      exact absurd hi' (by simpa using hnone)
    · exact hnumber
  · rw [if_neg hsub, List.append_nil] at hfiled
    refine begins_elsewhere hb hrecorded hdoings hfiled fun i hi hi' ↦ ?_
    exact (hjobs i hi).resolve_right fun hnew ↦ hsub (hnew.2.symm.trans hi')

end Begins

/-- **Every deed keeps the file of a subscription that may have one job at a time.** -/
theorem deed (h : Deed b b') (hrecorded : b.Recorded) (hcounted : b.Counted) {x : Subscription}
    (hx : b.setup.subscriptions[sub]? = some x) (hone : x.maxConcurrency = 1)
    (hb : b.Filed sub) : b'.Filed sub := by
  have hseats := seats_deed h
  have hfiled (hbegun : b'.begun = b.begun) : b'.filed sub = b.filed sub := by
    rw [filed, hbegun, hseats, filed]
  cases does_deed h with
  | aside hdoings _ hjobs =>
    refine hb.aside (hfiled (begun_of_doings hdoings)) hjobs ?_ fun k _ ↦ ?_
    · rw [Books.trace, hdoings, Books.trace]
    · refine List.reverse_injective ?_
      rw [reverse_record, hdoings, reverse_record]
  | tells hj he hbegun hdoings _ hjobs =>
    exact hb.tells hrecorded hj he (hfiled (begun_of_tells hdoings hbegun)) hjobs hdoings
  | @begins n p d hp hslot hdoings _ hjobs =>
    refine begins hb hrecorded hdoings hp (fun hsub ↦ ?_) hseats hjobs
    obtain ⟨hinUse, hle⟩ := hcounted.inUse hx
    have hfetching : 0 < b.fetching sub :=
      List.countP_pos_iff.2 ⟨p, List.mem_of_getElem? hp, by simp [hsub, hslot]⟩
    omega

end Filed

end Books

/-! ### Along a run -/

/-- **A subscription that may have one job at a time has its jobs one after the other**, all along a
run and whoever moves. -/
theorem Runs.filed {allowed : State → Move → Prop} {p : Plan} {s t : State}
    (hbuild : p.build = .ok s) (h : Runs allowed s t) {sub : Nat} {x : Subscription}
    (hx : p.subscriptions[sub]? = some x) (hone : x.maxConcurrency = 1) : t.books.Filed sub := by
  have hsubs : s.setup.subscriptions[sub]? = some x :=
    ((Runs.refl s : Runs anything s s).setup_of_build hbuild).1 ▸ hx
  refine (h.recorded_induction (P := fun b ↦ (b.setup.subscriptions[sub]? = some x ∧ b.Counted) ∧
    b.Filed sub) hbuild ?_ ?_ ?_ ?_).2
  · rintro b b' hdeed hrecorded ⟨⟨hx, hcounted⟩, hb⟩
    refine ⟨⟨?_, hcounted.deed hdeed hrecorded⟩, hb.deed hdeed hrecorded hcounted hx hone⟩
    rwa [hdeed.setup_eq]
  · rintro b token reporter hrecorded ⟨⟨hx, hcounted⟩, hb⟩
    refine ⟨⟨hx, hcounted.spawn token reporter _ _⟩, ?_⟩
    refine hb.aside ?_ (.of_eq rfl) rfl fun _ _ ↦ rfl
    exact congrArg (List.map Prod.snd)
      (Books.filter_begun hrecorded (fun _ _ hseat ↦ Books.seat_spawn hseat ..) sub)
  · rintro u b - - ⟨⟨hx, hcounted⟩, hb⟩
    exact ⟨⟨hx, hcounted.aside rfl rfl fun _ ↦ rfl⟩, hb.aside rfl (.of_eq rfl) rfl fun _ _ ↦ rfl⟩
  · obtain ⟨setup, slots, -, -, -, -, hbooks, -⟩ := Plan.of_build hbuild
    refine ⟨⟨hsubs, (Plan.counted_of_build hbuild).1⟩, ?_⟩
    rw [hbooks]
    exact ⟨List.nodup_nil, fun j hj ↦ absurd hj List.not_mem_nil, rfl⟩

end PullConsumer.Supervisor
