import PullConsumer.Proofs.Supervisor.Pools
import PullConsumer.Proofs.Supervisor.Records

/-!
# The bound on concurrency

A slot is held by a puller that fetches or by a job, and by nobody else: the number of slots in use
is the number of those (`Counted`). A slot passes from the puller to the job without ever being
free, and a job gives it back in the very deed that settles its delivery. All else follows by
counting: a puller that fetches leaves at most one slot less than all to the jobs, and a handler is
called only by a job.

What is true of every state is also true of every moment in between. The journal is therefore
looked at from each of its entries back (`Bounded`), so that two handlers which are called in one
and the same turn are counted too.
-/

namespace PullConsumer.Supervisor

@[simp] theorem Puller.holdsSlot_eq (p : Puller) : p.holdsSlot = p.phase.holdsSlot := by
  unfold Puller.holdsSlot Phase.holdsSlot
  cases p.phase <;> rfl

namespace Books

variable {b b' : Books} {n sub : Nat} {p : Puller} {j : Job}

/-! ### Who holds a slot -/

/-- The number of pullers of a subscription that hold a slot. -/
def fetching (b : Books) (sub : Nat) : Nat :=
  b.pullers.countP fun p ↦ p.sub = sub && p.phase.holdsSlot

/-- The number of jobs of a subscription. -/
def working (b : Books) (sub : Nat) : Nat := b.jobs.countP fun j ↦ j.sub = sub

/-- Of a puller in some phase, whether it holds a slot of a subscription, as a number. -/
def share (p : Puller) (phase : Puller.Phase) (sub : Nat) : Nat :=
  if p.sub = sub && phase.holdsSlot then 1 else 0

theorem fetching_setPhase (hp : b.pullers[n]? = some p) (phase : Puller.Phase) (sub : Nat) :
    (b.setPhase n phase).fetching sub + share p p.phase sub =
      b.fetching sub + share p phase sub :=
  countP_setPhase hp phase _

theorem working_changeJob (hn : (b.jobs.map Job.number).Nodup) (hj : j ∈ b.jobs) {f : Job → Job}
    (hf : (f j).sub = j.sub) (sub : Nat) :
    (b.changeJob j.number f).working sub = b.working sub := by
  have h := countP_changeJob hn hj f fun j ↦ j.sub = sub
  rw [hf] at h
  exact Nat.add_right_cancel h

theorem working_dropJob (hn : (b.jobs.map Job.number).Nodup) (hj : j ∈ b.jobs) (sub : Nat) :
    (b.dropJob j.number).working sub + (if j.sub = sub then 1 else 0) = b.working sub := by
  have h := countP_dropJob hn hj fun j ↦ j.sub = sub
  simp only [decide_eq_true_eq] at h
  exact h

/-! ### Slots are accounted for -/

/-- Each subscription has a pool of the size it asks for, and the slots in use are held by pullers
that fetch and by jobs. -/
def Counted (b : Books) : Prop :=
  ∀ sub x, b.setup.subscriptions[sub]? = some x → ∃ pool, b.slots[sub]? = some pool ∧
    pool.free + pool.inUse = x.maxConcurrency ∧ pool.inUse = b.fetching sub + b.working sub

namespace Counted

/-- Nobody takes a slot and nobody gives one back. -/
theorem aside (hb : b.Counted) (hsetup : b'.setup = b.setup) (hslots : b'.slots = b.slots)
    (hcount : ∀ sub, b'.fetching sub + b'.working sub = b.fetching sub + b.working sub) :
    b'.Counted := by
  intro sub x hx
  rw [hslots, hcount]
  exact hb sub x (hsetup ▸ hx)

/-- A slot is given back by one who held it. -/
theorem gaveBack (hb : b.Counted) (hsetup : b'.setup = b.setup)
    (hslots : b'.slots = (b.giveBack sub).slots)
    (hcount : ∀ sub', b'.fetching sub' + b'.working sub' + (if sub = sub' then 1 else 0) =
      b.fetching sub' + b.working sub') : b'.Counted := by
  intro sub' x hx
  obtain ⟨pool, hpool, hsize, hinUse⟩ := hb sub' x (hsetup ▸ hx)
  have hcount := hcount sub'
  have hslot : b'.slots[sub']? = some (if sub = sub' then pool.giveBack else pool) := by
    rw [hslots, giveBack, List.getElem?_modify, hpool]
    by_cases h : sub = sub' <;> simp [h]
  refine ⟨_, hslot, ?_⟩
  by_cases h : sub = sub'
  · simp only [h, if_true] at hcount ⊢
    simp only [Slots.giveBack]
    omega
  · simp only [h, if_false] at hcount ⊢
    omega

theorem deed (h : Deed b b') (hrecorded : b.Recorded) (hb : b.Counted) : b'.Counted := by
  have hset {n : Nat} {p : Puller} (hp : b.pullers[n]? = some p) (phase : Puller.Phase)
      (sub : Nat) := fetching_setPhase hp phase sub
  have hfree {p : Puller} {phase : Puller.Phase} (hphase : phase.holdsSlot = false) (sub : Nat) :
      share p phase sub = 0 := by simp [share, hphase]
  have hheld {p : Puller} {phase : Puller.Phase} (hphase : phase.holdsSlot = true) (sub : Nat) :
      share p phase sub = if p.sub = sub then 1 else 0 := by simp [share, hphase]
  cases h with
  | pass _ => exact hb.aside rfl rfl fun _ ↦ rfl
  | report _ => exact hb.aside rfl rfl fun _ ↦ rfl
  | blame sub cause => exact hb.aside rfl rfl fun _ ↦ rfl
  | fatal n cause => exact hb.aside rfl rfl fun _ ↦ rfl
  | bind x => exact hb.aside rfl rfl fun _ ↦ rfl
  | supply x => exact hb.aside rfl rfl fun _ ↦ rfl
  | @turn n p phase hp _ hslot hslot' =>
    refine hb.aside rfl rfl fun sub ↦ congrArg (· + _) ?_
    have h := hset hp phase sub
    rwa [hfree hslot, hfree hslot'] at h
  | gauge _ _ => exact hb.aside rfl rfl fun _ ↦ rfl
  | @reserve n p pool pool' due hp hhead hpool htake =>
    intro sub x hx
    obtain ⟨old, hold, hsize, hinUse⟩ := hb sub x hx
    have h := hset hp (.reaching due) sub
    rw [hfree (by simp [hhead, Puller.Phase.holdsSlot]), hheld rfl] at h
    change _ + 0 = _ at h
    have hworking : (Books.setPhase { b with slots := b.slots.set p.sub pool' } n
        (.reaching due)).working sub = b.working sub := rfl
    have hfetching : (Books.setPhase { b with slots := b.slots.set p.sub pool' } n
        (.reaching due)).fetching sub = b.fetching sub + if p.sub = sub then 1 else 0 := h
    rw [hworking, hfetching]
    by_cases hsub : p.sub = sub
    · subst hsub
      -- The slot comes out of the free ones, so the size of the pool stays.
      obtain rfl : pool = old := Option.some.inj (hpool.symm.trans hold)
      have hslot : (b.slots.set p.sub pool')[p.sub]? = some pool' := by
        rw [List.getElem?_set_self (List.getElem?_eq_some_iff.1 hpool).1]
      have htotal := Slots.free_add_inUse_of_take? htake
      have hmore : pool'.inUse = pool.inUse + 1 := Slots.inUse_of_take? htake
      exact ⟨pool', hslot, by omega, by simp only [if_true]; omega⟩
    · refine ⟨old, ?_, hsize, by simpa [hsub] using hinUse⟩
      exact (List.getElem?_set_ne hsub).trans hold
  | ask _ _ => exact hb.aside rfl rfl fun _ ↦ rfl
  | @expect n p phase hp hslot hslot' =>
    refine hb.aside rfl rfl fun sub ↦ congrArg (· + _) ?_
    have h := hset hp phase sub
    rw [hheld hslot, hheld hslot'] at h
    exact Nat.add_right_cancel h
  | @receive n p c d x hp hslot _ =>
    refine hb.aside rfl rfl fun sub ↦ ?_
    have h := hset hp .head sub
    rw [hheld hslot, hfree rfl] at h
    have hworking : ((Books.beginJob { b with broker := x } n p d).setPhase n .head).working sub =
        b.working sub + if p.sub = sub then 1 else 0 := by
      show (b.jobs ++ [_]).countP _ = _
      rw [List.countP_append, List.countP_singleton]
      simp [working]
    have hfetching : ((Books.beginJob { b with broker := x } n p d).setPhase n .head).fetching sub =
        (b.setPhase n .head).fetching sub := rfl
    omega
  | @release n p phase hp hslot hslot' =>
    refine hb.gaveBack rfl rfl fun sub ↦ ?_
    have h := hset hp phase sub
    rw [hheld hslot, hfree hslot'] at h
    have hworking : ((b.giveBack p.sub).setPhase n phase).working sub = b.working sub := rfl
    have hfetching : ((b.giveBack p.sub).setPhase n phase).fetching sub =
        (b.setPhase n phase).fetching sub := rfl
    omega
  | @call j lag count phase hj _ _ _ =>
    exact hb.aside rfl rfl fun sub ↦ congrArg (b.fetching sub + ·)
      (working_changeJob (f := fun k ↦ { k with count, phase }) hrecorded.once hj rfl sub)
  | @rest j phase hj _ _ =>
    exact hb.aside rfl rfl fun sub ↦ congrArg (b.fetching sub + ·)
      (working_changeJob (f := fun k ↦ { k with phase }) hrecorded.once hj rfl sub)
  | @finish j r giveUpDue hj hlive =>
    set c := (((b.note (.ended j.number j.sub j.delivery.message j.count r)).measure j.sub
      .processed).reportResult j.sub r) with hc
    have hjobs : c.jobs = b.jobs := by simp [hc, measure, note]
    have hpullers : c.pullers = b.pullers := by simp [hc, measure, note]
    refine hb.aside (by simp [hc, setJobPhase, changeJob, measure, note])
      (by simp [hc, setJobPhase, changeJob, measure, note]) fun sub ↦ ?_
    let phase : Job.Phase := .settling (.ofResult r)
      (b.now + b.setup.client.settleTicks (Outcome.ofResult r).settlement) giveUpDue
    have h := working_changeJob (b := c) (f := fun k ↦ { k with phase })
      (hjobs ▸ hrecorded.once) (hjobs ▸ hj) rfl sub
    have hworking : c.working sub = b.working sub := by rw [working, hjobs, working]
    have hfetching : c.fetching sub = b.fetching sub := by rw [fetching, hpullers, fetching]
    exact congrArg₂ (· + ·) hfetching (h.trans hworking)
  | @await j outcome answerDue giveUpDue hj _ =>
    exact hb.aside rfl rfl fun sub ↦ congrArg (b.fetching sub + ·)
      (working_changeJob (f := fun k ↦ { k with phase := .settling outcome answerDue giveUpDue })
        hrecorded.once hj rfl sub)
  | @settle j outcome answerDue giveUpDue hj _ _ =>
    set c := Books.reportSettled (Books.note { b with
      broker := (b.broker.settle j.delivery.handle outcome.settlement).broker } (.settled j.number
        j.delivery.handle outcome.settlement none)) j.sub outcome with hc
    have hjobs : c.jobs = b.jobs := by simp [hc, note]
    have hpullers : c.pullers = b.pullers := by simp [hc, note]
    have hslots : ((c.dropJob j.number).giveBack j.sub).slots = (b.giveBack j.sub).slots := by
      simp [hc, giveBack, dropJob, note]
    refine hb.gaveBack (by simp [hc, giveBack, dropJob, note]) hslots fun sub ↦ ?_
    have h := working_dropJob (b := c) (hjobs ▸ hrecorded.once) (hjobs ▸ hj) sub
    have hworking : c.working sub = b.working sub := by rw [working, hjobs, working]
    have hfetching : c.fetching sub = b.fetching sub := by rw [fetching, hpullers, fetching]
    show c.fetching sub + (c.dropJob j.number).working sub + _ = _
    omega
  | @fail j outcome answerDue giveUpDue reason hj _ _ =>
    refine hb.gaveBack rfl rfl fun sub ↦ ?_
    have h := working_dropJob hrecorded.once hj sub
    show b.fetching sub + (b.dropJob j.number).working sub + _ = _
    omega

end Counted

theorem Counted.spawn (hb : b.Counted) (token : Nat) (reporter : Reporter) (first count : Nat) :
    (b.spawn token reporter first count).Counted := by
  refine hb.aside rfl rfl fun sub ↦ congrArg (· + b.working sub) ?_
  rw [fetching, Books.spawn, List.countP_append, fetching]
  simp [Puller.Phase.holdsSlot]

/-- The slots in use are as many as those who hold one, and no more than the subscription allows. -/
theorem Counted.inUse (hb : b.Counted) {x : Subscription}
    (hx : b.setup.subscriptions[sub]? = some x) :
    b.inUse sub = b.fetching sub + b.working sub ∧ b.inUse sub ≤ x.maxConcurrency := by
  obtain ⟨pool, hpool, hsize, hinUse⟩ := hb sub x hx
  have h : b.inUse sub = pool.inUse := by simp [Books.inUse, hpool]
  omega

/-- A job holds a slot of its subscription. -/
theorem Counted.inUse_pos (hb : b.Counted) (hrecorded : b.Recorded) (hj : j ∈ b.jobs) :
    0 < b.inUse j.sub := by
  obtain ⟨x, hx⟩ := hrecorded.subscription_of_job hj
  have hworking : 0 < b.working j.sub := List.countP_pos_iff.2 ⟨j, hj, by simp⟩
  have hinUse := (hb.inUse hx).1
  omega

/-- A puller has no job where no slot of its subscription is in use. -/
theorem Counted.puller_ne_of_idle (hb : b.Counted) (hrecorded : b.Recorded)
    (hp : b.pullers[n]? = some p) (hidle : b.inUse p.sub = 0) (hj : j ∈ b.jobs) :
    j.puller ≠ n := by
  rintro rfl
  have hseat := hrecorded.placed j hj
  rw [Books.seats, List.getElem?_map, hp] at hseat
  have hslot := hb.inUse_pos hrecorded hj
  rw [← Option.some.inj hseat] at hslot
  omega

/-- Where no slot is in use nobody fetches and there is no job. -/
theorem Counted.nobody_of_idle (hb : b.Counted) (hrecorded : b.Recorded)
    (hidle : ∀ sub < b.setup.subscriptions.length, b.inUse sub = 0) :
    b.jobs = [] ∧ ∀ p ∈ b.pullers, p.phase.holdsSlot = false := by
  constructor
  · refine List.eq_nil_iff_forall_not_mem.2 fun j hj ↦ ?_
    obtain ⟨x, hx⟩ := hrecorded.subscription_of_job hj
    have hslot := hb.inUse_pos hrecorded hj
    have := hidle j.sub (List.getElem?_eq_some_iff.1 hx).1
    omega
  · intro p hp
    obtain ⟨n, hn⟩ := List.mem_iff_getElem?.1 hp
    obtain ⟨x, hx⟩ := hrecorded.subscription_of_puller hn
    by_contra hslot
    have hfetching : 0 < b.fetching p.sub :=
      List.countP_pos_iff.2 ⟨p, hp, by simpa using hslot⟩
    have hinUse := (hb.inUse hx).1
    have := hidle p.sub (List.getElem?_eq_some_iff.1 hx).1
    omega

end Books

/-! ### Moments of the journal -/

/-- How often a journal tells that the handler of a subscription was called. -/
def callsBegun (sub : Nat) (journal : List (Nat × Entry)) : Nat :=
  journal.countP fun
    | (_, .started _ s _ _) => s = sub
    | _ => false

/-- How often a journal tells that the handler of a subscription ended. -/
def callsEnded (sub : Nat) (journal : List (Nat × Entry)) : Nat :=
  journal.countP fun
    | (_, .ended _ s _ _ _) => s = sub
    | _ => false

/-- A journal tells that a delivery was fetched for a subscription, and not that an attempt to
settle it is over. The subscription is that of the puller that fetched. -/
def Unsettled (seats : List Nat) (sub k : Nat) (journal : List (Nat × Entry)) : Prop :=
  (∃ tick n h, (tick, .fetched n k h) ∈ journal ∧ seats[n]? = some sub) ∧
    ∀ tick h x failure, (tick, .settled k h x failure) ∉ journal

/-- What is bounded at the moment at which the journal was this long. -/
structure Moment (subs : List Subscription) (seats : List Nat) (journal : List (Nat × Entry)) :
    Prop where
  /-- The calls of handlers that are under way. -/
  calls : ∀ sub x, subs[sub]? = some x →
    callsBegun sub journal ≤ callsEnded sub journal + x.maxConcurrency
  /-- The number of slots that is reported. -/
  gauge : ∀ tick sub n earlier, journal = (tick, .gauge sub n) :: earlier →
    ∃ x, subs[sub]? = some x ∧ n ≤ x.maxConcurrency
  /-- The deliveries that are not settled yet when a fetch begins. -/
  fetch : ∀ tick n earlier, journal = (tick, .fetchBegun n) :: earlier →
    ∃ sub x, seats[n]? = some sub ∧ subs[sub]? = some x ∧ ∀ ks : List Nat, ks.Nodup →
      (∀ k ∈ ks, Unsettled seats sub k earlier) → ks.length < x.maxConcurrency

/-- An entry that tells of something that is bounded. -/
def Entry.isBounded : Entry → Bool
  | gauge .. => true
  | fetchBegun _ => true
  | started .. => true
  | _ => false

theorem Moment.cons {subs : List Subscription} {seats : List Nat} {journal : List (Nat × Entry)}
    (h : Moment subs seats journal) {tick : Nat} {e : Entry} (he : e.isBounded = false) :
    Moment subs seats ((tick, e) :: journal) := by
  refine ⟨fun sub x hx ↦ ?_, ?_, ?_⟩
  · have hbegun : callsBegun sub ((tick, e) :: journal) = callsBegun sub journal := by
      cases e <;> simp_all [callsBegun, Entry.isBounded]
    have hended : callsEnded sub journal ≤ callsEnded sub ((tick, e) :: journal) :=
      (List.sublist_cons_self _ _).countP_le
    have := h.calls sub x hx
    omega
  · rintro tick' sub n earlier heq
    cases heq
    exact absurd he (by simp [Entry.isBounded])
  · rintro tick' n earlier heq
    cases heq
    exact absurd he (by simp [Entry.isBounded])

/-- The bounds hold at every moment up to now. -/
def Bounds (subs : List Subscription) (seats : List Nat) (journal : List (Nat × Entry)) : Prop :=
  ∀ l, l <:+ journal → Moment subs seats l

theorem Bounds.cons {subs : List Subscription} {seats : List Nat} {journal : List (Nat × Entry)}
    (h : Bounds subs seats journal) {e : Nat × Entry} (hnow : Moment subs seats (e :: journal)) :
    Bounds subs seats (e :: journal) := by
  intro l hl
  rcases List.suffix_cons_iff.1 hl with rfl | hl
  · exact hnow
  · exact h l hl

theorem Bounds.note {subs : List Subscription} {seats : List Nat} {journal : List (Nat × Entry)}
    (h : Bounds subs seats journal) {tick : Nat} {e : Entry} (he : e.isBounded = false) :
    Bounds subs seats ((tick, e) :: journal) :=
  h.cons ((h journal List.suffix_rfl).cons he)

namespace Books

variable {b b' : Books} {n sub : Nat} {p : Puller} {j : Job}

/-- The number of jobs of a subscription whose handlers are at work. -/
def live (b : Books) (sub : Nat) : Nat := b.jobs.countP fun j ↦ j.sub = sub && j.phase.isLive

/-- The handlers at work are those that were called and have not ended, and the bounds have held up
to now. -/
structure Bounded (b : Books) : Prop where
  calls : ∀ sub, callsBegun sub b.journal = callsEnded sub b.journal + b.live sub
  bounds : Bounds b.setup.subscriptions b.seats b.journal

/-- When a puller fetches, its slot is one that no unsettled delivery has. -/
theorem length_lt_of_unsettled (hrecorded : b.Recorded) (hcounted : b.Counted)
    (hp : b.pullers[n]? = some p) (hslot : p.phase.holdsSlot = true) {x : Subscription}
    (hx : b.setup.subscriptions[p.sub]? = some x) {ks : List Nat} (hks : ks.Nodup)
    (hunsettled : ∀ k ∈ ks, Unsettled b.seats p.sub k b.journal) :
    ks.length < x.maxConcurrency := by
  -- Every unsettled delivery has a job, and the puller has one slot more than all of them.
  have hsub : ks ⊆ (b.jobs.filter fun j ↦ j.sub = p.sub).map Job.number := by
    intro k hk
    obtain ⟨⟨tick, n', h, hmem, hseat⟩, hsettled⟩ := hunsettled k hk
    obtain ⟨j, hj, rfl, -, hjseat⟩ := hrecorded.exists_job_of_unsettled hmem hsettled
    have hjsub : j.sub = p.sub := Option.some.inj (hjseat.symm.trans hseat)
    exact List.mem_map.2 ⟨j, List.mem_filter.2 ⟨hj, by simpa using hjsub⟩, rfl⟩
  have hlength : ks.length ≤ b.working p.sub := by
    have h := (List.subperm_of_subset hks hsub).length_le
    rwa [List.length_map, ← List.countP_eq_length_filter] at h
  have hfetching : 0 < b.fetching p.sub :=
    List.countP_pos_iff.2 ⟨p, List.mem_of_getElem? hp, by simp [hslot]⟩
  obtain ⟨hinUse, hle⟩ := hcounted.inUse hx
  omega

/-- Of a job in some phase, whether it is of a subscription and its handler is at work, as a
number. -/
def liveShare (j : Job) (phase : Job.Phase) (sub : Nat) : Nat :=
  if j.sub = sub && phase.isLive then 1 else 0

theorem live_changeJob (hn : (b.jobs.map Job.number).Nodup) (hj : j ∈ b.jobs) {f : Job → Job}
    (hf : (f j).sub = j.sub) (sub : Nat) :
    (b.changeJob j.number f).live sub + liveShare j j.phase sub =
      b.live sub + liveShare j (f j).phase sub := by
  have h := countP_changeJob hn hj f fun j ↦ j.sub = sub && j.phase.isLive
  rwa [hf] at h

theorem live_dropJob (hn : (b.jobs.map Job.number).Nodup) (hj : j ∈ b.jobs) (sub : Nat) :
    (b.dropJob j.number).live sub + liveShare j j.phase sub = b.live sub :=
  countP_dropJob hn hj _

/-- A job whose handler is not at work keeps the handlers of its subscription below the bound. -/
theorem live_lt_of_fresh (hcounted : b.Counted) {x : Subscription}
    (hx : b.setup.subscriptions[j.sub]? = some x) (hj : j ∈ b.jobs)
    (hidle : j.phase.isLive = false) : b.live j.sub < x.maxConcurrency := by
  have hlt : b.live j.sub < b.working j.sub := by
    obtain ⟨before, after, hjobs⟩ := List.append_of_mem hj
    have hle (l : List Job) : (l.countP fun k ↦ k.sub = j.sub && k.phase.isLive) ≤
        l.countP fun k ↦ k.sub = j.sub :=
      List.countP_mono_left fun k _ hk ↦ by simp_all
    have := hle before
    have := hle after
    rw [live, working, hjobs, List.countP_append, List.countP_append, List.countP_cons,
      List.countP_cons]
    simp only [hidle, Bool.and_false, decide_true, if_true]
    simp only [Bool.false_eq_true, if_false]
    omega
  obtain ⟨hinUse, hle⟩ := hcounted.inUse hx
  omega

namespace Bounded

/-- Nothing that is bounded happens. -/
theorem aside (hb : b.Bounded) (hsetup : b'.setup = b.setup) (hseats : b'.seats = b.seats)
    (hlive : ∀ sub, b'.live sub = b.live sub) (hjournal : b'.journal = b.journal) :
    b'.Bounded where
  calls sub := by
    rw [hjournal, hlive]
    exact hb.calls sub
  bounds := by
    rw [hjournal, hseats, hsetup]
    exact hb.bounds

/-- Something that is not bounded is noted. -/
theorem noted (hb : b.Bounded) {tick : Nat} {e : Entry} (hsetup : b'.setup = b.setup)
    (hseats : b'.seats = b.seats) (hlive : ∀ sub, b'.live sub = b.live sub)
    (hjournal : b'.journal = (tick, e) :: b.journal) (hbounded : e.isBounded = false)
    (hended : ∀ sub, callsEnded sub ((tick, e) :: b.journal) = callsEnded sub b.journal) :
    b'.Bounded where
  calls sub := by
    have hbegun : callsBegun sub ((tick, e) :: b.journal) = callsBegun sub b.journal := by
      cases e <;> simp_all [callsBegun, Entry.isBounded]
    rw [hjournal, hlive, hended, hbegun]
    exact hb.calls sub
  bounds := by
    rw [hjournal, hseats, hsetup]
    exact hb.bounds.note hbounded

theorem publishFor (hb : b.Bounded) (sub : Nat) (e : Event) : (b.publishFor sub e).Bounded :=
  hb.noted rfl rfl (fun _ ↦ rfl) rfl rfl fun _ ↦ rfl

theorem reportResult (hb : b.Bounded) (sub : Nat) (r : HandlerResult) :
    (b.reportResult sub r).Bounded := by
  rw [Books.reportResult]
  split
  · next label kind reason _ =>
    have hmeasure : (b.measure sub (.error label)).Bounded := hb.aside rfl rfl (fun _ ↦ rfl) rfl
    exact hmeasure.publishFor sub _
  · exact hb

theorem reportSettled (hb : b.Bounded) (sub : Nat) (outcome : Outcome) :
    (b.reportSettled sub outcome).Bounded := by
  rw [Books.reportSettled]
  split
  · exact hb
  · exact hb.publishFor sub _

theorem dropJob (hb : b.Bounded) (hn : (b.jobs.map Job.number).Nodup) (hj : j ∈ b.jobs)
    (hidle : j.phase.isLive = false) : (b.dropJob j.number).Bounded := by
  refine hb.aside rfl rfl (fun sub ↦ ?_) rfl
  have h := live_dropJob hn hj sub
  simpa [liveShare, hidle] using h

theorem deed (h : Deed b b') (hrecorded : b.Recorded) (hcounted : b.Counted) (hb : b.Bounded) :
    b'.Bounded := by
  cases h with
  | pass _ => exact hb.aside rfl rfl (fun _ ↦ rfl) rfl
  | report _ => exact hb.noted rfl rfl (fun _ ↦ rfl) rfl rfl fun _ ↦ rfl
  | blame sub cause => exact hb.aside rfl rfl (fun _ ↦ rfl) rfl
  | fatal n cause => exact hb.noted rfl rfl (fun _ ↦ rfl) rfl rfl fun _ ↦ rfl
  | bind x => exact hb.aside rfl rfl (fun _ ↦ rfl) rfl
  | supply x => exact hb.aside rfl rfl (fun _ ↦ rfl) rfl
  | turn _ _ _ _ => exact hb.aside rfl (seats_setPhase ..) (fun _ ↦ rfl) rfl
  | @gauge n p hp hhead =>
    obtain ⟨x, hx⟩ := hrecorded.subscription_of_puller hp
    have hnow := hb.bounds _ List.suffix_rfl
    refine ⟨hb.calls, hb.bounds.cons ⟨hnow.calls, ?_, ?_⟩⟩
    · rintro tick sub m earlier heq
      cases heq
      exact ⟨x, hx, (hcounted.inUse hx).2⟩
    · rintro tick m earlier heq
      cases heq
  | reserve _ _ _ _ => exact hb.aside rfl (seats_setPhase ..) (fun _ ↦ rfl) rfl
  | @ask n p hp hslot =>
    obtain ⟨x, hx⟩ := hrecorded.subscription_of_puller hp
    have hseat : b.seats[n]? = some p.sub := by simp [seats, hp]
    have hnow := hb.bounds _ List.suffix_rfl
    refine ⟨hb.calls, hb.bounds.cons ⟨hnow.calls, ?_, ?_⟩⟩
    · rintro tick sub m earlier heq
      cases heq
    · rintro tick m earlier heq
      cases heq
      exact ⟨p.sub, x, hseat, hx, fun ks ↦ length_lt_of_unsettled hrecorded hcounted hp hslot hx⟩
  | expect _ _ _ => exact hb.aside rfl (seats_setPhase ..) (fun _ ↦ rfl) rfl
  | @receive n p c d x hp _ _ =>
    refine hb.noted (e := .fetched n b.jobsBegun d.handle) rfl (seats_setPhase ..) (fun sub ↦ ?_)
      rfl rfl fun _ ↦ rfl
    show (b.jobs ++ [_]).countP _ = _
    rw [List.countP_append, List.countP_singleton, live]
    simp [Job.Phase.isLive]
  | release _ _ _ => exact hb.aside rfl (seats_setPhase ..) (fun _ ↦ rfl) rfl
  | @call j lag count phase hj hfresh _ hlive =>
    obtain ⟨x, hx⟩ := hrecorded.subscription_of_job hj
    have hidle : j.phase.isLive = false := by rw [hfresh]; rfl
    have hlt := live_lt_of_fresh hcounted hx hj hidle
    have hshare (sub : Nat) := live_changeJob (f := fun k ↦ { k with count, phase })
      hrecorded.once hj rfl sub
    have hbegun (tick sub : Nat) : callsBegun sub ((tick, .started j.number j.sub
        j.delivery.message count) :: b.journal) = callsBegun sub b.journal +
          if j.sub = sub then 1 else 0 := by
      simp [callsBegun, List.countP_cons]
    have hended (tick sub : Nat) : callsEnded sub ((tick, .started j.number j.sub
        j.delivery.message count) :: b.journal) = callsEnded sub b.journal := rfl
    have hnow := hb.bounds _ List.suffix_rfl
    -- One more call is under way at this moment; all earlier moments stay as they were.
    refine ⟨fun sub ↦ ?_, hb.bounds.cons ⟨fun sub y hy ↦ ?_, ?_, ?_⟩⟩
    · have h := hshare sub
      have hcalls := hb.calls sub
      simp only [liveShare, hidle, hlive, Bool.and_false, Bool.and_true, decide_eq_true_eq] at h
      show callsBegun sub (_ :: b.journal) = callsEnded sub (_ :: b.journal) +
        (b.changeJob j.number fun k ↦ { k with count, phase }).live sub
      rw [hbegun, hended]
      simp only [Bool.false_eq_true, if_false] at h
      omega
    · rw [hbegun, hended]
      by_cases hsub : j.sub = sub
      · subst hsub
        obtain rfl : x = y := Option.some.inj (hx.symm.trans hy)
        have hcalls := hb.calls j.sub
        simp only [if_true]
        omega
      · simpa only [hsub, if_false, Nat.add_zero] using hnow.calls sub y hy
    · rintro tick sub m earlier heq
      cases heq
    · rintro tick m earlier heq
      cases heq
  | @rest j phase hj hlive hlive' =>
    refine hb.aside rfl rfl (fun sub ↦ ?_) rfl
    have h := live_changeJob (f := fun k ↦ { k with phase }) hrecorded.once hj rfl sub
    simp only [liveShare, hlive, hlive'] at h
    exact Nat.add_right_cancel h
  | @finish j r giveUpDue hj hlive =>
    let phase : Job.Phase := .settling (.ofResult r)
      (b.now + b.setup.client.settleTicks (Outcome.ofResult r).settlement) giveUpDue
    -- What is reported is not bounded, so it may as well be reported last.
    rw [← reportResult_setJobPhase]
    refine Bounded.reportResult ⟨fun sub ↦ ?_, ?_⟩ j.sub r
    · have h := live_changeJob (f := fun k ↦ { k with phase }) hrecorded.once hj rfl sub
      have hcalls := hb.calls sub
      have hidle : phase.isLive = false := rfl
      simp only [liveShare, hlive, hidle, Bool.and_false, Bool.and_true, decide_eq_true_eq,
        Bool.false_eq_true, if_false] at h
      have hended : callsEnded sub ((b.now, .ended j.number j.sub j.delivery.message j.count r) ::
          b.journal) = callsEnded sub b.journal + if j.sub = sub then 1 else 0 := by
        simp [callsEnded, List.countP_cons]
      show callsBegun sub b.journal = callsEnded sub ((b.now, .ended j.number j.sub
        j.delivery.message j.count r) :: b.journal) + (b.setJobPhase j.number phase).live sub
      rw [hended]
      have hsame : (b.setJobPhase j.number phase).live sub =
        (b.changeJob j.number fun k ↦ { k with phase }).live sub := rfl
      omega
    · exact hb.bounds.note rfl
  | @await j outcome answerDue giveUpDue hj hphase =>
    refine hb.aside rfl rfl (fun sub ↦ ?_) rfl
    let phase : Job.Phase := .settling outcome answerDue giveUpDue
    have h := live_changeJob (f := fun k ↦ { k with phase }) hrecorded.once hj rfl sub
    simp only [hphase] at h
    exact Nat.add_right_cancel h
  | @settle j outcome answerDue giveUpDue hj hphase _ =>
    have hidle : j.phase.isLive = false := by rw [hphase]; rfl
    set x := (b.broker.settle j.delivery.handle outcome.settlement).broker
    have hnote : (Books.note { b with broker := x } (.settled j.number j.delivery.handle
        outcome.settlement none)).Bounded := hb.noted rfl rfl (fun _ ↦ rfl) rfl rfl fun _ ↦ rfl
    have hreport := hnote.reportSettled j.sub outcome
    set c := Books.reportSettled _ j.sub outcome with hc
    have hjobs : c.jobs = b.jobs := by simp [hc, note]
    have hdrop := hreport.dropJob (hjobs ▸ hrecorded.once) (hjobs ▸ hj) hidle
    exact hdrop.aside rfl rfl (fun _ ↦ rfl) rfl
  | @fail j outcome answerDue giveUpDue reason hj hphase _ =>
    have hidle : j.phase.isLive = false := by rw [hphase]; rfl
    have hnote : (b.note (.settled j.number j.delivery.handle outcome.settlement
        (some reason))).Bounded := hb.noted rfl rfl (fun _ ↦ rfl) rfl rfl fun _ ↦ rfl
    have hreport : ((b.note (.settled j.number j.delivery.handle outcome.settlement
        (some reason))).reportUnsettled j.sub outcome.settlement reason).Bounded := by
      refine Bounded.publishFor ?_ j.sub _
      exact hnote.aside rfl rfl (fun _ ↦ rfl) rfl
    have hdrop := hreport.dropJob hrecorded.once hj hidle
    exact hdrop.aside rfl rfl (fun _ ↦ rfl) rfl

/-- Whoever was unsettled among the seats that there were is so among more of them. -/
theorem spawn (hb : b.Bounded) (hrecorded : b.Recorded) (token : Nat) (reporter : Reporter)
    (first count : Nat) : (b.spawn token reporter first count).Bounded where
  calls := hb.calls
  bounds := by
    intro l hl
    obtain ⟨hcalls, hgauge, hfetch⟩ := hb.bounds l hl
    have hseat {n sub : Nat} (h : b.seats[n]? = some sub) :
        (b.spawn token reporter first count).seats[n]? = some sub := seat_spawn h ..
    refine ⟨hcalls, hgauge, fun tick n earlier heq ↦ ?_⟩
    obtain ⟨sub, x, hn, hx, hbound⟩ := hfetch tick n earlier heq
    refine ⟨sub, x, hseat hn, hx, fun ks hks hunsettled ↦ hbound ks hks fun k hk ↦ ?_⟩
    obtain ⟨⟨tick', n', h, hmem, hn'⟩, hsettled⟩ := hunsettled k hk
    -- Who fetched had a seat then, and keeps it when others come.
    have hold : (tick', .fetched n' k h) ∈ b.journal :=
      hl.subset (heq ▸ List.mem_cons_of_mem _ hmem)
    obtain ⟨sub', hsub'⟩ := hrecorded.seat_of_fetched hold
    obtain rfl : sub' = sub := Option.some.inj ((hseat hsub').symm.trans hn')
    exact ⟨⟨tick', n', h, hmem, hsub'⟩, hsettled⟩

end Bounded

end Books

/-! ### Along a run -/

theorem Plan.counted_of_build {p : Plan} {s : State} (h : p.build = .ok s) :
    s.books.Counted ∧ s.books.Bounded := by
  obtain ⟨setup, slots, hpools, hsubs, -, -, hbooks, -⟩ := Plan.of_build h
  rw [hbooks, (Plan.pools_eq_ok_iff.1 hpools).1, ← hsubs]
  refine ⟨fun sub x hx ↦ ?_, fun sub ↦ rfl, fun l hl ↦ ?_⟩
  · change setup.subscriptions[sub]? = some x at hx
    refine ⟨Plan.freshPool x, ?_, rfl, rfl⟩
    simp [List.getElem?_map, hx]
  · obtain rfl := List.suffix_nil.1 hl
    exact ⟨fun sub x _ ↦ Nat.zero_le _, fun _ _ _ _ h ↦ absurd h (by simp),
      fun _ _ _ h ↦ absurd h (by simp)⟩

/-- Slots are accounted for and bounds hold all along a run, whatever strangers do to the
broker. -/
theorem Runs.counted {allowed : State → Move → Prop} {p : Plan} {s t : State}
    (hbuild : p.build = .ok s) (h : Runs allowed s t) : t.books.Counted ∧ t.books.Bounded := by
  refine h.recorded_induction (P := fun b ↦ b.Counted ∧ b.Bounded) hbuild ?_ ?_ ?_
    (Plan.counted_of_build hbuild)
  · rintro b b' hdeed hrecorded ⟨hcounted, hbounded⟩
    exact ⟨hcounted.deed hdeed hrecorded, hbounded.deed hdeed hrecorded hcounted⟩
  · rintro b token reporter hrecorded ⟨hcounted, hbounded⟩
    exact ⟨hcounted.spawn token reporter _ _, hbounded.spawn hrecorded token reporter _ _⟩
  · rintro u x - - ⟨hcounted, hbounded⟩
    exact ⟨hcounted.aside rfl rfl fun _ ↦ rfl, hbounded.aside rfl rfl (fun _ ↦ rfl) rfl⟩

/-- **The bound on concurrency.** In every state of every run the slots of a subscription that are
in use are held by its pullers that fetch and its jobs, one each, and there are no more of them than
the subscription allows. A job is there until the attempt to settle its delivery is over. Looking
back from any entry of the journal, no more handlers are at work at once and no more slots were
reported than the subscription allows; and of the deliveries that were fetched before a fetch
begins, fewer than that are unsettled. -/
theorem Runs.within_capacity {p : Plan} {s t : State} (hbuild : p.build = .ok s)
    (hrun : Runs anything s t) {sub : Nat} {x : Subscription}
    (hx : p.subscriptions[sub]? = some x) :
    t.inUse sub = (t.pullers.countP fun q ↦ q.sub = sub && q.holdsSlot) +
        t.jobs.countP (fun j ↦ j.sub = sub) ∧
      t.inUse sub ≤ x.maxConcurrency ∧
      (∀ k, (∃ j ∈ t.jobs, j.number = k) ↔ k < t.jobsBegun ∧
        ∀ tick h y failure, (tick, .settled k h y failure) ∉ t.journal) ∧
      ∀ l, l <:+ t.journal →
        callsBegun sub l ≤ callsEnded sub l + x.maxConcurrency ∧
        (∀ tick n earlier, l = (tick, .gauge sub n) :: earlier → n ≤ x.maxConcurrency) ∧
        ∀ tick n earlier, l = (tick, .fetchBegun n) :: earlier →
          (t.pullers.map Puller.sub)[n]? = some sub → ∀ ks : List Nat, ks.Nodup →
          (∀ k ∈ ks, Unsettled (t.pullers.map Puller.sub) sub k earlier) →
          ks.length < x.maxConcurrency := by
  have hrecorded := hrun.recorded hbuild
  obtain ⟨hcounted, hbounded⟩ := hrun.counted hbuild
  have hsubs : t.setup.subscriptions[sub]? = some x := (hrun.setup_of_build hbuild).1 ▸ hx
  obtain ⟨hinUse, hle⟩ := hcounted.inUse hsubs
  refine ⟨?_, hle, fun k ↦ hrecorded.mem_iff, fun l hl ↦ ?_⟩
  · simp only [Puller.holdsSlot_eq]
    exact hinUse
  obtain ⟨hcalls, hgauge, hfetch⟩ := hbounded.bounds l hl
  refine ⟨hcalls sub x hsubs, fun tick n earlier heq ↦ ?_, fun tick n earlier heq hseat ↦ ?_⟩
  · obtain ⟨y, hy, hn⟩ := hgauge tick sub n earlier heq
    obtain rfl : x = y := Option.some.inj (hsubs.symm.trans hy)
    exact hn
  · obtain ⟨sub', y, hseat', hy, hbound⟩ := hfetch tick n earlier heq
    obtain rfl : sub' = sub := Option.some.inj (hseat'.symm.trans hseat)
    obtain rfl : x = y := Option.some.inj (hsubs.symm.trans hy)
    exact hbound

/-- While the handler of the small supervisor is at work, its job holds the only slot. -/
theorem Runs.within_capacity_lone : ∃ s t : State, Plan.lone.build = .ok s ∧ t.inUse 0 = 1 ∧
    t.inUse 0 = (t.pullers.countP fun q ↦ q.sub = 0 && q.holdsSlot) +
      t.jobs.countP (fun j ↦ j.sub = 0) ∧
    ∀ l, l <:+ t.journal → callsBegun 0 l ≤ callsEnded 0 l + 1 := by
  obtain ⟨s, hbuild, hinUse⟩ : ∃ s, Plan.lone.build = .ok s ∧
      (Move.fetching.foldl State.move s).inUse 0 = 1 := ⟨_, rfl, by rfl⟩
  have hrun : Runs anything s (Move.fetching.foldl State.move s) :=
    Runs.of_list fun _ _ _ ↦ trivial
  obtain ⟨hcount, -, -, hbounds⟩ := @Runs.within_capacity Plan.lone s _ hbuild hrun 0 _ rfl
  exact ⟨s, _, hbuild, hinUse, hcount, fun l hl ↦ (hbounds l hl).1⟩

end PullConsumer.Supervisor
