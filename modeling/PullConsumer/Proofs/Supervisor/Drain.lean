import PullConsumer.Proofs.Supervisor.Capacity
import PullConsumer.Proofs.Supervisor.Control
import PullConsumer.Proofs.Supervisor.Flights

/-!
# A stop drains

When a stop has taken over what was started and nothing is started behind its back, its success
means that everything is over: no puller is at work, no slot is in use, every delivery that was
fetched was handled and settled, or could not be settled; and nothing of this kind happens any more
before the next start (`Runs.drained`).

The stop itself looks only at the pullers, one by one, and then at the slots of the subscriptions,
one after the other. That those it has looked at stay as they were is what has to be shown
(`Drains`). Once all pullers are over nobody takes a slot any more, so that a subscription that was
found idle stays idle.
-/

namespace PullConsumer.Supervisor

/-- Something that is done to a delivery, or for the sake of one. -/
def Entry.isWork : Entry → Bool
  | fetchBegun _ => true
  | fetched .. => true
  | started .. => true
  | ended .. => true
  | settled .. => true
  | _ => false

/-- The work that a journal tells of. -/
def work (journal : List (Nat × Entry)) : List (Nat × Entry) := journal.filter (·.2.isWork)

namespace Books

variable {b b' : Books} {c c' : Control} {n : Nat}

/-! ### When all pullers are over -/

/-- All pullers are over. -/
def Retired (b : Books) : Prop := ∀ p ∈ b.pullers, p.isOver = true

theorem Retired.not_slot {p : Puller} (hb : b.Retired) (hp : b.pullers[n]? = some p) :
    p.phase.holdsSlot = false := by
  have hover := hb p (List.mem_of_getElem? hp)
  rw [Puller.isOver] at hover
  split at hover
  · next hphase => rw [hphase]; rfl
  · next hphase => rw [hphase]; rfl
  · exact absurd hover (by decide)

theorem Retired.deeds (hb : b.Retired) (h : Deeds b b') : b'.Retired := by
  intro p' hp'
  obtain ⟨i, hi⟩ := List.mem_iff_getElem?.1 hp'
  obtain ⟨p, hp, hstays⟩ := h.exists_puller hi
  have hover := hb p (List.mem_of_getElem? hp)
  rwa [hstays hover]

/-- Nobody begins a job any more. -/
theorem Retired.exists_job (hb : b.Retired) (h : Deed b b') {i : Job} (hi : i ∈ b'.jobs) :
    ∃ j ∈ b.jobs, j.sub = i.sub := by
  have hsame (hjobs : b'.jobs = b.jobs) : ∃ j ∈ b.jobs, j.sub = i.sub := ⟨i, hjobs ▸ hi, rfl⟩
  have hchange {n : Nat} {f : Job → Job} {x : Books} (hi : i ∈ (x.changeJob n f).jobs)
      (hx : x.jobs = b.jobs) (hf : ∀ j, (f j).sub = j.sub) : ∃ j ∈ b.jobs, j.sub = i.sub := by
    rcases mem_changeJob hi with hi | ⟨j, hj, rfl⟩
    · exact ⟨i, hx ▸ hi, rfl⟩
    · exact ⟨j, hx ▸ hj, (hf j).symm⟩
  cases h with
  | receive hp hslot _ => exact absurd hslot (by simp [hb.not_slot hp])
  | call _ _ _ _ => exact hchange hi rfl fun _ ↦ rfl
  | rest _ _ _ => exact hchange hi rfl fun _ ↦ rfl
  | finish _ _ => exact hchange hi (by simp [measure, note]) fun _ ↦ rfl
  | await _ _ => exact hchange hi rfl fun _ ↦ rfl
  | settle _ _ _ =>
    have hmem := (List.mem_filter.1 hi).1
    exact ⟨i, by simpa [note] using hmem, rfl⟩
  | fail _ _ _ => exact ⟨i, (List.mem_filter.1 hi).1, rfl⟩
  | _ => exact hsame rfl

theorem Retired.exists_job_of_deeds (hb : b.Retired) (h : Deeds b b') {i : Job}
    (hi : i ∈ b'.jobs) : ∃ j ∈ b.jobs, j.sub = i.sub := by
  induction h generalizing i with
  | refl => exact ⟨i, hi, rfl⟩
  | tail hfirst hlast ih =>
    obtain ⟨j, hj, hsub⟩ := (hb.deeds hfirst).exists_job hlast hi
    obtain ⟨k, hk, hsub'⟩ := ih hj
    exact ⟨k, hk, hsub'.trans hsub⟩

/-- Without pullers and jobs there is no work. -/
theorem Retired.no_work (hb : b.Retired) (hjobs : b.jobs = []) (h : Deed b b') :
    work b'.journal = work b.journal ∧ b'.broker.fetches = b.broker.fetches ∧
      b'.broker.acked = b.broker.acked ∧ b'.broker.nacked = b.broker.nacked := by
  have hnobody {j : Job} (hj : j ∈ b.jobs) : False := by simp [hjobs] at hj
  cases h with
  | bind x =>
    obtain ⟨bindFaults, hbind⟩ := b.broker.bind_eq x
    rw [hbind]
    exact ⟨rfl, rfl, rfl, rfl⟩
  | supply x =>
    exact ⟨rfl, Broker.fetches_supply .., Broker.acked_supply .., Broker.nacked_supply ..⟩
  | ask hp hslot => exact absurd hslot (by simp [hb.not_slot hp])
  | receive hp hslot _ => exact absurd hslot (by simp [hb.not_slot hp])
  | call hj _ _ _ => exact (hnobody hj).elim
  | finish hj _ => exact (hnobody hj).elim
  | settle hj _ _ => exact (hnobody hj).elim
  | fail hj _ _ => exact (hnobody hj).elim
  | _ => exact ⟨rfl, rfl, rfl, rfl⟩

/-- So it stays, whatever becomes of the books. -/
theorem Retired.still (hb : b.Retired) (hjobs : b.jobs = []) (h : Deeds b b') :
    b'.jobs = [] ∧ work b'.journal = work b.journal ∧ b'.broker.fetches = b.broker.fetches ∧
      b'.broker.acked = b.broker.acked ∧ b'.broker.nacked = b.broker.nacked := by
  have hnone {x : Books} (hx : Deeds b x) : x.jobs = [] := by
    refine List.eq_nil_iff_forall_not_mem.2 fun i hi ↦ ?_
    obtain ⟨j, hj, -⟩ := hb.exists_job_of_deeds hx hi
    exact absurd hj (by simp [hjobs])
  refine ⟨hnone h, ?_⟩
  induction h with
  | refl => exact ⟨rfl, rfl, rfl, rfl⟩
  | tail hfirst hlast ih =>
    obtain ⟨hwork, hfetches, hacked, hnacked⟩ :=
      (hb.deeds hfirst).no_work (hnone hfirst) hlast
    obtain ⟨hwork', hfetches', hacked', hnacked'⟩ := ih
    exact ⟨hwork.trans hwork', hfetches.trans hfetches', hacked.trans hacked',
      hnacked.trans hnacked'⟩

/-! ### How far a stop has come -/

/-- What a call that has taken over has found so far: nothing runs; once the pullers were waited
for, there is none left to stop, and no job of a subscription that was found idle; and if it
returned successfully there is no job at all. -/
structure Drains (b : Books) (c : Control) (n : Nat) : Prop where
  alone : ∀ phase, c.phases[n]? = some phase → phase.isDrain = true → c.running = none
  joined : ∀ sub, c.phases[n]? = some (.emptying sub) →
    c.stopping = [] ∧ ∀ j ∈ b.jobs, sub ≤ j.sub
  emptied : ∀ tick x, c.phases[n]? = some (.returned tick (.ok x)) → c.stopping = [] ∧ b.jobs = []

namespace Drains

/-- A call that has not taken over yet has found nothing. -/
theorem of_before (h : ∀ phase, c.phases[n]? = some phase → phase.isDrain = false) :
    Drains b c n where
  alone phase hphase hdrain := absurd hdrain (by simp [h phase hphase])
  joined sub hphase := absurd (h _ hphase) (by simp [Call.Phase.isDrain])
  emptied tick x hphase := absurd (h _ hphase) (by simp [Call.Phase.isDrain])

/-- What was found stays so: all pullers are over, and nobody begins a job. -/
theorem deeds (hd : Drains b c n) (hled : Led b c) (h : Deeds b b') : Drains b' c n where
  alone := hd.alone
  joined sub hphase := by
    obtain ⟨hstopping, hjobs⟩ := hd.joined sub hphase
    have hretired : b.Retired := hled.isOver (hd.alone _ hphase rfl) hstopping
    refine ⟨hstopping, fun i hi ↦ ?_⟩
    obtain ⟨j, hj, hsub⟩ := hretired.exists_job_of_deeds h hi
    exact hsub ▸ hjobs j hj
  emptied tick x hphase := by
    obtain ⟨hstopping, hjobs⟩ := hd.emptied tick x hphase
    have hretired : b.Retired := hled.isOver (hd.alone _ hphase rfl) hstopping
    exact ⟨hstopping, (hretired.still hjobs h).1⟩

/-- The phase of a call is changed. -/
theorem set (hd : Drains b c n) {m : Nat} {phase : Call.Phase} {line : List Nat}
    (hself : n = m → Drains b { c with phases := c.phases.set m phase, draining := line } n) :
    Drains b { c with phases := c.phases.set m phase, draining := line } n := by
  by_cases hm : n = m
  · exact hself hm
  · have hsame : (c.phases.set m phase)[n]? = c.phases[n]? :=
      List.getElem?_set_ne (Ne.symm hm)
    exact {
      alone := fun x hx ↦ hd.alone x (hsame ▸ hx)
      joined := fun sub hx ↦ hd.joined sub (hsame ▸ hx)
      emptied := fun tick x hx ↦ hd.emptied tick x (hsame ▸ hx) }

/-- **No order undoes what was found.** Only the first call in line drains, so no other one can take
over meanwhile. -/
theorem order (hd : Drains b c n) (hled : Led b c) (hrecorded : b.Recorded) (hcounted : b.Counted)
    (h : Order b c c') : Drains b c' n := by
  have hset {m : Nat} {x y : Call.Phase} (hm : n = m)
      (hy : (c.phases.set m x)[n]? = some y) : x = y := by
    subst hm
    exact Call.phase_of_set hy
  cases h with
  | rest => exact hd
  | @enter phases line hnew =>
    have hold {x : Call.Phase} (hx : (c.phases ++ phases)[n]? = some x)
        (hdrain : x.isDrain = true) : c.phases[n]? = some x := by
      rw [List.getElem?_append] at hx
      split at hx
      · exact hx
      · exact absurd hdrain (by simp [hnew x (List.mem_of_getElem? hx)])
    exact {
      alone := fun x hx hdrain ↦ hd.alone x (hold hx hdrain) hdrain
      joined := fun sub hx ↦ hd.joined sub (hold hx rfl)
      emptied := fun tick x hx ↦ hd.emptied tick x (hold hx rfl) }
  | line =>
    refine hd.set fun hm ↦ of_before fun x hx ↦ ?_
    rw [← hset hm hx]
    rfl
  | @take m hhead =>
    refine ⟨fun _ _ _ ↦ rfl, fun sub hx ↦ ?_, fun tick x hx ↦ ?_⟩
    · by_cases hm : n = m
      · exact absurd (hset hm hx) (by simp)
      · rw [List.getElem?_set_ne (Ne.symm hm)] at hx
        -- Two calls would both be the first in line.
        have hfirst := hled.first n _ hx rfl
        exact absurd (Option.some.inj (hfirst.symm.trans hhead)) hm
    · by_cases hm : n = m
      · exact absurd (hset hm hx) (by simp)
      · rw [List.getElem?_set_ne (Ne.symm hm)] at hx
        obtain ⟨hstopping, hjobs⟩ := hd.emptied tick x hx
        exact ⟨by simp [hstopping, hd.alone _ hx rfl], hjobs⟩
  | pop _ _ =>
    refine ⟨hd.alone, fun sub hx ↦ ?_, fun tick x hx ↦ ?_⟩
    · obtain ⟨hstopping, hjobs⟩ := hd.joined sub hx
      exact ⟨by simp [hstopping], hjobs⟩
    · obtain ⟨hstopping, hjobs⟩ := hd.emptied tick x hx
      exact ⟨by simp [hstopping], hjobs⟩
  | @joined m hphase hstopping =>
    refine hd.set fun hm ↦ ⟨fun _ _ _ ↦ hd.alone _ (hm ▸ hphase) rfl, fun sub hx ↦ ?_,
      fun tick x hx ↦ absurd (hset hm hx) (by simp)⟩
    obtain rfl : 0 = sub := by simpa using hset hm hx
    exact ⟨hstopping, fun j _ ↦ Nat.zero_le _⟩
  | @idle m sub hphase hidle =>
    refine hd.set fun hm ↦ ⟨fun _ _ _ ↦ hd.alone _ (hm ▸ hphase) rfl, fun sub' hx ↦ ?_,
      fun tick x hx ↦ absurd (hset hm hx) (by simp)⟩
    obtain rfl : sub + 1 = sub' := by simpa using hset hm hx
    obtain ⟨hstopping, hjobs⟩ := hd.joined sub (hm ▸ hphase)
    refine ⟨hstopping, fun j hj ↦ Nat.lt_of_le_of_ne (hjobs j hj) ?_⟩
    rintro rfl
    -- A job of the subscription would hold one of its slots.
    have hslot := hcounted.inUse_pos hrecorded hj
    omega
  | @finish m sub tick result hphase hsub =>
    refine hd.set fun hm ↦ ⟨fun _ _ _ ↦ hd.alone _ (hm ▸ hphase) rfl,
      fun sub' hx ↦ absurd (hset hm hx) (by simp), fun tick' x hx ↦ ?_⟩
    obtain ⟨hstopping, hjobs⟩ := hd.joined sub (hm ▸ hphase)
    refine ⟨hstopping, List.eq_nil_iff_forall_not_mem.2 fun j hj ↦ ?_⟩
    -- A job has a subscription, and all of them were found idle.
    obtain ⟨y, hy⟩ := hrecorded.subscription_of_job hj
    have hlt := (List.getElem?_eq_some_iff.1 hy).1
    have hle := hjobs j hj
    omega
  | @leave m phase hnot =>
    refine hd.set fun hm ↦ of_before fun x hx ↦ ?_
    rw [← hset hm hx]
    exact hnot

end Drains

end Books

/-! ### Along a run -/

theorem Order.running_eq_none {b : Books} {c c' : Control} (h : Order b c c')
    (hc : c.running = none) : c'.running = none := by
  cases h with
  | take _ => rfl
  | _ => exact hc

/-- A move of a quiet run gives an order and is a chain of deeds: it is no start. -/
theorem State.quiet_move {s : State} {m : Move} (h : quiet s m) :
    Order s.books s.control (s.move m).control ∧ Deeds s.books (s.move m).books := by
  rcases s.order_move m with ⟨horder, hdeeds | ⟨x, rfl⟩⟩ | ⟨hstart, phases, hstarts⟩
  · exact ⟨horder, hdeeds⟩
  · exact absurd h.1 (by simp [Move.isOwn])
  · exact absurd (h.2 hstart) (by simp [hstarts.stopped])

theorem Runs.drains {p : Plan} {s a c : State} (hbuild : p.build = .ok s) (hrun : Runs own s a)
    {n : Nat} (hbefore : ∀ x, a.calls[n]? = some x → x.phase.isDrain = false)
    (hquiet : Runs quiet a c) : Books.Drains c.books c.control n := by
  induction hquiet with
  | refl =>
    refine .of_before fun phase hphase ↦ ?_
    obtain ⟨x, hx, rfl⟩ : ∃ x, a.calls[n]? = some x ∧ x.phase = phase := by
      simpa [State.control] using hphase
    exact hbefore x hx
  | @tail u _ hfirst hlast ih =>
    obtain ⟨m, hm, rfl⟩ := hlast
    have hu : Runs own s u := hrun.trans (Runs.own_of_quiet hfirst)
    have hled := hu.led hbuild
    obtain ⟨hcounted, -⟩ := hu.counted hbuild
    obtain ⟨horder, hdeeds⟩ := State.quiet_move hm
    exact (ih.order hled (hu.recorded hbuild) hcounted horder).deeds (hled.order horder) hdeeds

/-- Where nothing runs, all pullers are over and no job is left, there is no work before the next
start. -/
theorem Runs.still {c d : State} (hquiet : Runs quiet c d) (hrunning : c.running = none)
    (hretired : c.books.Retired) (hjobs : c.jobs = []) :
    work d.journal = work c.journal ∧ d.broker.fetches = c.broker.fetches ∧
      d.broker.acked = c.broker.acked ∧ d.broker.nacked = c.broker.nacked := by
  suffices key : d.running = none ∧ Deeds c.books d.books from
    (hretired.still hjobs key.2).2
  induction hquiet with
  | refl => exact ⟨hrunning, .refl⟩
  | @tail u _ hfirst hlast ih =>
    obtain ⟨m, hm, rfl⟩ := hlast
    obtain ⟨hnone, hdeeds⟩ := ih
    obtain ⟨horder, hdeeds'⟩ := State.quiet_move hm
    exact ⟨horder.running_eq_none hnone, hdeeds.trans hdeeds'⟩

/-- **A stop that succeeds has drained.** Take any run in which only pullers fetch and only jobs
settle, a state `a` of it in which a call has not taken over what was started, and a state `c`
reached from there in which the call has returned successfully and no start has succeeded meanwhile.
Then every puller is over and no slot is in use; every delivery that was fetched was handled once
for this fetch, and then one attempt was made to settle it; whatever is in flight could not be
settled, and if settlements reach the broker at once, the broker answered each such attempt with an
error. And until a start succeeds again nothing is fetched, handled or settled. -/
theorem Runs.drained {p : Plan} {s a c : State} (hbuild : p.build = .ok s)
    (hbroker : p.broker.Untouched) (hrun : Runs own s a) {n tick : Nat}
    (hbefore : ∀ x, a.calls[n]? = some x → x.phase.isDrain = false) (hquiet : Runs quiet a c)
    (hanswer : Session.answer? c n = some (tick, .ok ())) :
    (∀ q ∈ c.pullers, q.isOver = true) ∧
    (∀ sub < p.subscriptions.length, c.inUse sub = 0) ∧
    (∀ tick puller k h, (tick, .fetched puller k h) ∈ c.journal →
      ∃ j r failure, j.delivery.handle = h ∧ about k c.journal = Job.life j r failure) ∧
    (∀ x ∈ c.broker.inFlight, ∃ tick k settlement reason,
      (tick, .settled k x.delivery.handle settlement (some reason)) ∈ c.journal ∧
      ((∀ y, p.client.settleTicks y = 0) → ∃ cause : BrokerError, reason = cause.message)) ∧
    ∀ d, Runs quiet c d → work d.journal = work c.journal ∧
      d.broker.fetches = c.broker.fetches ∧ d.broker.acked = c.broker.acked ∧
      d.broker.nacked = c.broker.nacked := by
  have hc : Runs own s c := hrun.trans (Runs.own_of_quiet hquiet)
  have hled := hc.led hbuild
  have hrecorded := hc.recorded hbuild
  obtain ⟨hcounted, -⟩ := hc.counted hbuild
  have hdrains := hrun.drains hbuild hbefore hquiet
  have hphase : c.control.phases[n]? = some (.returned tick (.ok ())) := by
    obtain ⟨call, hcall, hreturned⟩ := Option.bind_eq_some_iff.1 hanswer
    have hreturned : call.phase = .returned tick (.ok ()) := by
      rw [Call.answer?] at hreturned
      split at hreturned
      · next hphase =>
        obtain ⟨rfl, rfl⟩ := Prod.mk.inj (Option.some.inj hreturned)
        exact hphase
      · exact absurd hreturned (by simp)
    simp [State.control, hcall, hreturned]
  have hrunning : c.running = none := hdrains.alone _ hphase rfl
  obtain ⟨hstopping, hjobs⟩ := hdrains.emptied tick () hphase
  have hretired : c.books.Retired := hled.isOver hrunning hstopping
  have hsubs : c.setup.subscriptions = p.subscriptions := (hc.setup_of_build hbuild).1
  refine ⟨hretired, fun sub hsub ↦ ?_, fun tick puller k h hmem ↦ ?_, fun x hx ↦ ?_,
    fun d hd ↦ hd.still hrunning hretired hjobs⟩
  · have hx := List.getElem?_eq_getElem (hsubs.symm ▸ hsub : sub < c.setup.subscriptions.length)
    have hfetching : c.books.fetching sub = 0 := by
      refine List.countP_eq_zero.2 fun q hq ↦ ?_
      obtain ⟨i, hi⟩ := List.mem_iff_getElem?.1 hq
      simp [hretired.not_slot hi]
    have hworking : c.books.working sub = 0 := by
      rw [Books.working, hjobs]
      rfl
    have hinUse := (hcounted.inUse hx).1
    rw [hfetching, hworking] at hinUse
    exact hinUse
  · have hrecord : .fetched puller k h ∈ c.books.record k :=
      Books.mem_record.2 ⟨⟨tick, hmem⟩, rfl⟩
    -- There is no job, so the one that this delivery was fetched for has all of its life behind it.
    rcases hrecorded.mem_or_life (hrecorded.lt_of_mem hmem rfl) with
      ⟨j, hj, -⟩ | ⟨j, r, failure, -, -, hlife⟩
    · exact absurd (hjobs ▸ hj) List.not_mem_nil
    · rw [hlife] at hrecord
      have hhandle : h = j.delivery.handle := by
        simp only [Job.life, List.mem_cons, reduceCtorEq, Entry.fetched.injEq] at hrecord
        tauto
      exact ⟨j, r, failure, hhandle.symm, hlife⟩
  · rcases (hc.flown hbuild hbroker) _ (List.mem_map_of_mem hx) with
      ⟨y, hy, -⟩ | ⟨k, settlement, reason, hmem⟩
    · have hnone : c.books.loads = [] := congrArg (List.map _) hjobs
      exact absurd (hnone ▸ hy) List.not_mem_nil
    · obtain ⟨⟨tick, hjournal⟩, -⟩ := Books.mem_record.1 hmem
      exact ⟨tick, k, settlement, reason, hjournal, fun hticks ↦
        (hc.prompt hbuild hticks).answered k _ settlement reason hmem⟩

/-- The stop of the small supervisor drains, and its message was handled twice. -/
theorem Runs.drained_lone : ∃ s c : State, Plan.lone.build = .ok s ∧
    Session.answer? c 0 = some (1, .ok ()) ∧ (∀ q ∈ c.pullers, q.isOver = true) ∧
    c.inUse 0 = 0 ∧ (work c.journal).length = 10 ∧
    ∀ d, Runs quiet c d → work d.journal = work c.journal := by
  obtain ⟨s, hbuild, hcalls, hanswer, hwork⟩ : ∃ s, Plan.lone.build = .ok s ∧
      (Move.handling.foldl State.move s).calls = [] ∧
      Session.answer? (Move.stopping.foldl State.move (Move.handling.foldl State.move s)) 0 =
        some (1, .ok ()) ∧
      (work (Move.stopping.foldl State.move (Move.handling.foldl State.move s)).journal).length =
        10 := ⟨_, rfl, by rfl, by rfl, by rfl⟩
  obtain ⟨hover, hidle, -, -, hstill⟩ := Runs.drained hbuild Plan.untouched_lone
    (Runs.own_handling s) (fun x hx ↦ absurd hx (by simp [hcalls])) (Runs.quiet_stopping _) hanswer
  exact ⟨s, _, hbuild, hanswer, hover, hidle 0 (by decide), hwork, fun d hd ↦ (hstill d hd).1⟩

end PullConsumer.Supervisor
