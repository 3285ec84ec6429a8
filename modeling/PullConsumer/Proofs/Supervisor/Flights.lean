import PullConsumer.Proofs.Supervisor.LifeCycle

/-!
# What is in flight

A delivery is in flight at the broker from its fetch until it is settled. As long as strangers leave
the broker alone, whatever is in flight has a job that works on it, or an attempt to settle it has
failed (`Flown`). If settlements reach the broker at once, none of them is given up: every failure
is an error that the broker answered (`Prompt`).
-/

namespace PullConsumer.Supervisor

/-! ### The journal grows -/

theorem Books.suffix_reportResult (b : Books) (sub : Nat) (r : HandlerResult) :
    b.journal <:+ (b.reportResult sub r).journal := by
  rw [Books.reportResult]
  split
  · exact List.suffix_cons ..
  · exact List.suffix_refl _

theorem Books.suffix_reportSettled (b : Books) (sub : Nat) (outcome : Outcome) :
    b.journal <:+ (b.reportSettled sub outcome).journal := by
  rw [Books.reportSettled]
  split
  · exact List.suffix_refl _
  · exact List.suffix_cons ..

/-- Nothing is ever struck out of the journal. -/
theorem Deed.suffix {b b' : Books} (h : Deed b b') : b.journal <:+ b'.journal := by
  cases h with
  | report _ => exact List.suffix_cons ..
  | fatal _ _ => exact List.suffix_cons ..
  | gauge _ _ => exact List.suffix_cons ..
  | ask _ _ => exact List.suffix_cons ..
  | receive _ _ _ => exact List.suffix_cons ..
  | call _ _ _ _ => exact List.suffix_cons ..
  | @finish j r giveUpDue _ _ =>
    have hreport := Books.suffix_reportResult ((b.note (.ended j.number j.sub j.delivery.message
      j.count r)).measure j.sub .processed) j.sub r
    exact (List.suffix_cons ..).trans hreport
  | @settle j outcome answerDue giveUpDue _ _ _ =>
    have hreport := Books.suffix_reportSettled ({ b with
      broker := (b.broker.settle j.delivery.handle outcome.settlement).broker }.note
        (.settled j.number j.delivery.handle outcome.settlement none)) j.sub outcome
    exact (List.suffix_cons ..).trans hreport
  | fail _ _ _ => exact (List.suffix_cons ..).trans (List.suffix_cons ..)
  | _ => exact List.suffix_refl _

theorem Deed.mem_record {b b' : Books} (h : Deed b b') {k : Nat} {e : Entry}
    (he : e ∈ b.record k) : e ∈ b'.record k := by
  obtain ⟨⟨tick, hmem⟩, hk⟩ := Books.mem_record.1 he
  exact Books.mem_record.2 ⟨⟨tick, h.suffix.subset hmem⟩, hk⟩

namespace Books

variable {b b' : Books}

/-! ### Flights -/

/-- Whatever is in flight has a job, or could not be settled. -/
def Flown (b : Books) : Prop :=
  ∀ h ∈ b.broker.flying, (∃ x ∈ b.loads, x.2 = h) ∨
    ∃ k x reason, .settled k h x (some reason) ∈ b.record k

theorem Flown.aside (hb : b.Flown) (hkept : ∀ k e, e ∈ b.record k → e ∈ b'.record k)
    (hflying : ∀ h ∈ b'.broker.flying, h ∈ b.broker.flying) (hloads : b'.loads = b.loads) :
    b'.Flown := by
  intro h hh
  refine (hb h (hflying h hh)).imp (fun hx ↦ hloads ▸ hx) ?_
  rintro ⟨k, x, reason, hmem⟩
  exact ⟨k, x, reason, hkept _ _ hmem⟩

/-- A job goes, and its delivery is not in flight any more or could not be settled. -/
theorem Flown.gone {j : Job} (hb : b.Flown) (hkept : ∀ k e, e ∈ b.record k → e ∈ b'.record k)
    (hrecorded : b.Recorded) (hj : j ∈ b.jobs)
    (hflying : ∀ h ∈ b'.broker.flying, h ∈ b.broker.flying)
    (hself : j.delivery.handle ∈ b'.broker.flying →
      ∃ k x reason, .settled k j.delivery.handle x (some reason) ∈ b'.record k)
    (hloads : b'.loads = b.loads.filter (·.1 ≠ j.number)) : b'.Flown := by
  intro h hh
  by_cases hne : h = j.delivery.handle
  · subst hne
    exact Or.inr (hself hh)
  · rcases hb h (hflying h hh) with ⟨x, hx, rfl⟩ | ⟨k, x, reason, hmem⟩
    · refine Or.inl ⟨x, ?_, rfl⟩
      rw [hloads]
      exact List.mem_filter.2 ⟨hx, decide_eq_true (hrecorded.number_ne hj hx hne)⟩
    · exact Or.inr ⟨k, x, reason, hkept _ _ hmem⟩

/-- A delivery is fetched, and has its job. -/
theorem Flown.receive (hb : b.Flown) {n : Nat} {p : Puller} {c : ConsumerId} {d : Delivery}
    {x : Broker} (htake : b.broker.take? c = .ok (some (d, x)))
    (hkept : ∀ k e, e ∈ b.record k →
      e ∈ (({ b with broker := x }.beginJob n p d).setPhase n .head).record k) :
    (({ b with broker := x }.beginJob n p d).setPhase n .head).Flown := by
  obtain ⟨queues, hx⟩ := Broker.exists_queues_of_take? htake
  have hflying : x.flying = b.broker.flying ++ [d.handle] := by simp [hx, Broker.flying]
  have hloads : (({ b with broker := x }.beginJob n p d).setPhase n .head).loads =
      b.loads ++ [(b.jobsBegun, d.handle)] := loads_beginJob ..
  intro h hh
  change h ∈ x.flying at hh
  rw [hflying, List.mem_append, List.mem_singleton] at hh
  rw [hloads]
  rcases hh with hh | rfl
  · rcases hb h hh with ⟨y, hy, he⟩ | ⟨k, y, reason, hmem⟩
    · exact Or.inl ⟨y, List.mem_append_left _ hy, he⟩
    · exact Or.inr ⟨k, y, reason, hkept _ _ hmem⟩
  · exact Or.inl ⟨_, List.mem_append_right _ List.mem_cons_self, rfl⟩

/-- **Every deed keeps track of what is in flight.** -/
theorem Flown.deed (h : Deed b b') (hrecorded : b.Recorded) (hsound : b.broker.Sound)
    (hb : b.Flown) : b'.Flown := by
  have hkept (k : Nat) (e : Entry) : e ∈ b.record k → e ∈ b'.record k := h.mem_record
  cases h with
  | bind x =>
    obtain ⟨bindFaults, hbind⟩ := b.broker.bind_eq x
    exact hb.aside hkept (fun h hh ↦ by rwa [hbind] at hh) rfl
  | supply x => exact hb.aside hkept (fun h hh ↦ (Broker.flying_supply ..) ▸ hh) rfl
  | ask _ _ =>
    obtain ⟨fetchFaults, hask⟩ := b.broker.beginFetch_eq
    refine hb.aside hkept (fun h hh ↦ ?_) rfl
    change h ∈ b.broker.beginFetch.2.flying at hh
    rwa [hask] at hh
  | receive _ _ htake => exact hb.receive htake hkept
  | call _ _ _ _ =>
    exact hb.aside hkept (fun _ hh ↦ hh) (loads_changeJob _ _ fun _ ↦ ⟨rfl, rfl⟩)
  | rest _ _ _ => exact hb.aside hkept (fun _ hh ↦ hh) (loads_setJobPhase ..)
  | finish _ _ =>
    refine hb.aside hkept (fun h hh ↦ ?_) ?_
    · simpa [setJobPhase, changeJob, measure, note] using hh
    · rw [loads_setJobPhase]
      simp [loads, measure, note]
  | await _ _ => exact hb.aside hkept (fun _ hh ↦ hh) (loads_setJobPhase ..)
  | @settle j outcome answerDue giveUpDue hj hphase hok =>
    obtain ⟨-, hflying, -⟩ := Broker.stock_settle hsound.consumers hok
    have hmem {h : Handle} (hh : h ∈ ((((({ b with
        broker := (b.broker.settle j.delivery.handle outcome.settlement).broker }.note
          (.settled j.number j.delivery.handle outcome.settlement none)).reportSettled j.sub
            outcome).dropJob j.number).giveBack j.sub)).broker.flying) :
        h ∈ b.broker.flying ∧ h ≠ j.delivery.handle := by
      have hbroker : h ∈ (b.broker.settle j.delivery.handle outcome.settlement).broker.flying := by
        simpa [giveBack, dropJob, note] using hh
      rw [hflying] at hbroker
      simpa using hbroker
    refine hb.gone hkept hrecorded hj (fun h hh ↦ (hmem hh).1)
      (fun hh ↦ absurd rfl (hmem hh).2) ?_
    exact (loads_dropJob _ _).trans (by simp [loads, note])
  | @fail j outcome answerDue giveUpDue reason hj hphase hwhy =>
    refine hb.gone hkept hrecorded hj (fun _ hh ↦ hh) (fun _ ↦ ?_) (loads_dropJob _ _)
    refine ⟨j.number, outcome.settlement, reason, ?_⟩
    rw [record_giveBack, record_dropJob, record_reportUnsettled, record_note_self rfl]
    exact List.mem_cons_self
  | _ => exact hb.aside hkept (fun _ hh ↦ hh) rfl

/-! ### Settlements that reach the broker at once -/

/-- The settlements that are under way can be answered now, and every one that failed was answered
with an error. -/
structure Prompt (b : Books) : Prop where
  due : ∀ j ∈ b.jobs, ∀ outcome answerDue giveUpDue,
    j.phase = .settling outcome answerDue giveUpDue → answerDue ≤ b.now
  answered : ∀ k h x reason, .settled k h x (some reason) ∈ b.record k →
    ∃ cause : BrokerError, reason = cause.message

/-- What has become of a job that was changed. -/
theorem mem_changeJob {n : Nat} {f : Job → Job} {i : Job} (h : i ∈ (b.changeJob n f).jobs) :
    i ∈ b.jobs ∨ ∃ j ∈ b.jobs, i = f j := by
  obtain ⟨j, hj, rfl⟩ := List.mem_map.1 h
  by_cases hn : j.number = n
  · exact Or.inr ⟨j, hj, if_pos hn⟩
  · rw [if_neg hn]
    exact Or.inl hj

namespace Prompt

/-- A journal that tells of no failed settlement but of one that was answered. -/
def Fair (b b' : Books) : Prop :=
  ∀ k e, e ∈ b'.record k → e ∈ b.record k ∨
    ∀ h x reason, e = .settled k h x (some reason) → ∃ cause : BrokerError, reason = cause.message

theorem fair_note {e : Entry} (he : ∀ k h x reason, e = .settled k h x (some reason) →
    ∃ cause : BrokerError, reason = cause.message) : Fair b (b.note e) := by
  intro k x hx
  rw [record_note] at hx
  split at hx
  · rcases List.mem_cons.1 hx with rfl | hx
    · exact Or.inr fun h y reason heq ↦ he k h y reason heq
    · exact Or.inl hx
  · exact Or.inl hx

/-- No settlement is begun or waited for. -/
theorem aside (hb : b.Prompt) (hnow : b.now ≤ b'.now)
    (hjobs : ∀ i ∈ b'.jobs, i ∈ b.jobs ∨ ∀ outcome answerDue giveUpDue,
      i.phase = .settling outcome answerDue giveUpDue → answerDue ≤ b.now)
    (hrecord : Fair b b') : b'.Prompt where
  due i hi outcome answerDue giveUpDue hphase := by
    refine Nat.le_trans ?_ hnow
    rcases hjobs i hi with hi | hdue
    · exact hb.due i hi outcome answerDue giveUpDue hphase
    · exact hdue outcome answerDue giveUpDue hphase
  answered k h x reason hmem := by
    rcases hrecord k _ hmem with hmem | hfair
    · exact hb.answered k h x reason hmem
    · exact hfair h x reason rfl

/-- **Every deed keeps settlements prompt** if they need no time to reach the broker. -/
theorem deed (h : Deed b b') (hticks : ∀ x, b.setup.client.settleTicks x = 0) (hb : b.Prompt) :
    b'.Prompt := by
  have hsame : Fair b b := fun k e he ↦ Or.inl he
  have hlive {phase : Job.Phase} (h : phase.isLive = true) : ∀ outcome answerDue giveUpDue,
      phase = .settling outcome answerDue giveUpDue → answerDue ≤ b.now := by
    rintro outcome answerDue giveUpDue rfl
    exact absurd h (by simp [Job.Phase.isLive])
  cases h with
  | pass hnow => exact hb.aside hnow (fun _ hi ↦ Or.inl hi) hsame
  | report _ => exact hb.aside (Nat.le_refl _) (fun _ hi ↦ Or.inl hi) (fair_note (by simp))
  | fatal _ _ => exact hb.aside (Nat.le_refl _) (fun _ hi ↦ Or.inl hi) (fair_note (by simp))
  | gauge _ _ => exact hb.aside (Nat.le_refl _) (fun _ hi ↦ Or.inl hi) (fair_note (by simp))
  | ask _ _ => exact hb.aside (Nat.le_refl _) (fun _ hi ↦ Or.inl hi) (fair_note (by simp))
  | receive _ _ _ =>
    refine hb.aside (Nat.le_refl _) (fun i hi ↦ ?_) (fair_note (by simp))
    rcases List.mem_append.1 hi with hi | hi
    · exact Or.inl hi
    · obtain rfl := List.mem_singleton.1 hi
      exact Or.inr (by simp)
  | call _ _ _ hphase =>
    refine hb.aside (Nat.le_refl _) (fun i hi ↦ ?_) (fair_note (by simp))
    refine (mem_changeJob hi).imp_right ?_
    rintro ⟨j, -, rfl⟩
    exact hlive hphase
  | rest _ _ hphase =>
    refine hb.aside (Nat.le_refl _) (fun i hi ↦ ?_) hsame
    refine (mem_changeJob hi).imp_right ?_
    rintro ⟨j, -, rfl⟩
    exact hlive hphase
  | @finish j r giveUpDue hj _ =>
    refine hb.aside (by simp [setJobPhase, changeJob, measure, note]) (fun i hi ↦ ?_)
      fun k e he ↦ ?_
    · refine (mem_changeJob hi).imp (fun hi ↦ by simpa [measure, note] using hi) ?_
      rintro ⟨i, -, rfl⟩ outcome answerDue giveUpDue heq
      obtain ⟨-, rfl, -⟩ := Job.Phase.settling.inj heq
      rw [hticks, Nat.add_zero]
    · rw [record_setJobPhase, record_reportResult, record_measure] at he
      exact fair_note (by simp) k e he
  | @await j outcome answerDue giveUpDue hj hphase =>
    refine hb.aside (Nat.le_refl _) (fun i hi ↦ ?_) hsame
    refine (mem_changeJob hi).imp_right ?_
    rintro ⟨i, -, rfl⟩ outcome' answerDue' giveUpDue' heq
    obtain ⟨-, rfl, -⟩ := Job.Phase.settling.inj heq
    exact hb.due j hj _ _ _ hphase
  | settle _ _ _ =>
    refine hb.aside (by simp [giveBack, dropJob, note]) (fun i hi ↦ Or.inl ?_) fun k e he ↦ ?_
    · have hmem := (List.mem_filter.1 hi).1
      simpa [note] using hmem
    · rw [record_giveBack, record_dropJob, record_reportSettled] at he
      exact fair_note (b := { b with broker := _ }) (by simp) k e he
  | @fail j outcome answerDue giveUpDue reason hj hphase hwhy =>
    -- It was not given up, for its answer is due already.
    have hcause := hwhy.resolve_right (Nat.not_lt.2 (hb.due j hj _ _ _ hphase))
    refine hb.aside (Nat.le_refl _) (fun i hi ↦ Or.inl (List.mem_filter.1 hi).1) fun k e he ↦ ?_
    rw [record_giveBack, record_dropJob, record_reportUnsettled] at he
    refine fair_note ?_ k e he
    rintro k h x reason' heq
    obtain ⟨-, -, -, heq⟩ := Entry.settled.inj heq
    exact Option.some.inj heq ▸ hcause
  | _ => exact hb.aside (Nat.le_refl _) (fun _ hi ↦ Or.inl hi) hsame

end Prompt

end Books

/-! ### Along a run -/

/-- Whatever is in flight has a job or could not be settled, as long as nobody meddles. -/
theorem Runs.flown {p : Plan} {s t : State} (hbuild : p.build = .ok s)
    (hbroker : p.broker.Untouched) (hrun : Runs own s t) : t.books.Flown := by
  refine (hrun.own_induction (P := fun b ↦ b.Lived ∧ b.Flown) hbuild ?_ ?_ ?_).2
  · rintro b b' hdeed hrecorded ⟨hlived, hflown⟩
    exact ⟨hlived.deed hdeed hrecorded, hflown.deed hdeed hrecorded hlived.sound⟩
  · rintro b token reporter - ⟨hlived, hflown⟩
    exact ⟨hlived.spawn token reporter _ _, hflown⟩
  · refine ⟨Plan.lived_of_build hbuild hbroker, fun h hh ↦ ?_⟩
    obtain ⟨setup, slots, -, -, -, -, hbooks, -⟩ := Plan.of_build hbuild
    rw [hbooks] at hh
    simp [Broker.flying, hbroker.nothing_settled.1] at hh

/-- No settlement is given up if settlements reach the broker at once. -/
theorem Runs.prompt {allowed : State → Move → Prop} {p : Plan} {s t : State}
    (hbuild : p.build = .ok s) (hticks : ∀ x, p.client.settleTicks x = 0)
    (hrun : Runs allowed s t) : t.books.Prompt := by
  have hkept (b : Books) (x : Broker) (hb : b.Prompt) : Books.Prompt { b with broker := x } :=
    ⟨hb.due, hb.answered⟩
  refine (hrun.books_induction (P := fun b ↦ b.setup.client = p.client ∧ b.Prompt) ?_ ?_ ?_ ?_).2
  · rintro b b' hdeed ⟨hclient, hb⟩
    exact ⟨(congrArg Setup.client hdeed.setup_eq).trans hclient,
      hb.deed hdeed fun x ↦ hclient ▸ hticks x⟩
  · rintro b token reporter ⟨hclient, hb⟩
    exact ⟨hclient, hb.due, hb.answered⟩
  · rintro u x - ⟨hclient, hb⟩
    exact ⟨hclient, hkept _ x hb⟩
  · obtain ⟨setup, slots, -, -, hclient, -, hbooks, -⟩ := Plan.of_build hbuild
    rw [hbooks]
    exact ⟨hclient, fun j hj ↦ absurd hj List.not_mem_nil, fun k h x reason hmem ↦
      absurd hmem (by simp [Books.record, about])⟩

end PullConsumer.Supervisor
