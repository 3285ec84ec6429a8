import PullConsumer.Proofs.Supervisor.Story

/-!
# The life cycle of a delivery

Where a delivery stands with the broker says how far its story has come (`Lived`). One that waits in
a queue has only finished rounds behind it; one that a job works on has the entries of this job on
top of them; and one that nobody works on and that does not wait is over, or is as good as over.

Two facts about the broker carry the invariant: no handle is in its stock twice, so that two jobs
never work on the same delivery, and a delivery comes back into a queue only through a negative
settlement that succeeds. All of it needs that strangers leave the broker alone.
-/

namespace PullConsumer

/-- Only a transient failure is settled negatively. -/
theorem Outcome.exists_reason_of_nack {r : HandlerResult}
    (h : (Outcome.ofResult r).settlement = .nack) : ∃ reason, r = .failed (.transient reason) := by
  rcases r with _ | (reason | reason) | p
  · exact absurd h (by decide)
  · exact ⟨reason, rfl⟩
  · exact absurd h (by simp [Outcome.ofResult, Outcome.settlement])
  · exact absurd h (by simp [Outcome.ofResult, Outcome.settlement])

namespace Supervisor

/-! ### Finished rounds -/

/-- Rounds that lie behind a delivery, the last first. There are none with a broker that does not
redeliver. -/
inductive Past (redelivers : Bool) (h : Handle) : List Entry → Prop
  | none : Past redelivers h []
  | round {j : Job} {reason : String} {past : List Entry} (hagain : redelivers = true)
      (hj : j.delivery.handle = h) (hpast : Past redelivers h past) :
      Past redelivers h (j.life (.failed (.transient reason)) .none ++ past)

namespace Past

variable {redelivers : Bool} {h : Handle} {past : List Entry}

theorem eq_nil (hpast : Past redelivers h past) (hnot : redelivers = false) : past = [] := by
  cases hpast with
  | none => rfl
  | round hagain _ _ => exact absurd (hagain.symm.trans hnot) (by decide)

/-- What comes after finished rounds continues the course. -/
theorem course (hpast : Past redelivers h past) {entries : List Entry} (hc : Course h entries) :
    Course h (past.reverse ++ entries) := by
  induction hpast generalizing entries with
  | none => exact hc
  | @round j reason past _ hj _ ih =>
    rw [List.reverse_append, List.append_assoc]
    exact ih (.again hj hc)

end Past

/-- Finished rounds, with all of one more round on top of them or without. -/
def Over (redelivers : Bool) (h : Handle) (entries : List Entry) : Prop :=
  Past redelivers h entries ∨ ∃ (j : Job) (r : HandlerResult) (failure : Option String)
    (past : List Entry), j.delivery.handle = h ∧ Past redelivers h past ∧
      entries = j.life r failure ++ past

/-- The entries of a job are a part of its life. -/
theorem Job.Tells.exists_life {j : Job} {entries : List Entry} (h : j.Tells entries) :
    ∃ r failure, entries <:+ j.life r failure := by
  have hlive (he : entries = [.started j.number j.sub j.delivery.message j.count,
      .fetched j.puller j.number j.delivery.handle]) : ∃ r failure, entries <:+ j.life r failure :=
    ⟨.ok, none, [_, _], by rw [he]; rfl⟩
  rw [Tells] at h
  split at h
  · exact ⟨.ok, none, [_, _, _], by rw [h]; rfl⟩
  · exact hlive h
  · exact hlive h
  · obtain ⟨r, -, h⟩ := h
    exact ⟨r, none, [_], by rw [h]; rfl⟩

/-- A job tells that it was given its delivery. -/
theorem Job.Tells.mem_fetched {j : Job} {entries : List Entry} (h : j.Tells entries) :
    .fetched j.puller j.number j.delivery.handle ∈ entries := by
  rw [Tells] at h
  split at h
  · simp [h]
  · simp [h]
  · simp [h]
  · obtain ⟨r, -, h⟩ := h
    simp [h]

namespace Books

variable {b b' : Books} {j : Job} {n k : Nat} {h : Handle}

/-! ### Stories in the books -/

/-- What the journal tells about the jobs of a delivery, the last first. -/
def story (b : Books) (h : Handle) : List Entry := Supervisor.story h b.journal

theorem story_note_of_none {e : Entry} (he : e.job? = none) : (b.note e).story h = b.story h := by
  have hhands : ∀ k, e.hands k h = false := fun k ↦
    Bool.eq_false_iff.2 fun hk ↦ absurd (Entry.job?_of_hands hk) (by simp [he])
  rw [story, note, story_cons_of_hands hhands, he]
  rfl

@[simp] theorem story_publishFor (b : Books) (sub : Nat) (e : Event) :
    (b.publishFor sub e).story h = b.story h :=
  story_note_of_none rfl

@[simp] theorem story_measure (b : Books) (sub : Nat) (m : Measurement) :
    (b.measure sub m).story h = b.story h := rfl

@[simp] theorem story_giveBack (b : Books) (sub : Nat) :
    (b.giveBack sub).story h = b.story h := rfl

@[simp] theorem story_setJobPhase (b : Books) (n : Nat) (phase : Job.Phase) :
    (b.setJobPhase n phase).story h = b.story h := rfl

@[simp] theorem story_dropJob (b : Books) (n : Nat) : (b.dropJob n).story h = b.story h := rfl

@[simp] theorem story_reportResult (b : Books) (sub : Nat) (r : HandlerResult) :
    (b.reportResult sub r).story h = b.story h := by
  rw [reportResult]
  split
  · simp
  · rfl

@[simp] theorem story_reportSettled (b : Books) (sub : Nat) (outcome : Outcome) :
    (b.reportSettled sub outcome).story h = b.story h := by
  rw [reportSettled]
  split
  · rfl
  · simp

@[simp] theorem story_reportUnsettled (b : Books) (sub : Nat) (x : Settlement) (reason : String) :
    (b.reportUnsettled sub x reason).story h = b.story h := by
  simp [reportUnsettled]

/-- What a job tells belongs to the story of its delivery. -/
theorem story_note_of_mem (hb : b.Recorded) (hj : j ∈ b.jobs) {e : Entry}
    (he : e.job? = some j.number) (hhands : ∀ k h, e.hands k h = false) (h : Handle) :
    (b.note e).story h = if h = j.delivery.handle then e :: b.story h else b.story h := by
  have htells := hb.present j hj
  have hcarried : carried h b.journal j.number = true ↔ h = j.delivery.handle := by
    constructor
    · intro hcarried
      obtain ⟨⟨tick, x⟩, hx, hhands⟩ := List.any_eq_true.1 hcarried
      have hmem : x ∈ b.record j.number := mem_record.2 ⟨⟨tick, hx⟩, Entry.job?_of_hands hhands⟩
      cases x with
      | fetched n k h' =>
        have hh : k = j.number ∧ h' = h := by simpa [Entry.hands] using hhands
        rw [← hh.2]
        exact (htells.fetched hmem).2.2
      | _ => exact absurd hhands (by simp [Entry.hands])
    · rintro rfl
      obtain ⟨⟨tick, hmem⟩, -⟩ := mem_record.1 htells.mem_fetched
      exact List.any_eq_true.2 ⟨_, hmem, by simp [Entry.hands]⟩
  rw [story, note, story_cons_of_hands fun k ↦ hhands k h]
  simp only [he, Option.any_some, hcarried]
  rfl

theorem story_beginJob (hb : b.Recorded) (n : Nat) (p : Puller) (d : Delivery) (h : Handle) :
    (b.beginJob n p d).story h = if h = d.handle then
      .fetched n b.jobsBegun d.handle :: b.story h else b.story h := by
  simp only [eq_comm (a := h)]
  exact story_cons_of_fetched (hb.future _ (Nat.le_refl _)) ..

/-! ### Who works on what -/

/-- The jobs with their deliveries. -/
def loads (b : Books) : List (Nat × Handle) := b.jobs.map fun j ↦ (j.number, j.delivery.handle)

theorem loads_changeJob (b : Books) (n : Nat) {f : Job → Job}
    (hf : ∀ j, (f j).number = j.number ∧ (f j).delivery = j.delivery) :
    (b.changeJob n f).loads = b.loads := by
  rw [loads, loads, changeJob, List.map_map]
  refine List.map_congr_left fun j _ ↦ ?_
  by_cases hj : j.number = n
  · simp [hj, (hf j).1, (hf j).2]
  · simp [hj]

@[simp] theorem loads_setJobPhase (b : Books) (n : Nat) (phase : Job.Phase) :
    (b.setJobPhase n phase).loads = b.loads :=
  loads_changeJob _ _ fun _ ↦ ⟨rfl, rfl⟩

theorem loads_dropJob (b : Books) (n : Nat) :
    (b.dropJob n).loads = b.loads.filter (·.1 ≠ n) := by
  rw [loads, loads, dropJob, List.filter_map]
  rfl

theorem loads_beginJob (b : Books) (n : Nat) (p : Puller) (d : Delivery) :
    (b.beginJob n p d).loads = b.loads ++ [(b.jobsBegun, d.handle)] := by
  simp [loads, beginJob, note]

theorem mem_loads (hj : j ∈ b.jobs) : (j.number, j.delivery.handle) ∈ b.loads :=
  List.mem_map_of_mem hj

/-- Jobs with different deliveries have different numbers. -/
theorem Recorded.number_ne (hb : b.Recorded) (hj : j ∈ b.jobs) {x : Nat × Handle}
    (hx : x ∈ b.loads) (hne : x.2 ≠ j.delivery.handle) : x.1 ≠ j.number := by
  intro heq
  obtain ⟨i, hi, rfl⟩ := List.mem_map.1 hx
  exact hne (congrArg (·.delivery.handle) (List.inj_on_of_nodup_map hb.once hi hj heq))

/-! ### The invariant -/

/-- No two jobs work on the same delivery, and how far the story of a delivery has come is known
from where it is. -/
structure Lived (b : Books) : Prop where
  sound : b.broker.Sound
  flies : ∀ x ∈ b.loads, x.2 ∈ b.broker.flying
  apart : (b.loads.map (·.2)).Nodup
  present : ∀ x ∈ b.loads, ∃ past, Past b.broker.redelivers x.2 past ∧
    b.story x.2 = b.record x.1 ++ past
  absent : ∀ h, (∀ x ∈ b.loads, x.2 ≠ h) → Over b.broker.redelivers h (b.story h)
  ready : ∀ h ∈ b.broker.ready, Past b.broker.redelivers h (b.story h)
  unissued : ∀ h, ¬ b.broker.Issued h → b.story h = []

namespace Lived

theorem ne_of_ready (hb : b.Lived) (hh : h ∈ b.broker.ready) {x : Nat × Handle} (hx : x ∈ b.loads) :
    x.2 ≠ h :=
  Ne.symm ((List.nodup_append.1 hb.sound.once).2.2 h hh x.2 (hb.flies x hx))

theorem issued_of_mem (hb : b.Lived) {x : Nat × Handle} (hx : x ∈ b.loads) :
    b.broker.Issued x.2 :=
  hb.sound.issued x.2 (List.mem_append_right _ (hb.flies x hx))

/-- Whoever works on the delivery of a job is this job. -/
theorem eq_of_handle (hb : b.Lived) (hj : j ∈ b.jobs) {x : Nat × Handle} (hx : x ∈ b.loads)
    (hh : x.2 = j.delivery.handle) : x = (j.number, j.delivery.handle) :=
  List.inj_on_of_nodup_map hb.apart hx (mem_loads hj) hh

/-- Nothing is told about any job, and nothing but new deliveries comes to the broker. -/
theorem aside (hb : b.Lived) (hsound : b'.broker.Sound)
    (hredelivers : b'.broker.redelivers = b.broker.redelivers)
    (hflying : ∀ h ∈ b.broker.flying, h ∈ b'.broker.flying)
    (hready : ∀ h ∈ b'.broker.ready, h ∈ b.broker.ready ∨ ¬ b.broker.Issued h)
    (hissued : b.broker.issued ≤ b'.broker.issued) (hloads : b'.loads = b.loads)
    (hrecord : ∀ k, b'.record k = b.record k) (hstory : ∀ h, b'.story h = b.story h) :
    b'.Lived where
  sound := hsound
  flies x hx := hflying x.2 (hb.flies x (hloads ▸ hx))
  apart := hloads ▸ hb.apart
  present x hx := by
    rw [hredelivers, hstory, hrecord]
    exact hb.present x (hloads ▸ hx)
  absent h hh := by
    rw [hredelivers, hstory]
    exact hb.absent h (hloads ▸ hh)
  ready h hh := by
    rw [hredelivers, hstory]
    rcases hready h hh with hold | hnew
    · exact hb.ready h hold
    · rw [hb.unissued h hnew]
      exact .none
  unissued h hh := by
    rw [hstory]
    exact hb.unissued h fun hi ↦ hh (hi.mono hissued)

/-- The stock of the broker stays as it is. -/
theorem of_stock (hb : b.Lived) {x : Broker} (hredelivers : x.redelivers = b.broker.redelivers)
    (hqueues : x.queues = b.broker.queues) (hinFlight : x.inFlight = b.broker.inFlight)
    (hissued : x.issued = b.broker.issued) : Lived { b with broker := x } := by
  have hready : x.ready = b.broker.ready := by rw [Broker.ready, hqueues, Broker.ready]
  have hflying : x.flying = b.broker.flying := by rw [Broker.flying, hinFlight, Broker.flying]
  refine hb.aside ?_ hredelivers (fun h hh ↦ hflying ▸ hh) (fun h hh ↦ Or.inl (hready ▸ hh))
    hissued.ge rfl (fun _ ↦ rfl) fun _ ↦ rfl
  refine hb.sound.of_stock (congrArg _ hqueues) hissued.ge ?_ fun h hh ↦ ?_
  · rw [hready, hflying]
    exact hb.sound.once
  · rwa [hready, hflying] at hh

/-- Something is told that is about no job. -/
theorem noted (hb : b.Lived) {e : Entry} (he : e.job? = none) : (b.note e).Lived :=
  hb.aside hb.sound rfl (fun _ hh ↦ hh) (fun _ ↦ Or.inl) (Nat.le_refl _) rfl
    (fun _ ↦ record_note_of_ne (by simp [he])) fun _ ↦ story_note_of_none he

/-- A stranger takes a delivery: it will never wait again. -/
theorem taken (hb : b.Lived) {c : ConsumerId} {d : Delivery} {x : Broker}
    (htake : b.broker.take? c = .ok (some (d, x))) : Lived { b with broker := x } := by
  obtain ⟨queues, hx, -, hready⟩ := Broker.take?_eq_some hb.sound.consumers htake
  refine hb.aside (Broker.sound_take? hb.sound htake) (by simp [hx]) (fun h hh ↦ ?_)
    (fun h hh ↦ Or.inl (hready.symm.subset (List.mem_cons_of_mem _ hh))) (by simp [hx]) rfl
    (fun _ ↦ rfl) fun _ ↦ rfl
  have hflying : x.flying = b.broker.flying ++ [d.handle] := by simp [hx, Broker.flying]
  exact hflying ▸ List.mem_append_left _ hh

/-- A job tells something. -/
theorem told (hb : b.Lived) (hrecorded : b.Recorded) (hj : j ∈ b.jobs) (e : Entry)
    (hbroker : b'.broker = b.broker) (hloads : b'.loads = b.loads)
    (hself : b'.record j.number = e :: b.record j.number)
    (hrecord : ∀ k ≠ j.number, b'.record k = b.record k)
    (hstory : ∀ h, b'.story h =
      if h = j.delivery.handle then e :: b.story h else b.story h) : b'.Lived := by
  have hother {h : Handle} (hne : h ≠ j.delivery.handle) : b'.story h = b.story h := by
    rw [hstory, if_neg hne]
  have hload := mem_loads hj
  refine {
    sound := hbroker ▸ hb.sound
    flies := by
      rw [hloads, hbroker]
      exact hb.flies
    apart := hloads ▸ hb.apart
    present := fun x hx ↦ ?_
    absent := fun h hh ↦ ?_
    ready := fun h hh ↦ ?_
    unissued := fun h hh ↦ ?_ }
  · rw [hloads] at hx
    obtain ⟨past, hpast, hx'⟩ := hb.present x hx
    refine ⟨past, hbroker ▸ hpast, ?_⟩
    by_cases hh : x.2 = j.delivery.handle
    · -- No other job works on this delivery.
      obtain rfl := hb.eq_of_handle hj hx hh
      rw [hstory, if_pos rfl, hself, hx', List.cons_append]
    · rw [hother hh, hrecord _ (hrecorded.number_ne hj hx hh), hx']
  · rw [hloads] at hh
    rw [hother (Ne.symm (hh _ hload)), hbroker]
    exact hb.absent h hh
  · rw [hbroker] at hh
    rw [hother (Ne.symm (hb.ne_of_ready hh hload)), hbroker]
    exact hb.ready h hh
  · rw [hbroker] at hh
    rw [hother (h := h) fun heq ↦ hh (heq ▸ hb.issued_of_mem hload)]
    exact hb.unissued h hh

/-- A delivery is received: it waited before, so that there are only finished rounds behind it. -/
theorem receive (hb : b.Lived) (hrecorded : b.Recorded) {p : Puller} {c : ConsumerId}
    {d : Delivery} {x : Broker} (htake : b.broker.take? c = .ok (some (d, x))) :
    (({ b with broker := x }.beginJob n p d).setPhase n .head).Lived := by
  set b' := ({ b with broker := x }.beginJob n p d).setPhase n .head with hb'
  obtain ⟨queues, hx, -, hready⟩ := Broker.take?_eq_some hb.sound.consumers htake
  have hwaited : d.handle ∈ b.broker.ready := hready.symm.subset List.mem_cons_self
  have hnodup : (d.handle :: x.ready).Nodup :=
    hready.nodup_iff.1 (List.nodup_append.1 hb.sound.once).1
  have hflying : b'.broker.flying = b.broker.flying ++ [d.handle] := by
    show x.flying = _
    simp [hx, Broker.flying]
  have hloads : b'.loads = b.loads ++ [(b.jobsBegun, d.handle)] := loads_beginJob ..
  have hredelivers : b'.broker.redelivers = b.broker.redelivers := by
    show x.redelivers = _
    rw [hx]
  have hissued : b'.broker.issued = b.broker.issued := by
    show x.issued = _
    rw [hx]
  have hrecord (k : Nat) : b'.record k = if k = b.jobsBegun then
      .fetched n b.jobsBegun d.handle :: b.record k else b.record k := by
    rw [hb', record_setPhase, beginJob, record_note]
    simp only [Entry.job?, Option.some.injEq, eq_comm]
    rfl
  have hstory (h : Handle) : b'.story h = if h = d.handle then
      .fetched n b.jobsBegun d.handle :: b.story h else b.story h :=
    story_beginJob (b := { b with broker := x })
      (hrecorded.aside rfl rfl rfl rfl fun _ ↦ rfl) ..
  have hother {h : Handle} (hne : h ≠ d.handle) : b'.story h = b.story h := by
    rw [hstory, if_neg hne]
  have hold {y : Nat × Handle} (hy : y ∈ b.loads) : y.1 ≠ b.jobsBegun := by
    obtain ⟨j, hj, rfl⟩ := List.mem_map.1 hy
    exact (hrecorded.begun j hj).ne
  refine {
    sound := Broker.sound_take? hb.sound htake
    flies := fun y hy ↦ ?_
    apart := ?_
    present := fun y hy ↦ ?_
    absent := fun h hh ↦ ?_
    ready := fun h hh ↦ ?_
    unissued := fun h hh ↦ ?_ }
  · rw [hloads, List.mem_append, List.mem_singleton] at hy
    rw [hflying, List.mem_append, List.mem_singleton]
    exact hy.imp (hb.flies y) fun heq ↦ congrArg Prod.snd heq
  · rw [hloads, List.map_append, List.nodup_append]
    refine ⟨hb.apart, List.nodup_singleton _, ?_⟩
    intro h hh h' hh'
    obtain ⟨y, hy, rfl⟩ := List.mem_map.1 hh
    rw [List.map_singleton, List.mem_singleton] at hh'
    rw [hh']
    exact hb.ne_of_ready hwaited hy
  · rw [hloads, List.mem_append, List.mem_singleton] at hy
    rw [hredelivers]
    rcases hy with hy | rfl
    · rw [hother (hb.ne_of_ready hwaited hy), hrecord, if_neg (hold hy)]
      exact hb.present y hy
    · refine ⟨b.story d.handle, hb.ready _ hwaited, ?_⟩
      rw [hstory, hrecord, if_pos rfl, if_pos rfl, hrecorded.future _ (Nat.le_refl _)]
      rfl
  · rw [hloads, List.forall_mem_append, List.forall_mem_singleton] at hh
    rw [hother (Ne.symm hh.2), hredelivers]
    exact hb.absent h hh.1
  · have hne : h ≠ d.handle := by
      rintro rfl
      exact (List.nodup_cons.1 hnodup).1 hh
    rw [hother hne, hredelivers]
    exact hb.ready h (hready.symm.subset (List.mem_cons_of_mem _ hh))
  · have hnot : ¬ b.broker.Issued h := fun hi ↦ hh (hi.mono hissued.ge)
    rw [hother (h := h) fun heq ↦ hnot (heq ▸ hb.sound.issued _ (List.mem_append_left _ hwaited))]
    exact hb.unissued h hnot

/-- A job goes. Its delivery is over, unless it waits again because the broker redelivers it after a
transient failure. -/
theorem gone (hb : b.Lived) (hrecorded : b.Recorded) (hj : j ∈ b.jobs) (r : HandlerResult)
    (failure : Option String) (e : Entry) (back : List Handle) (hsound : b'.broker.Sound)
    (hredelivers : b'.broker.redelivers = b.broker.redelivers)
    (hissued : b'.broker.issued = b.broker.issued)
    (hflying : ∀ h ∈ b.broker.flying, h ≠ j.delivery.handle → h ∈ b'.broker.flying)
    (hready : b'.broker.ready.Perm (back ++ b.broker.ready))
    (hback : back = [] ∨ back = [j.delivery.handle] ∧ b.broker.redelivers = true ∧
      failure = none ∧ ∃ reason, r = .failed (.transient reason))
    (hloads : b'.loads = b.loads.filter (·.1 ≠ j.number))
    (hrecord : ∀ k ≠ j.number, b'.record k = b.record k)
    (hlife : e :: b.record j.number = j.life r failure)
    (hstory : ∀ h, b'.story h =
      if h = j.delivery.handle then e :: b.story h else b.story h) : b'.Lived := by
  have hother {h : Handle} (hne : h ≠ j.delivery.handle) : b'.story h = b.story h := by
    rw [hstory, if_neg hne]
  have hload := mem_loads hj
  have hmem {x : Nat × Handle} (hx : x ∈ b'.loads) : x ∈ b.loads ∧ x.2 ≠ j.delivery.handle := by
    rw [hloads] at hx
    obtain ⟨hx, hne⟩ := List.mem_filter.1 hx
    refine ⟨hx, fun hh ↦ ?_⟩
    rw [hb.eq_of_handle hj hx hh] at hne
    simp at hne
  obtain ⟨past, hpast, hpresent⟩ := hb.present _ hload
  have hself : b'.story j.delivery.handle = j.life r failure ++ past := by
    rw [hstory, if_pos rfl, hpresent, ← hlife, List.cons_append]
  refine {
    sound := hsound
    flies := fun x hx ↦ hflying x.2 (hb.flies x (hmem hx).1) (hmem hx).2
    apart := ?_
    present := fun x hx ↦ ?_
    absent := fun h hh ↦ ?_
    ready := fun h hh ↦ ?_
    unissued := fun h hh ↦ ?_ }
  · rw [hloads]
    exact hb.apart.sublist (List.filter_sublist.map _)
  · obtain ⟨hx, hne⟩ := hmem hx
    rw [hredelivers, hother hne, hrecord _ (hrecorded.number_ne hj hx hne)]
    exact hb.present x hx
  · rw [hredelivers]
    by_cases hne : h = j.delivery.handle
    · obtain rfl := hne
      exact Or.inr ⟨j, r, failure, past, rfl, hpast, hself⟩
    · rw [hother hne]
      refine hb.absent h fun x hx heq ↦ ?_
      refine hh x ?_ heq
      rw [hloads]
      exact List.mem_filter.2 ⟨hx, decide_eq_true (hrecorded.number_ne hj hx (heq ▸ hne))⟩
  · rw [hredelivers]
    have hold : h ∈ b.broker.ready → Past b.broker.redelivers h (b'.story h) := by
      intro hh
      rw [hother (Ne.symm (hb.ne_of_ready hh hload))]
      exact hb.ready h hh
    -- If the delivery waits again, the life of the job has become one more finished round.
    rcases hback with rfl | ⟨rfl, hagain, rfl, reason, rfl⟩
    · exact hold (hready.subset hh)
    · rcases List.mem_cons.1 (hready.subset hh) with rfl | hh
      · rw [hself]
        exact .round hagain rfl hpast
      · exact hold hh
  · have hnot : ¬ b.broker.Issued h := fun hi ↦ hh (hi.mono hissued.ge)
    rw [hother (h := h) fun heq ↦ hnot (heq ▸ hb.issued_of_mem hload)]
    exact hb.unissued h hnot

/-- **Every deed keeps what is known of the stories.** -/
theorem deed (h : Deed b b') (hrecorded : b.Recorded) (hb : b.Lived) : b'.Lived := by
  have hsame {c : Books} (hbroker : c.broker = b.broker) (hloads : c.loads = b.loads)
      (hrecord : ∀ k, c.record k = b.record k) (hstory : ∀ h, c.story h = b.story h) : c.Lived :=
    hb.aside (hbroker ▸ hb.sound) (by rw [hbroker]) (fun h hh ↦ hbroker ▸ hh)
      (fun h hh ↦ Or.inl (hbroker ▸ hh)) (by rw [hbroker]) hloads hrecord hstory
  cases h with
  | pass _ => exact hsame rfl rfl (fun _ ↦ rfl) fun _ ↦ rfl
  | report _ => exact hb.noted rfl
  | blame sub cause => exact hsame rfl rfl (fun _ ↦ rfl) fun _ ↦ rfl
  | fatal n cause => exact hb.noted rfl
  | bind x =>
    obtain ⟨bindFaults, hbind⟩ := b.broker.bind_eq x
    rw [hbind]
    exact hb.of_stock rfl rfl rfl rfl
  | supply x =>
    exact hb.aside (Broker.sound_supply hb.sound x) (Broker.redelivers_supply ..)
      (fun h hh ↦ (Broker.flying_supply ..).symm ▸ hh) (fun h hh ↦ Broker.mem_ready_supply hh)
      (Broker.issued_le_supply ..) rfl (fun _ ↦ rfl) fun _ ↦ rfl
  | turn _ _ _ _ => exact hsame rfl rfl (fun _ ↦ rfl) fun _ ↦ rfl
  | gauge _ _ =>
    exact hsame rfl rfl (fun _ ↦ record_note_of_ne (by simp [Entry.job?])) fun _ ↦
      story_note_of_none rfl
  | reserve _ _ _ _ => exact hsame rfl rfl (fun _ ↦ rfl) fun _ ↦ rfl
  | @ask n p _ _ =>
    obtain ⟨fetchFaults, hask⟩ := b.broker.beginFetch_eq
    have hstock : Lived { b with broker := b.broker.beginFetch.2 } :=
      hask ▸ hb.of_stock rfl rfl rfl rfl
    exact hstock.noted rfl
  | expect _ _ _ => exact hsame rfl rfl (fun _ ↦ rfl) fun _ ↦ rfl
  | receive _ _ htake => exact hb.receive hrecorded htake
  | release _ _ _ => exact hsame rfl rfl (fun _ ↦ rfl) fun _ ↦ rfl
  | @call j lag count phase hj _ _ _ =>
    refine hb.told hrecorded hj _ rfl (loads_changeJob _ _ fun _ ↦ ⟨rfl, rfl⟩)
      (record_note_self rfl) (fun k hk ↦ ?_) fun h ↦ ?_
    · rw [record_changeJob, record_note_of_ne (by simpa [Entry.job?] using hk.symm), record_measure]
    · exact story_note_of_mem (b := b.measure j.sub lag)
        (hrecorded.aside rfl rfl rfl rfl fun _ ↦ rfl) hj rfl (fun _ _ ↦ rfl) h
  | rest _ _ _ => exact hsame rfl (loads_setJobPhase ..) (fun _ ↦ rfl) fun _ ↦ rfl
  | @finish j r giveUpDue hj _ =>
    refine hb.told hrecorded hj (.ended j.number j.sub j.delivery.message j.count r)
      (by simp [setJobPhase, changeJob, measure, note]) ?_ ?_ (fun k hk ↦ ?_) fun h ↦ ?_
    · rw [loads_setJobPhase]
      simp [loads, measure, note]
    · rw [record_setJobPhase, record_reportResult, record_measure, record_note_self rfl]
    · rw [record_setJobPhase, record_reportResult, record_measure,
        record_note_of_ne (by simpa [Entry.job?] using hk.symm)]
    · rw [story_setJobPhase, story_reportResult, story_measure]
      exact story_note_of_mem hrecorded hj rfl (fun _ _ ↦ rfl) h
  | await _ _ => exact hsame rfl (loads_setJobPhase ..) (fun _ ↦ rfl) fun _ ↦ rfl
  | @settle j outcome answerDue giveUpDue hj hphase hok =>
    obtain ⟨r, rfl, hlife⟩ := hrecorded.exists_life_of_settling hj hphase
    obtain ⟨-, hflying, -, hissued, hredelivers, back, hready, hback⟩ :=
      Broker.stock_settle hb.sound.consumers hok
    have hbroker (c : Books) : (((c.reportSettled j.sub (.ofResult r)).dropJob
        j.number).giveBack j.sub).broker = c.broker := by simp [giveBack, dropJob]
    have hloads (c : Books) : (((c.reportSettled j.sub (.ofResult r)).dropJob
        j.number).giveBack j.sub).loads = c.loads.filter (·.1 ≠ j.number) := by
      exact (loads_dropJob _ _).trans (by simp [loads])
    refine hb.gone hrecorded hj r none
      (.settled j.number j.delivery.handle (Outcome.ofResult r).settlement none) back ?_ ?_ ?_
      (fun h hh hne ↦ ?_) ?_ ?_ (hloads _) (fun k hk ↦ ?_) ?_ fun h ↦ ?_
    · rw [hbroker]
      exact Broker.sound_settle hb.sound ..
    · rw [hbroker]
      exact hredelivers
    · rw [hbroker]
      exact hissued
    · rw [hbroker]
      exact hflying ▸ List.mem_filter.2 ⟨hh, decide_eq_true hne⟩
    · rw [hbroker]
      exact hready
    · refine hback.imp_right ?_
      rintro ⟨heq, hnack, hagain⟩
      exact ⟨heq, hagain, rfl, Outcome.exists_reason_of_nack hnack⟩
    · rw [record_giveBack, record_dropJob, record_reportSettled,
        record_note_of_ne (by simpa [Entry.job?] using hk.symm)]
      rfl
    · exact hlife none
    · rw [story_giveBack, story_dropJob, story_reportSettled]
      exact story_note_of_mem (b := { b with broker := _ })
        (hrecorded.aside rfl rfl rfl rfl fun _ ↦ rfl) hj rfl (fun _ _ ↦ rfl) h
  | @fail j outcome answerDue giveUpDue reason hj hphase _ =>
    obtain ⟨r, rfl, hlife⟩ := hrecorded.exists_life_of_settling hj hphase
    refine hb.gone hrecorded hj r (some reason)
      (.settled j.number j.delivery.handle (Outcome.ofResult r).settlement (some reason)) []
      hb.sound rfl rfl (fun _ hh _ ↦ hh) (List.Perm.refl _) (Or.inl rfl) (loads_dropJob _ _)
      (fun k hk ↦ ?_) (hlife (some reason)) fun h ↦ ?_
    · rw [record_giveBack, record_dropJob, record_reportUnsettled,
        record_note_of_ne (by simpa [Entry.job?] using hk.symm)]
    · rw [story_giveBack, story_dropJob, story_reportUnsettled]
      exact story_note_of_mem hrecorded hj rfl (fun _ _ ↦ rfl) h

end Lived

theorem Lived.spawn (hb : b.Lived) (token : Nat) (reporter : Reporter) (first count : Nat) :
    (b.spawn token reporter first count).Lived :=
  hb.aside hb.sound rfl (fun _ hh ↦ hh) (fun _ ↦ Or.inl) (Nat.le_refl _) rfl (fun _ ↦ rfl)
    fun _ ↦ rfl

/-- What is known of the stories, and where the jobs are in theirs, makes each a course. -/
theorem Lived.course (hb : b.Lived) (hrecorded : b.Recorded) (h : Handle) :
    Course h (b.story h).reverse ∧
      (b.broker.redelivers = false → ∃ j r failure, b.story h <:+ Job.life j r failure) := by
  have hlast (j : Job) (r : HandlerResult) (failure : Option String) {past entries : List Entry}
      (hpast : Past b.broker.redelivers h past) (hj : j.delivery.handle = h)
      (hpart : entries <:+ j.life r failure) (hstory : b.story h = entries ++ past) :
      Course h (b.story h).reverse ∧
        (b.broker.redelivers = false → ∃ j r failure, b.story h <:+ Job.life j r failure) := by
    refine ⟨?_, fun hnot ↦ ⟨j, r, failure, ?_⟩⟩
    · rw [hstory, List.reverse_append]
      exact hpast.course (.last hj (List.reverse_prefix.2 hpart))
    · rw [hstory, hpast.eq_nil hnot, List.append_nil]
      exact hpart
  by_cases hload : ∃ x ∈ b.loads, x.2 = h
  · obtain ⟨x, hx, rfl⟩ := hload
    obtain ⟨past, hpast, hstory⟩ := hb.present x hx
    obtain ⟨j, hj, rfl⟩ := List.mem_map.1 hx
    obtain ⟨r, failure, hpart⟩ := (hrecorded.present j hj).exists_life
    exact hlast j r failure hpast rfl hpart hstory
  · rcases hb.absent h fun x hx heq ↦ hload ⟨x, hx, heq⟩ with
      hpast | ⟨j, r, failure, past, hj, hpast, hstory⟩
    · -- Nothing of a further round is there, so any job will do for it.
      let j : Job := ⟨0, 0, 0, 0, ⟨h, default, 0⟩, 0, .fresh⟩
      exact hlast j .ok none hpast rfl (List.nil_suffix ..) rfl
    · exact hlast j r failure hpast hj (List.suffix_refl _) hstory

end Books

/-! ### Along a run -/

theorem Plan.lived_of_build {p : Plan} {s : State} (hbuild : p.build = .ok s)
    (hbroker : p.broker.Untouched) : s.books.Lived := by
  obtain ⟨setup, slots, -, -, -, -, hbooks, -⟩ := Plan.of_build hbuild
  rw [hbooks]
  exact {
    sound := hbroker.sound
    flies := fun _ hx ↦ absurd hx List.not_mem_nil
    apart := List.nodup_nil
    present := fun _ hx ↦ absurd hx List.not_mem_nil
    absent := fun _ _ ↦ Or.inl .none
    ready := fun _ _ ↦ .none
    unissued := fun _ _ ↦ rfl }

/-- A broker that nobody meddles with redelivers or does not, once and for all. -/
theorem Deed.redelivers_eq {b b' : Books} (h : Deed b b') :
    b'.broker.redelivers = b.broker.redelivers := by
  cases h with
  | bind x =>
    obtain ⟨bindFaults, hbind⟩ := b.broker.bind_eq x
    rw [hbind]
  | supply x => exact Broker.redelivers_supply ..
  | ask _ _ =>
    obtain ⟨fetchFaults, hask⟩ := b.broker.beginFetch_eq
    rw [hask]
    rfl
  | receive _ _ htake =>
    obtain ⟨queues, rfl⟩ := Broker.exists_queues_of_take? htake
    rfl
  | finish _ _ => simp [Books.setJobPhase, Books.changeJob, Books.measure, Books.note]
  | settle _ _ _ => simp [Books.giveBack, Books.dropJob, Books.note, Broker.redelivers_settle]
  | _ => rfl

theorem Runs.redelivers_eq {p : Plan} {s t : State} (hbuild : p.build = .ok s)
    (hrun : Runs onlyJobsSettle s t) : t.broker.redelivers = p.broker.redelivers := by
  refine hrun.settling_induction (P := fun b ↦ b.broker.redelivers = p.broker.redelivers) hbuild
    (fun b b' hdeed _ hb ↦ hdeed.redelivers_eq.trans hb) (fun _ _ _ _ hb ↦ hb) ?_ ?_ ?_
  · intro b hb
    obtain ⟨fetchFaults, hask⟩ := b.broker.beginFetch_eq
    rw [hask]
    exact hb
  · intro b c d x htake hb
    obtain ⟨queues, rfl⟩ := Broker.exists_queues_of_take? htake
    exact hb
  · obtain ⟨setup, slots, -, -, -, -, hbooks, -⟩ := Plan.of_build hbuild
    rw [hbooks]

/-- **What is known of the stories is known all along a run**, as long as strangers do not
settle. -/
theorem Runs.lived {p : Plan} {s t : State} (hbuild : p.build = .ok s)
    (hbroker : p.broker.Untouched) (hrun : Runs onlyJobsSettle s t) : t.books.Lived := by
  refine hrun.settling_induction (P := Books.Lived) hbuild
    (fun b b' hdeed hrecorded hb ↦ hb.deed hdeed hrecorded)
    (fun b token reporter _ hb ↦ hb.spawn token reporter _ _) ?_
    (fun b c d x htake hb ↦ hb.taken htake) (Plan.lived_of_build hbuild hbroker)
  intro b hb
  obtain ⟨fetchFaults, hask⟩ := b.broker.beginFetch_eq
  rw [hask]
  exact hb.of_stock rfl rfl rfl rfl

/-- **The life cycle of a delivery.** In every run in which only jobs settle, what the journal tells
about the jobs of a delivery is a course: rounds that end with a transient failure whose negative
settlement succeeds, and one last round at most. So the results of its handler are transient
failures, each followed by such a settlement, and then at most one last result; after any other
result, or after a settlement that failed, no handler is called for it; no two calls overlap; and
there is at most one of them if the broker does not redeliver. -/
theorem Runs.life_cycle {p : Plan} {s t : State} (hbuild : p.build = .ok s)
    (hbroker : p.broker.Untouched) (hrun : Runs onlyJobsSettle s t) (h : Handle) :
    Course h (story h t.journal).reverse ∧
      (∃ (reasons : List String) (last : List HandlerResult),
        (story h t.journal).reverse.filterMap Entry.result? =
          reasons.map (fun x ↦ .failed (.transient x)) ++ last ∧
        reasons.length ≤ (story h t.journal).countP Entry.isNack ∧ last.length ≤ 1) ∧
      ((story h t.journal).reverse.Pairwise fun e x ↦ e.isLast = true → x.isStart = false) ∧
      (∀ l, l <+: (story h t.journal).reverse →
        l.countP Entry.isStart ≤ l.countP Entry.isEnd + 1) ∧
      (p.broker.redelivers = false → (story h t.journal).countP Entry.isStart ≤ 1) := by
  obtain ⟨hcourse, honce⟩ := (hrun.lived hbuild hbroker).course (hrun.recorded hbuild) h
  refine ⟨hcourse, ?_, hcourse.nothing_after, fun l hl ↦ hcourse.apart hl, fun hnot ↦ ?_⟩
  · obtain ⟨reasons, last, hresults, hnacks, hlast⟩ := hcourse.results
    rw [List.countP_reverse] at hnacks
    exact ⟨reasons, last, hresults, hnacks, hlast⟩
  · obtain ⟨j, r, failure, hpart⟩ := honce ((hrun.redelivers_eq hbuild).trans hnot)
    exact hpart.sublist.countP_le

/-- The message of the small supervisor fails once and is handled again. -/
theorem Runs.life_cycle_lone : ∃ (s t : State) (h : Handle), Plan.lone.build = .ok s ∧
    Course h (story h t.journal).reverse ∧ (story h t.journal).reverse.filterMap Entry.result? =
      [.failed (.transient "busy"), .ok] := by
  obtain ⟨s, hbuild, hresults⟩ : ∃ s, Plan.lone.build = .ok s ∧
      (story ⟨"s.c.1"⟩ (Move.handling.foldl State.move s).journal).reverse.filterMap
        Entry.result? = [.failed (.transient "busy"), .ok] := ⟨_, rfl, by decide +kernel⟩
  have hrun := (Runs.own_handling s).onlyJobsSettle_of_own
  exact ⟨s, _, ⟨"s.c.1"⟩, hbuild,
    (Runs.life_cycle hbuild Plan.untouched_lone hrun ⟨"s.c.1"⟩).1, hresults⟩

end Supervisor

end PullConsumer
