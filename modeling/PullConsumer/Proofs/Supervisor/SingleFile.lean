import PullConsumer.Proofs.Broker.Custody
import PullConsumer.Proofs.Supervisor.Given

/-!
# One delivery at a time

A subscription that may have one job at a time handles its deliveries in single file
(`State.single_file`). What the journal tells of them are the records of their jobs, one after the
other, so that nothing of one delivery comes between what is told of another. Whatever is said of
the order in which handlers are called and deliveries settled is read off from this.

The deliveries are told apart by their jobs. One that is redelivered is another one in this sense,
and takes its place where it is given again. Where nothing is redelivered the order is that of the
line of the consumer, and so that of publication.
-/

namespace PullConsumer.Supervisor

/-! ### Calls and settlements in the journal -/

namespace Entry

/-- A handler was called, by a job for a message. -/
def called? : Entry → Option (Nat × Message)
  | started k _ m _ => some (k, m)
  | _ => none

/-- The handler of a subscription was called. -/
def calledFor? (sub : Nat) : Entry → Option (Nat × Message)
  | started k s m _ => if s = sub then some (k, m) else none
  | _ => none

/-- An attempt of a job to settle a delivery was over, whatever came of it. -/
def attempt? : Entry → Option (Nat × Handle)
  | settled k h _ _ => some (k, h)
  | _ => none

theorem settled?_or_attempt? (e : Entry) :
    e.settled?.map Prod.fst = none ∨ e.settled?.map Prod.fst = e.attempt?.map Prod.snd := by
  cases e with
  | settled k h x failure =>
    cases failure with
    | none => exact Or.inr rfl
    | some reason => exact Or.inl rfl
  | _ => exact Or.inl rfl

end Entry

/-- Parts that are whole but for the last one make up a prefix. -/
theorem flatMap_isPrefix_map {α β : Type} {l : List α} {f : α → List β} {g : α → β}
    (hwhole : ∀ x ∈ l.dropLast, f x = [g x]) (hpart : ∀ x ∈ l, f x <+: [g x]) :
    l.flatMap f <+: l.map g := by
  rcases l.eq_nil_or_concat' with rfl | ⟨first, last, rfl⟩
  · exact List.prefix_rfl
  · rw [List.dropLast_concat] at hwhole
    have hfirst : first.flatMap f = first.map g :=
      (List.flatMap_congr hwhole).trans (List.flatMap_pure_eq_map g first)
    rw [List.flatMap_append, List.map_append, hfirst, List.flatMap_singleton, List.map_singleton]
    exact (List.prefix_append_right_inj _).2 (hpart last (List.mem_append_right _ (List.mem_singleton_self _)))

theorem filterMap_sublist_filterMap {α β : Type} {f g : α → Option β}
    (h : ∀ x, f x = none ∨ f x = g x) (l : List α) : (l.filterMap f).Sublist (l.filterMap g) := by
  induction l with
  | nil => exact List.Sublist.refl _
  | cons x rest ih =>
    rw [List.filterMap_cons, List.filterMap_cons]
    rcases h x with hx | hx
    · rw [hx]
      dsimp only
      split
      · exact ih
      · exact ih.cons _
    · rw [hx]
      split
      · exact ih
      · exact ih.cons_cons _

namespace Books

variable {b : Books} {j : Job} {n k sub : Nat} {d : Delivery}

/-- What is told of a job that has begun is a part of its life, from the fetch on. -/
theorem Recorded.exists_life (hb : b.Recorded) (hk : k < b.jobsBegun) :
    ∃ (j : Job) (r : HandlerResult) (failure : Option String), j.number = k ∧
      b.seats[j.puller]? = some j.sub ∧ b.record k <:+ j.life r failure ∧
      .fetched j.puller k j.delivery.handle ∈ b.record k := by
  rcases hb.mem_or_life hk with ⟨j, hj, rfl⟩ | ⟨j, r, failure, rfl, hseat, hlife⟩
  · have htells := hb.present j hj
    obtain ⟨r, failure, hlife⟩ := htells.exists_life
    exact ⟨j, r, failure, rfl, hb.placed j hj, hlife, htells.mem_fetched⟩
  · exact ⟨j, r, failure, rfl, hseat, hlife ▸ List.suffix_rfl, by simp [hlife, Job.life]⟩

/-- What is told of a delivery that is looked after is a part of the life of its job. -/
theorem Tended.exists_life (hb : b.Recorded) (h : b.Tended n k d) :
    ∃ (j : Job) (r : HandlerResult) (failure : Option String), j.number = k ∧ j.delivery = d ∧
      b.record k <:+ j.life r failure := by
  rcases h with ⟨j, hj, rfl, -, rfl⟩ | ⟨j, r, failure, rfl, -, rfl, hlife⟩
  · obtain ⟨r, failure, hlife⟩ := (hb.present j hj).exists_life
    exact ⟨j, r, failure, rfl, rfl, hlife⟩
  · exact ⟨j, r, failure, rfl, rfl, hlife ▸ List.suffix_rfl⟩

/-- A job calls the handler of the subscription in whose file it is. -/
theorem mem_filed_iff (hb : b.Recorded) {s count : Nat} {m : Message}
    (hmem : .started k s m count ∈ b.record k) : k ∈ b.filed sub ↔ s = sub := by
  obtain ⟨⟨tick, hjournal⟩, -⟩ := mem_record.1 hmem
  obtain ⟨j, r, failure, rfl, hseat, hlife, hfetched⟩ := hb.exists_life (hb.lt_of_mem hjournal rfl)
  obtain ⟨rfl, -⟩ : s = j.sub ∧ _ := by simpa [Job.life] using hlife.subset hmem
  constructor
  · intro hk
    obtain ⟨⟨n, i⟩, hx, rfl⟩ := List.mem_map.1 hk
    obtain ⟨hbegun, hsub⟩ := List.mem_filter.1 hx
    obtain ⟨tick', h, hmem'⟩ := mem_begun.1 hbegun
    obtain ⟨rfl, -⟩ : n = j.puller ∧ _ := by
      simpa [Job.life] using hlife.subset (mem_record.2 ⟨⟨tick', hmem'⟩, rfl⟩)
    exact Option.some.inj (hseat.symm.trans (of_decide_eq_true hsub))
  · rintro rfl
    obtain ⟨⟨tick', hmem'⟩, -⟩ := mem_record.1 hfetched
    refine List.mem_map.2 ⟨(j.puller, j.number), List.mem_filter.2 ⟨?_, decide_eq_true hseat⟩, rfl⟩
    exact mem_begun.2 ⟨tick', _, hmem'⟩

/-- The calls of the handler of a subscription, as the journal tells of them, the first one
first. -/
def called (b : Books) (sub : Nat) : List (Nat × Message) := b.tellings (Entry.calledFor? sub)

/-- The handler of a subscription is called by the jobs in its file. -/
theorem called_eq (hb : b.Recorded) (sub : Nat) :
    b.called sub = (b.trace (b.filed sub)).filterMap Entry.called? := by
  have hdoings : b.called sub = b.doings.filterMap (Entry.calledFor? sub) := by
    rw [called, doings, tellings, tellings, List.filterMap_filterMap]
    refine List.filterMap_congr fun x _ ↦ ?_
    obtain ⟨tick, e⟩ := x
    cases e <;> rfl
  rw [hdoings, trace, List.filterMap_filter]
  refine List.filterMap_congr fun e he ↦ ?_
  cases e with
  | started k s m count =>
    have hmem : .started k s m count ∈ b.record k := mem_record.2 ⟨(mem_doings.1 he).1, rfl⟩
    simp only [Entry.calledFor?, Entry.called?, Entry.job?, Option.any_some, decide_eq_true_eq,
      mem_filed_iff hb hmem]
  | _ => exact (ite_self _).symm

/-- The settlements of some jobs that have succeeded, the first one first. -/
def settlements (b : Books) (ks : List Nat) : List (Handle × Settlement) :=
  (b.trace ks).filterMap Entry.settled?

theorem settlements_sublist (b : Books) (ks : List Nat) :
    (b.settlements ks).Sublist (b.tellings Entry.settled?) := by
  have hdoings : b.tellings Entry.settled? = b.doings.filterMap Entry.settled? := by
    rw [doings, tellings, tellings, List.filterMap_filterMap]
    refine List.filterMap_congr fun x _ ↦ ?_
    obtain ⟨tick, e⟩ := x
    cases e <;> rfl
  rw [hdoings]
  exact List.filter_sublist.filterMap _

end Books

/-! ### Along a run -/

namespace State

variable {plan : Plan} {s : State} {sub : Nat} {x : Subscription} {moves : List Move}

/-- Whatever a subscription is given is looked after from then on. -/
theorem tended_of_given (hbuild : plan.build = .ok s) {y : Nat × Delivery}
    (hy : y ∈ s.given sub moves) : ∃ n, (s.after moves).books.Tended n y.1 y.2 := by
  obtain ⟨⟨u, m⟩, hstep, hgiven⟩ := List.mem_filterMap.1 hy
  obtain ⟨earlier, later, rfl, rfl⟩ := exists_split_of_mem_steps hstep
  cases m with
  | pull n =>
    rw [given?] at hgiven
    split at hgiven
    · next p hp =>
      split at hgiven
      · next d hanswer =>
        rw [Option.ite_none_right_eq_some] at hgiven
        obtain ⟨-, heq⟩ := hgiven
        obtain rfl := Option.some.inj heq
        have hrecorded := (Runs.of_moves s (earlier ++ [.pull n])).recorded hbuild
        rw [after_concat] at hrecorded
        have hafter : s.after (earlier ++ .pull n :: later) =
            ((s.after earlier).move (.pull n)).after later := s.after_append ..
        rw [hafter]
        exact ⟨n, (Runs.of_moves _ later).tended hrecorded
          (Or.inl (exists_job_of_fetchAnswer? hp hanswer))⟩
      · exact absurd hgiven (by simp)
    · exact absurd hgiven (by simp)
  | _ => exact absurd hgiven (by simp [given?])

/-- **What holds of a subscription that may have one job at a time**, after any moves. It is given
some deliveries, each with the number of its job. -/
structure SingleFile (s : State) (sub : Nat) (c : ConsumerId) (moves : List Move) : Prop where
  /-- It fetches, or there is a job of it, or neither; there is never more than one of these. -/
  alone : (s.after moves).pullers.countP (fun p ↦ p.sub = sub && p.holdsSlot) +
    (s.after moves).jobs.countP (fun j ↦ j.sub = sub) ≤ 1
  /-- Calls of its handler do not overlap. -/
  apart : ∀ l, l <:+ (s.after moves).journal → callsBegun sub l ≤ callsEnded sub l + 1
  /-- Whenever it begins to fetch, the attempt to settle each of its deliveries is over. -/
  settled : ∀ tick n earlier, (tick, .fetchBegun n) :: earlier <:+ (s.after moves).journal →
    (s.after moves).books.seats[n]? = some sub →
    ∀ k, ¬ Unsettled (s.after moves).books.seats sub k earlier
  /-- What is told of its deliveries are their records, in the order in which they were given. -/
  trace : (s.after moves).books.trace ((s.given sub moves).map (·.1)) =
    (s.given sub moves).flatMap fun y ↦ ((s.after moves).books.record y.1).reverse
  /-- All of them but the last have been handled and settled. -/
  served : ∀ y ∈ (s.given sub moves).dropLast, ∃ n, (s.after moves).books.Served n y.1 y.2
  /-- The handler is called for them in the order in which they were given. -/
  called : (s.after moves).books.called sub <+:
    (s.given sub moves).map fun y ↦ (y.1, y.2.message)
  /-- Attempts to settle them are over in the same order. -/
  attempts : ((s.after moves).books.trace ((s.given sub moves).map (·.1))).filterMap
    Entry.attempt? <+: (s.given sub moves).map fun y ↦ (y.1, y.2.handle)
  /-- Where nothing is redelivered and its consumer is not declared again, it is given what waited
  and then what was published, in this order and up to what still waits; strangers may take some of
  that. -/
  line : ∀ before rest, moves = before ++ rest → (s.after before).broker.redelivers = false →
    (∀ y ∈ (s.after before).steps rest, y.1.Orderly c y.2) →
    (((s.after before).given sub rest).map (·.2) ++ (s.after moves).broker.line c).Sublist
      ((s.after before).broker.line c ++ (s.after before).lined c rest) ∧
    ((∀ m ∈ rest, m.isOwn = true) →
      ((s.after before).given sub rest).map (·.2) ++ (s.after moves).broker.line c =
        (s.after before).broker.line c ++ (s.after before).lined c rest)
  /-- If it was given nothing before, its messages are handled and settled in that order. -/
  published : ∀ before rest, moves = before ++ rest →
    (s.after before).broker.redelivers = false → s.given sub before = [] →
    (∀ y ∈ (s.after before).steps rest, y.1.Orderly c y.2) →
    (((s.after moves).books.called sub).map (·.2)).Sublist
      (((s.after before).broker.line c ++ (s.after before).lined c rest).map Delivery.message) ∧
    (((s.after moves).books.settlements ((s.given sub moves).map (·.1))).map (·.1)).Sublist
      (((s.after before).broker.line c ++ (s.after before).lined c rest).map Delivery.handle)
  /-- The settlements of them that succeed are entered at the broker in their order. -/
  entered : (∀ m ∈ moves, m.isOwn = true) →
    (Broker.settledBy .ack
      ((s.after moves).books.settlements ((s.given sub moves).map (·.1)))).Sublist
        (s.after moves).broker.acked ∧
    (Broker.settledBy .nack
      ((s.after moves).books.settlements ((s.given sub moves).map (·.1)))).Sublist
        (s.after moves).broker.nacked

/-- The last delivery apart, the job of each is gone. -/
theorem served_of_dropLast (hbuild : plan.build = .ok s)
    (hfiled : (s.after moves).books.Filed sub) {y : Nat × Delivery}
    (hy : y ∈ (s.given sub moves).dropLast) : ∃ n, (s.after moves).books.Served n y.1 y.2 := by
  have hrecorded := (Runs.of_moves s moves).recorded hbuild
  have hfile := filed_after hbuild sub moves
  obtain ⟨n, hjob | hserved⟩ := tended_of_given hbuild (List.dropLast_subset _ hy)
  · obtain ⟨j, hj, hnumber, -, -⟩ := hjob
    rcases (s.given sub moves).eq_nil_or_concat' with hnil | ⟨first, last, hlast⟩
    · rw [hnil] at hy
      exact absurd hy List.not_mem_nil
    · rw [hlast, List.dropLast_concat] at hy
      rw [hlast, List.map_append, List.map_singleton] at hfile
      have hnodup := hfiled.nodup
      rw [hfile, List.nodup_append] at hnodup
      have hfirst : y.1 ∈ first.map (·.1) := List.mem_map_of_mem hy
      -- The job that is there would be the last one of the file.
      have hmem : j.number ∈ (s.after moves).books.filed sub := by
        rw [hfile, hnumber]
        exact List.mem_append_left _ hfirst
      have heq := hfiled.last j hj (Books.sub_of_filed hrecorded hj hmem)
      rw [hfile, List.getLast?_concat, hnumber] at heq
      exact absurd (Option.some.inj heq).symm
        (hnodup.2.2 _ hfirst _ (List.mem_singleton_self _))
  · exact ⟨n, hserved⟩

/-- What is told of the deliveries that were given. -/
theorem trace_given (hbuild : plan.build = .ok s) (hfiled : (s.after moves).books.Filed sub) :
    (s.after moves).books.trace ((s.given sub moves).map (·.1)) =
      (s.given sub moves).flatMap fun y ↦ ((s.after moves).books.record y.1).reverse := by
  have htrace := hfiled.trace
  rwa [filed_after hbuild, List.flatMap_map] at htrace

/-- What every job tells once is told of the deliveries in their order. -/
theorem trace_isPrefix (hbuild : plan.build = .ok s) (hfiled : (s.after moves).books.Filed sub)
    {β : Type} {tell : Entry → Option β} {g : Nat × Delivery → β}
    (htell : ∀ (j : Job) (r : HandlerResult) (failure : Option String),
      (j.life r failure).reverse.filterMap tell = [g (j.number, j.delivery)]) :
    ((s.after moves).books.trace ((s.given sub moves).map (·.1))).filterMap tell <+:
      (s.given sub moves).map g := by
  have hrecorded := (Runs.of_moves s moves).recorded hbuild
  rw [trace_given hbuild hfiled, List.filterMap_flatMap]
  refine flatMap_isPrefix_map (fun y hy ↦ ?_) fun y hy ↦ ?_
  · obtain ⟨n, j, r, failure, hnumber, -, hdelivery, hlife⟩ :=
      served_of_dropLast hbuild hfiled hy
    rw [hlife, htell, hnumber, hdelivery]
  · obtain ⟨n, htended⟩ := tended_of_given hbuild hy
    obtain ⟨j, r, failure, hnumber, hdelivery, hlife⟩ := htended.exists_life hrecorded
    have hpart := (List.reverse_prefix.2 hlife).filterMap tell
    rwa [htell, hnumber, hdelivery] at hpart

/-- The handler is called for the deliveries in the order in which they were given. -/
theorem called_isPrefix (hbuild : plan.build = .ok s)
    (hfiled : (s.after moves).books.Filed sub) :
    (s.after moves).books.called sub <+: (s.given sub moves).map fun y ↦ (y.1, y.2.message) := by
  rw [Books.called_eq ((Runs.of_moves s moves).recorded hbuild), filed_after hbuild sub moves]
  exact trace_isPrefix hbuild hfiled fun _ _ _ ↦ rfl

/-- Attempts to settle are over in that order. -/
theorem attempts_isPrefix (hbuild : plan.build = .ok s)
    (hfiled : (s.after moves).books.Filed sub) :
    ((s.after moves).books.trace ((s.given sub moves).map (·.1))).filterMap Entry.attempt? <+:
      (s.given sub moves).map fun y ↦ (y.1, y.2.handle) :=
  trace_isPrefix hbuild hfiled fun _ _ _ ↦ rfl

/-- What is given in the order of a line is handled in the order of that line, -/
theorem called_sublist (hbuild : plan.build = .ok s) (hfiled : (s.after moves).books.Filed sub)
    {line : List Delivery} (hline : ((s.given sub moves).map (·.2)).Sublist line) :
    (((s.after moves).books.called sub).map (·.2)).Sublist (line.map Delivery.message) := by
  have hcalled := ((called_isPrefix hbuild hfiled).map Prod.snd).sublist
  have hmessages := hline.map Delivery.message
  rw [List.map_map] at hcalled hmessages
  exact hcalled.trans hmessages

/-- and settled in the same order, where that succeeds. -/
theorem settlements_sublist_line (hbuild : plan.build = .ok s)
    (hfiled : (s.after moves).books.Filed sub) {line : List Delivery}
    (hline : ((s.given sub moves).map (·.2)).Sublist line) :
    (((s.after moves).books.settlements ((s.given sub moves).map (·.1))).map (·.1)).Sublist
      (line.map Delivery.handle) := by
  have hattempts := ((attempts_isPrefix hbuild hfiled).map Prod.snd).sublist
  have hhandles := hline.map Delivery.handle
  rw [List.map_map] at hattempts hhandles
  refine List.Sublist.trans ?_ (hattempts.trans hhandles)
  rw [Books.settlements, List.map_filterMap, List.map_filterMap]
  exact filterMap_sublist_filterMap Entry.settled?_or_attempt? _

/-- Where no stranger uses the broker, the settlements of jobs that succeed are entered there in
their order. -/
theorem settlements_entered (hbuild : plan.build = .ok s) (hown : ∀ m ∈ moves, m.isOwn = true)
    (ks : List Nat) :
    (Broker.settledBy .ack ((s.after moves).books.settlements ks)).Sublist
        (s.after moves).broker.acked ∧
      (Broker.settledBy .nack ((s.after moves).books.settlements ks)).Sublist
        (s.after moves).broker.nacked := by
  have hown' : Runs own s (s.after moves) := Runs.of_list fun m hm _ ↦ hown m hm
  obtain ⟨ops, huses⟩ := hown'.exists_uses
  obtain ⟨setup, slots, -, -, -, -, hbooks, -⟩ := Plan.of_build hbuild
  have hbroker : (s.after moves).broker = s.broker.after ops := huses.broker
  have hsettled := huses.settled
  have hempty : s.books.tellings Entry.settled? = [] := by
    rw [hbooks]
    rfl
  rw [hempty, List.nil_append] at hsettled
  have hpart := (s.after moves).books.settlements_sublist ks
  rw [hsettled] at hpart
  obtain ⟨hacked, hnacked⟩ := s.broker.entered_after ops
  rw [hbroker, hacked, hnacked]
  exact ⟨((hpart.filter _).map _).trans (List.sublist_append_right ..),
    ((hpart.filter _).map _).trans (List.sublist_append_right ..)⟩

/-- **One by one**: whoever moves, the deliveries of a subscription that may have one job at a time
are handled and settled in the order in which it was given them, each before the next is fetched. -/
theorem single_file (hbuild : plan.build = .ok s) (hx : plan.subscriptions[sub]? = some x)
    (hone : x.maxConcurrency = 1) (moves : List Move) :
    SingleFile s sub x.binding.toConsumerId moves := by
  have hrun := Runs.of_moves s moves
  have hsubs : (s.after moves).setup.subscriptions[sub]? = some x :=
    (hrun.setup_of_build hbuild).1 ▸ hx
  have hbounds := (hrun.counted hbuild).2.bounds
  have hfiled := hrun.filed hbuild hx hone
  have hline (before rest : List Move) (hmoves : moves = before ++ rest)
      (hnot : (s.after before).broker.redelivers = false)
      (horderly : ∀ y ∈ (s.after before).steps rest, y.1.Orderly x.binding.toConsumerId y.2) := by
    have h := line_given hbuild hx before hnot horderly
    rw [← after_append, ← hmoves] at h
    exact h
  refine {
    alone := ?_
    apart := fun l hl ↦ ?_
    settled := fun tick n earlier hl hseat k hk ↦ ?_
    trace := trace_given hbuild hfiled
    served := fun y hy ↦ served_of_dropLast hbuild hfiled hy
    called := called_isPrefix hbuild hfiled
    attempts := attempts_isPrefix hbuild hfiled
    line := hline
    published := fun before rest hmoves hnot hnothing horderly ↦ ?_
    entered := fun hown ↦ settlements_entered hbuild hown _ }
  · obtain ⟨hinUse, hle⟩ := (hrun.counted hbuild).1.inUse hsubs
    rw [hinUse, hone] at hle
    simp only [Puller.holdsSlot_eq]
    exact hle
  · have hcalls := (hbounds l hl).calls sub x hsubs
    rwa [hone] at hcalls
  · obtain ⟨sub', y, hseat', hy, hbound⟩ := (hbounds _ hl).fetch tick n earlier rfl
    obtain rfl : sub' = sub := Option.some.inj (hseat'.symm.trans hseat)
    obtain rfl : x = y := Option.some.inj (hsubs.symm.trans hy)
    have hlt := hbound [k] (List.nodup_singleton k) fun i hi ↦ List.mem_singleton.1 hi ▸ hk
    rw [hone] at hlt
    exact absurd hlt (by simp)
  · have hgiven : s.given sub moves = (s.after before).given sub rest := by
      rw [hmoves, given_append, hnothing, List.nil_append]
    have hall : ((s.given sub moves).map (·.2)).Sublist
        ((s.after before).broker.line x.binding.toConsumerId ++
          (s.after before).lined x.binding.toConsumerId rest) :=
      (List.sublist_append_left ..).trans (hgiven ▸ (hline before rest hmoves hnot horderly).1)
    exact ⟨called_sublist hbuild hfiled hall, settlements_sublist_line hbuild hfiled hall⟩

end State

/-- The small supervisor with a broker that does not redeliver, at which two messages wait. -/
def Plan.pair : Plan :=
  let m : Message := { (default : Message) with subject := "a" }
  { Plan.lone with
    broker := [Broker.Supply.declare ⟨"s", "c"⟩ "a", .publish m 0,
      .publish { m with headers := [("n", ["2"])] } 0].foldl Broker.supply { redelivers := false } }

/-- The first message fails and the second succeeds; the handler is called for the one and then for
the other. -/
theorem State.single_file_pair : ∃ s : State, Plan.pair.build = .ok s ∧
    SingleFile s 0 ⟨"s", "c"⟩ Move.handling ∧ (s.broker.line ⟨"s", "c"⟩).length = 2 ∧
    ((s.after Move.handling).books.called 0).map (·.2) =
      (s.broker.line ⟨"s", "c"⟩).map Delivery.message ∧
    (s.broker.line ⟨"s", "c"⟩).map Delivery.handle =
      (s.after Move.handling).broker.nacked ++ (s.after Move.handling).broker.acked := by
  obtain ⟨s, hbuild, hwaiting, hcalled, hsettled⟩ : ∃ s : State, Plan.pair.build = .ok s ∧
      (s.broker.line ⟨"s", "c"⟩).length = 2 ∧ ((s.after Move.handling).books.called 0).map (·.2) =
        (s.broker.line ⟨"s", "c"⟩).map Delivery.message ∧
      (s.broker.line ⟨"s", "c"⟩).map Delivery.handle =
        (s.after Move.handling).broker.nacked ++ (s.after Move.handling).broker.acked :=
    ⟨_, rfl, by decide +kernel, by decide +kernel, by decide +kernel⟩
  have hsingle := @single_file Plan.pair s 0 _ hbuild rfl rfl Move.handling
  exact ⟨s, hbuild, hsingle, hwaiting, hcalled, hsettled⟩

end PullConsumer.Supervisor
