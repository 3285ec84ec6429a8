import PullConsumer.Proofs.Broker.Deadlines

/-!
# Errors leave a broker intact

Whoever is answered with an error has changed nothing that others could see but the count of fetches
and the planted fault that he was answered with. For a settlement, a question for the time and an
attempt to bind this is one use of the broker. A fetch has many turns, between which others come; it
is followed through each of them (`Errand.Step`), and of one that has not ended with a delivery no
turn has done more than count it and take the first planted fault away, and that only the first one
(`Spares`).

Planted faults are accounted for along a course: what was returned, followed by what is left, is
what was there at first, followed by what was planted (`collected_append`). So they are returned in
the order of planting, each once, whoever asks.

There is one exception, and it is no error but a crash: a fetch whose deadline would lie past the
horizon of the clock does not begin, so that it meets no planted fault (`not_refused_of_endless`).
-/

namespace PullConsumer.Broker

/-! ### One use of a broker -/

/-- To begin a fetch is to count it and to take the first planted fault away. -/
theorem beginFetch_snd (b : Broker) : b.beginFetch.2 =
    { b with fetches := b.fetches + 1, fetchFaults := b.fetchFaults.tail } := by
  obtain ⟨_, _, _, _, _, _, _, fetchFaults, _, _⟩ := b
  cases fetchFaults <;> rfl

/-- To bind takes the first planted fault away and changes nothing else. -/
theorem bind_snd (b : Broker) (x : Binding) :
    (b.bind x).2 = { b with bindFaults := b.bindFaults.tail } := by
  obtain ⟨_, _, _, _, _, _, _, _, bindFaults, _⟩ := b
  cases bindFaults <;> rfl

theorem bind_of_faults {b : Broker} {fault : BrokerError} {rest : List BrokerError}
    (h : b.bindFaults = fault :: rest) (x : Binding) : (b.bind x).1 = .error fault := by
  rw [bind, h]

theorem mem_flying_iff {b : Broker} {h : Handle} :
    h ∈ b.flying ↔ ∃ flight, b.inFlight.find? (·.delivery.handle = h) = some flight := by
  rw [← Option.isSome_iff_exists, List.find?_isSome, flying, List.mem_map]
  simp

theorem settle_of_fault {b : Broker} {fault : BrokerError} (hfault : b.settleFault = some fault)
    (h : Handle) (x : Settlement) : (b.settle h x).result = .error fault := by
  rw [settle, hfault]

/-- A settlement succeeds if no fault is set and the delivery is in flight. -/
theorem settle_ok_iff {b : Broker} {h : Handle} {x : Settlement} :
    (b.settle h x).result = .ok () ↔ b.settleFault = none ∧ h ∈ b.flying := by
  cases hfault : b.settleFault with
  | some fault => simp [settle_of_fault hfault]
  | none =>
    rw [mem_flying_iff, settle]
    simp only [hfault]
    cases b.inFlight.find? (·.delivery.handle = h) with
    | none => simp
    | some flight =>
      cases x with
      | ack => simp
      | nack =>
        dsimp only
        split <;> simp

/-- The time of a delivery is known if it is in flight. -/
theorem enqueuedAt_ok_iff {b : Broker} {h : Handle} :
    (∃ stamp, b.enqueuedAt h = .ok stamp) ↔ h ∈ b.flying := by
  rw [mem_flying_iff, enqueuedAt]
  cases b.inFlight.find? (·.delivery.handle = h) <;> simp

/-- What a settlement leaves alone, whatever it comes to. -/
theorem faults_settle (b : Broker) (h : Handle) (x : Settlement) :
    (b.settle h x).broker.fetches = b.fetches ∧ (b.settle h x).broker.fetchFaults = b.fetchFaults ∧
      (b.settle h x).broker.bindFaults = b.bindFaults ∧
      (b.settle h x).broker.settleFault = b.settleFault := by
  rcases b.settle_cases h x with ⟨flight, -, -, -, hbroker⟩ | ⟨-, hbroker⟩
  · rw [hbroker]
    cases x <;> exact ⟨rfl, rfl, rfl, rfl⟩
  · rw [hbroker]
    exact ⟨rfl, rfl, rfl, rfl⟩

/-- A look that finds no delivery leaves the broker as it is. -/
theorem Fetch.Finds.broker_eq {f : Fetch} {now : Nat} {b : Broker} {r : Progress × Broker}
    (h : Finds f now b r) (hnone : ∀ d, r.1 ≠ .finished (.ok d)) : r.2 = b := by
  cases h with
  | oldest htake => exact absurd rfl (hnone _)
  | _ => rfl

/-- What a look leaves alone, whatever it finds. -/
theorem Fetch.Finds.faults {f : Fetch} {now : Nat} {b : Broker} {r : Progress × Broker}
    (h : Finds f now b r) : r.2.fetches = b.fetches ∧ r.2.fetchFaults = b.fetchFaults ∧
      r.2.bindFaults = b.bindFaults ∧ r.2.settleFault = b.settleFault := by
  cases h with
  | oldest htake =>
    obtain ⟨queues, rfl⟩ := exists_queues_of_take? htake
    exact ⟨rfl, rfl, rfl, rfl⟩
  | _ => exact ⟨rfl, rfl, rfl, rfl⟩

/-! ### The turns of a fetch -/

theorem Fetch.start_of_limit? (now : Nat) (c : ConsumerId) (t : Duration) (deadline : Nat)
    (h : t.limit? now = some deadline) : start now c t = .ok ⟨c, t, deadline⟩ := by
  rw [start_eq]
  beta_reduce
  rw [h]

theorem Fetch.start_of_no_limit? (now : Nat) (c : ConsumerId) (t : Duration)
    (h : t.limit? now = none) : start now c t = .error .deadlineOverflow := by
  rw [start_eq]
  beta_reduce
  rw [h]

/-- Where a look leaves the fetch. -/
def Fetch.Progress.errand (f : Fetch) (now : Nat) : Progress → Errand
  | waiting => .waiting f
  | finished answer => .finished now answer

/-- What a turn makes of a fetch that is not over, and of the broker. -/
inductive Errand.Step (now : Nat) : Errand → Broker → Errand → Broker → Prop
  /-- The deadline cannot be expressed, so that the fetch does not begin. -/
  | unexpressed {c : ConsumerId} {t : Duration} {b : Broker} (hlimit : t.limit? now = none) :
      Step now (.fresh c t) b (.crashed .deadlineOverflow) b
  | refused {c : ConsumerId} {t : Duration} {b : Broker} {deadline : Nat} {fault : BrokerError}
      {rest : List BrokerError} (hlimit : t.limit? now = some deadline)
      (hfaults : b.fetchFaults = fault :: rest) :
      Step now (.fresh c t) b (.finished now (.error fault)) b.beginFetch.2
  | begins {c : ConsumerId} {t : Duration} {b : Broker} {deadline : Nat}
      {r : Fetch.Progress × Broker} (hlimit : t.limit? now = some deadline)
      (hfaults : b.fetchFaults = []) (hfinds : Fetch.Finds ⟨c, t, deadline⟩ now b.beginFetch.2 r) :
      Step now (.fresh c t) b (r.1.errand ⟨c, t, deadline⟩ now) r.2
  | looks {f : Fetch} {b : Broker} {r : Fetch.Progress × Broker} (hfinds : Fetch.Finds f now b r) :
      Step now (.waiting f) b (r.1.errand f now) r.2

namespace Errand

/-- A fetch was counted. -/
def isCounted : Errand → Bool
  | waiting _ => true
  | finished _ _ => true
  | _ => false

namespace Step

variable {now : Nat} {old new : Errand} {b x : Broker}

/-- A step that does not end with a delivery leaves the broker as it is, or begins the fetch. -/
theorem broker_of_fails (h : Step now old b new x)
    (hnone : ∀ tick d, new ≠ .finished tick (.ok d)) :
    x = b ∨ (∃ c t, old = .fresh c t) ∧
      x = { b with fetches := b.fetches + 1, fetchFaults := b.fetchFaults.tail } := by
  rw [← beginFetch_snd]
  have hfails {f : Fetch} {r : Fetch.Progress × Broker} (hnew : new = r.1.errand f now)
      (d : Delivery) : r.1 ≠ .finished (.ok d) := by
    intro hd
    rw [hd] at hnew
    exact hnone now d hnew
  cases h with
  | unexpressed hlimit => exact Or.inl rfl
  | refused hlimit hfaults => exact Or.inr ⟨⟨_, _, rfl⟩, rfl⟩
  | begins hlimit hfaults hfinds => exact Or.inr ⟨⟨_, _, rfl⟩, hfinds.broker_eq (hfails rfl)⟩
  | looks hfinds => exact Or.inl (hfinds.broker_eq (hfails rfl))

/-- A fetch is counted in the step that begins it. -/
theorem fetches_eq (h : Step now old b new x) :
    x.fetches + old.isCounted.toNat = b.fetches + new.isCounted.toNat := by
  have hnew (f : Fetch) (p : Fetch.Progress) : (p.errand f now).isCounted = true := by
    cases p <;> rfl
  cases h with
  | unexpressed hlimit => rfl
  | refused hlimit hfaults => rw [beginFetch_snd]; rfl
  | begins hlimit hfaults hfinds => rw [hfinds.faults.1, beginFetch_snd, hnew]; rfl
  | looks hfinds => rw [hfinds.faults.1, hnew]; rfl

/-- No fetch concerns the faults that are planted for others than fetches. -/
theorem faults_eq (h : Step now old b new x) :
    x.bindFaults = b.bindFaults ∧ x.settleFault = b.settleFault := by
  cases h with
  | unexpressed hlimit => exact ⟨rfl, rfl⟩
  | refused hlimit hfaults => rw [beginFetch_snd]; exact ⟨rfl, rfl⟩
  | begins hlimit hfaults hfinds =>
    rw [beginFetch_snd] at hfinds
    exact hfinds.faults.2.2
  | looks hfinds => exact hfinds.faults.2.2

end Step

end Errand

namespace Desk

open Tasked (Happening happen unfold)

variable {d : Desk} {n : Nat}

theorem errands_follow (d : Desk) (n : Nat) (f : Fetch) (r : Fetch.Progress × Broker) :
    (d.follow n f r).errands = d.errands.set n (r.1.errand f d.scheduler.now) := by
  rw [follow]
  cases r.1 with
  | waiting => rfl
  | finished answer => exact errands_finish ..

theorem broker_follow (d : Desk) (n : Nat) (f : Fetch) (r : Fetch.Progress × Broker) :
    (d.follow n f r).broker = r.2 := by
  rw [follow]
  cases r.1 with
  | waiting => rfl
  | finished answer => exact broker_finish ..

/-- The first look of a fetch that can begin. -/
theorem step_firstLook {c : ConsumerId} {t : Duration} {deadline now : Nat} (b : Broker)
    (hlimit : t.limit? now = some deadline) :
    Errand.Step now (.fresh c t) b
      ((Fetch.firstLook ⟨c, t, deadline⟩ now b).1.errand ⟨c, t, deadline⟩ now)
      (Fetch.firstLook ⟨c, t, deadline⟩ now b).2 := by
  cases hfaults : b.fetchFaults with
  | nil =>
    have hlook : Fetch.firstLook ⟨c, t, deadline⟩ now b =
        Fetch.look ⟨c, t, deadline⟩ now b.beginFetch.2 := by
      rw [Fetch.firstLook, beginFetch, hfaults]
    rw [hlook]
    exact .begins hlimit hfaults (Fetch.finds_look ..)
  | cons fault rest =>
    have hlook : Fetch.firstLook ⟨c, t, deadline⟩ now b =
        (.finished (.error fault), b.beginFetch.2) := by
      rw [Fetch.firstLook, beginFetch, hfaults]
    rw [hlook]
    exact .refused hlimit hfaults

/-- What the turn of a fetch comes to: there is none that is not over, or it takes a step. -/
inductive Stepped (d : Desk) (n : Nat) (e : Desk) : Prop
  | rests (hover : ∀ old, d.errands[n]? = some old → old.isOver = true)
      (herrands : e.errands = d.errands) (hbroker : e.broker = d.broker)
  | steps {old new : Errand} (hold : d.errands[n]? = some old)
      (hset : e.errands = d.errands.set n new)
      (hstep : Errand.Step d.scheduler.now old d.broker new e.broker)

-- For any `start`, since the arithmetic of a deadline would be carried out in unary when the proof
-- is checked.
/-- What becomes of a fetch that is woken. -/
theorem stepped_woken (start : Nat → ConsumerId → Duration → Except Crash Fetch)
    (hbegins : ∀ now c t deadline, t.limit? now = some deadline →
      start now c t = .ok ⟨c, t, deadline⟩)
    (hfails : ∀ now c t, t.limit? now = none → start now c t = .error .deadlineOverflow) (n : Nat)
    (d : Desk) : Stepped d n (match d.errands[n]? with
      | some (Errand.fresh consumer timeout) =>
        match start d.scheduler.now consumer timeout with
        | .ok f => d.follow n f (f.firstLook d.scheduler.now d.broker)
        | .error cause => d.put n (.crashed cause)
      | some (Errand.waiting f) => d.follow n f (f.look d.scheduler.now d.broker)
      | _ => d) := by
  split
  · next c t hfresh =>
    cases hlimit : t.limit? d.scheduler.now with
    | none =>
      rw [hfails _ _ _ hlimit]
      exact .steps hfresh rfl (.unexpressed hlimit)
    | some deadline =>
      rw [hbegins _ _ _ _ hlimit]
      exact .steps hfresh (errands_follow ..) (broker_follow .. ▸ step_firstLook d.broker hlimit)
  · next f hwaiting =>
    exact .steps hwaiting (errands_follow ..) (broker_follow .. ▸ .looks (Fetch.finds_look ..))
  · next hfresh hwaiting =>
    refine .rests (fun old hold ↦ ?_) rfl rfl
    cases old with
    | fresh c t => exact absurd hold (hfresh c t)
    | waiting f => exact absurd hold (hwaiting f)
    | _ => rfl

theorem stepped_turn (n : Nat) (d : Desk) :
    Stepped { d with scheduler := d.scheduler.forget n } n (turn n d) :=
  stepped_woken Fetch.start Fetch.start_of_limit? Fetch.start_of_no_limit? n _

/-- **A turn that the course gives**: it is nobody's, or a fetch has it. -/
theorem stepped_happen (d : Desk) (n : Nat) :
    (n ∉ d.scheduler.ready ∧ happen act d (.turn n) = d) ∨
      Stepped (d.yielded n) n (happen act d (.turn n)) := by
  rw [happen]
  split
  · exact Or.inr (stepped_turn n { d with scheduler := d.scheduler.take n })
  · next hready => exact Or.inl ⟨hready, rfl⟩

/-- A turn changes nothing, or a fetch takes a step in it. -/
theorem happen_turn (d : Desk) (n : Nat) :
    ((n ∉ d.scheduler.ready ∨ ∀ old, d.errands[n]? = some old → old.isOver = true) ∧
      (happen act d (.turn n)).errands = d.errands ∧ (happen act d (.turn n)).broker = d.broker) ∨
    ∃ old new, d.errands[n]? = some old ∧ (happen act d (.turn n)).errands = d.errands.set n new ∧
      Errand.Step d.scheduler.now old d.broker new (happen act d (.turn n)).broker := by
  rcases stepped_happen d n with ⟨hready, hsame⟩ | hstepped
  · rw [hsame]
    exact Or.inl ⟨Or.inl hready, rfl, rfl⟩
  · cases hstepped with
    | rests hover herrands hbroker => exact Or.inl ⟨Or.inr hover, herrands, hbroker⟩
    | steps hold hset hstep => exact Or.inr ⟨_, _, hold, hset, hstep⟩

/-- Who has received a delivery keeps it. -/
theorem finished_happen {tick : Nat} {answer : Except BrokerError Delivery}
    (h : d.errands[n]? = some (.finished tick answer)) (x : Happening Act Nat) :
    (happen act d x).errands[n]? = some (.finished tick answer) := by
  cases x with
  | act a =>
    show (act a d).errands[n]? = _
    rcases errands_act a d with hsame | ⟨c, t, hmore⟩
    · rwa [hsame]
    · rw [hmore, List.getElem?_append_left (List.getElem?_eq_some_iff.1 h).1, h]
  | turn k =>
    rcases happen_turn d k with ⟨-, hsame, -⟩ | ⟨old, new, hold, hset, hstep⟩
    · rwa [hsame]
    · have hne : k ≠ n := by
        rintro rfl
        obtain rfl := Option.some.inj (hold.symm.trans h)
        cases hstep
      rw [hset, List.getElem?_set_ne hne, h]
  | pass tick => exact h

theorem finished_unfold {tick : Nat} {answer : Except BrokerError Delivery}
    (h : d.errands[n]? = some (.finished tick answer)) (course : List (Happening Act Nat)) :
    (unfold act d course).errands[n]? = some (.finished tick answer) :=
  Tasked.unfold_induction (P := fun e : Desk ↦ e.errands[n]? = some (.finished tick answer))
    (fun _ x hs ↦ finished_happen hs x) h course

/-! ### What fetches leave behind -/

variable {b : Broker} {course : List (Happening Act Nat)}

/-- None of the turns of a fetch has changed the broker, but that the first one counts the fetch and
takes the first planted fault away. -/
def Spares (b : Broker) (course : List (Happening Act Nat)) (n : Nat) : Prop :=
  ∀ before after, course = before ++ .turn n :: after →
    (reached b (before ++ [.turn n])).broker = (reached b before).broker ∨
      (∃ c t, (reached b before).errands[n]? = some (.fresh c t)) ∧
        (reached b (before ++ [.turn n])).broker =
          { (reached b before).broker with
            fetches := (reached b before).broker.fetches + 1
            fetchFaults := (reached b before).broker.fetchFaults.tail }

/-- **A fetch that has no delivery to show for it has spared the broker.** -/
theorem spares (h : ∀ tick d, (reached b course).errands[n]? ≠ some (.finished tick (.ok d))) :
    Spares b course n := by
  rintro before after rfl
  rw [reached_concat]
  rcases happen_turn (reached b before) n with ⟨-, -, hsame⟩ | ⟨old, new, hold, hset, hstep⟩
  · exact Or.inl hsame
  · have hnew : (happen act (reached b before) (.turn n)).errands[n]? = some new := by
      rw [hset, List.getElem?_set_self (List.getElem?_eq_some_iff.1 hold).1]
    have hnone : ∀ tick d, new ≠ .finished tick (.ok d) := by
      rintro tick d rfl
      refine h tick d ?_
      rw [reached, Tasked.unfold_append]
      exact finished_unfold hnew after
    rw [hold]
    exact (hstep.broker_of_fails hnone).imp_right fun ⟨⟨c, t, hfresh⟩, hx⟩ ↦
      ⟨⟨c, t, congrArg some hfresh⟩, hx⟩

/-! ### Planted faults along a course -/

/-- The faults for fetches that a happening plants. -/
def planted : Happening Act Nat → List BrokerError
  | .act (.request (.failFetch cause)) => [cause]
  | _ => []

/-- The faults for binding that a happening plants. -/
def plantedBind : Happening Act Nat → List BrokerError
  | .act (.request (.failBind cause)) => [cause]
  | _ => []

/-- What a fetch is answered with that begins while faults are planted. -/
def refused (d : Desk) : Happening Act Nat → List BrokerError
  | .turn n =>
    match d.errands[n]?, d.broker.fetchFaults, (happen act d (.turn n)).errands[n]? with
    | some (.fresh _ _), _ :: _, some (.finished _ (.error cause)) => [cause]
    | _, _, _ => []
  | _ => []

/-- What an attempt to bind is answered with while faults are planted. -/
def refusedBind (d : Desk) : Happening Act Nat → List BrokerError
  | .act (.request (.bind x)) =>
    match d.broker.bindFaults, (d.broker.bind x).1 with
    | _ :: _, .error cause => [cause]
    | _, _ => []
  | _ => []

/-- All that is told along a course. -/
def collected {α : Type} (tell : Desk → Happening Act Nat → List α) :
    Desk → List (Happening Act Nat) → List α
  | _, [] => []
  | d, x :: rest => tell d x ++ collected tell (happen act d x) rest

/-- What one happening does to the faults that are planted and to the count of fetches. -/
structure Accounts (d : Desk) (x : Happening Act Nat) (e : Desk) : Prop where
  fetches : e.broker.fetches + d.errands.countP Errand.isCounted =
    d.broker.fetches + e.errands.countP Errand.isCounted
  fetchFaults : d.refused x ++ e.broker.fetchFaults = d.broker.fetchFaults ++ planted x
  bindFaults : d.refusedBind x ++ e.broker.bindFaults = d.broker.bindFaults ++ plantedBind x
  settleFault : (∀ cause, x ≠ .act (.request (.failSettle cause))) →
    e.broker.settleFault = d.broker.settleFault

/-- Another entry in one place of a list of fetches. -/
theorem countP_set_add {l : List Errand} {old : Errand} (h : l[n]? = some old) (new : Errand) :
    (l.set n new).countP Errand.isCounted + old.isCounted.toNat =
      l.countP Errand.isCounted + new.isCounted.toNat := by
  obtain ⟨hlt, rfl⟩ := List.getElem?_eq_some_iff.1 h
  obtain ⟨before, after, hsplit, -, hset⟩ : ∃ before after,
      l = before ++ l[n] :: after ∧ before.length = n ∧ l.set n new = before ++ new :: after :=
    List.exists_of_set hlt
  rw [hset]
  conv_rhs => rw [hsplit]
  simp only [List.countP_append, List.countP_cons]
  cases l[n].isCounted <;> cases new.isCounted <;> simp <;> omega

/-- A fetch that begins is answered with the first planted fault, or there is none. -/
theorem refused_append (d : Desk) (n : Nat) :
    d.refused (.turn n) ++ (happen act d (.turn n)).broker.fetchFaults = d.broker.fetchFaults := by
  rcases happen_turn d n with ⟨-, herrands, hbroker⟩ | ⟨old, new, hold, hset, hstep⟩
  · have hnone : d.refused (.turn n) = [] := by
      rw [refused, herrands]
      split
      · next hfresh _ hfinished => exact absurd (hfresh.symm.trans hfinished) (by simp)
      · rfl
    rw [hnone, hbroker, List.nil_append]
  · have hnew : (happen act d (.turn n)).errands[n]? = some new := by
      rw [hset, List.getElem?_set_self (List.getElem?_eq_some_iff.1 hold).1]
    rw [refused, hold, hnew]
    generalize (happen act d (.turn n)).broker = x at hstep ⊢
    cases hstep with
    | unexpressed hlimit => cases d.broker.fetchFaults <;> rfl
    | refused hlimit hfaults => rw [beginFetch_snd, hfaults]; rfl
    | begins hlimit hfaults hfinds => rw [hfinds.faults.2.1, beginFetch_snd, hfaults]; rfl
    | looks hfinds => rw [hfinds.faults.2.1]; rfl

theorem accounts_turn (d : Desk) (n : Nat) : Accounts d (.turn n) (happen act d (.turn n)) := by
  have hrefused := refused_append d n
  rcases happen_turn d n with ⟨-, herrands, hbroker⟩ | ⟨old, new, hold, hset, hstep⟩
  · exact {
      fetches := by rw [herrands, hbroker]
      fetchFaults := hrefused.trans (List.append_nil _).symm
      bindFaults := by rw [hbroker]; exact (List.append_nil _).symm
      settleFault := fun _ ↦ by rw [hbroker] }
  · exact {
      fetches := by
        have hcount := countP_set_add hold new
        have hfetches := hstep.fetches_eq
        rw [hset]
        omega
      fetchFaults := hrefused.trans (List.append_nil _).symm
      bindFaults := by rw [hstep.faults_eq.1]; exact (List.append_nil _).symm
      settleFault := fun _ ↦ hstep.faults_eq.2 }

/-- An attempt to bind is answered with the first planted fault, or there is none. -/
theorem refusedBind_append (d : Desk) (x : Binding) :
    d.refusedBind (.act (.request (.bind x))) ++ (d.broker.bind x).2.bindFaults =
      d.broker.bindFaults := by
  rw [refusedBind, bind_snd]
  cases hfaults : d.broker.bindFaults with
  | nil => rfl
  | cons fault rest => rw [bind_of_faults hfaults]; rfl

/-- A fetch that is yet to begin is not counted. -/
theorem countP_fresh (l : List Errand) (c : ConsumerId) (t : Duration) :
    (l ++ [Errand.fresh c t]).countP Errand.isCounted = l.countP Errand.isCounted := by
  simp [Errand.isCounted]

theorem accounts_accept (d : Desk) (r : Request) :
    Accounts d (.act (.request r)) (d.accept r) := by
  cases r with
  | bind x =>
    have hbroker : (d.accept (.bind x)).broker = (d.broker.bind x).2 := rfl
    exact {
      fetches := by rw [hbroker, bind_snd]; rfl
      fetchFaults := by rw [hbroker, bind_snd]; exact (List.append_nil _).symm
      bindFaults := (refusedBind_append d x).trans (List.append_nil _).symm
      settleFault := fun _ ↦ by rw [hbroker, bind_snd] }
  | settle h x =>
    obtain ⟨hfetches, hfetch, hbind, hsettle⟩ := faults_settle d.broker h x
    have haccept : d.accept (.settle h x) = if (d.broker.settle h x).requeued then
        announce { d with broker := (d.broker.settle h x).broker } else
        { d with broker := (d.broker.settle h x).broker } := rfl
    have hbroker : (d.accept (.settle h x)).broker = (d.broker.settle h x).broker := by
      rw [haccept]
      split <;> rfl
    have herrands : (d.accept (.settle h x)).errands = d.errands := by
      rw [haccept]
      split <;> rfl
    exact {
      fetches := by rw [hbroker, herrands, hfetches]
      fetchFaults := by rw [hbroker, hfetch]; exact (List.append_nil _).symm
      bindFaults := by rw [hbroker, hbind]; exact (List.append_nil _).symm
      settleFault := fun _ ↦ by rw [hbroker, hsettle] }
  | fetch c t =>
    exact ⟨congrArg (d.broker.fetches + ·) (countP_fresh d.errands c t).symm,
      (List.append_nil _).symm, (List.append_nil _).symm, fun _ ↦ rfl⟩
  | fetchAside name c t =>
    exact ⟨congrArg (d.broker.fetches + ·) (countP_fresh d.errands c t).symm,
      (List.append_nil _).symm, (List.append_nil _).symm, fun _ ↦ rfl⟩
  | failFetch cause => exact ⟨rfl, rfl, (List.append_nil _).symm, fun _ ↦ rfl⟩
  | failBind cause => exact ⟨rfl, (List.append_nil _).symm, rfl, fun _ ↦ rfl⟩
  | failSettle cause =>
    exact ⟨rfl, (List.append_nil _).symm, (List.append_nil _).symm, fun h ↦ absurd rfl (h cause)⟩
  | _ => exact ⟨rfl, (List.append_nil _).symm, (List.append_nil _).symm, fun _ ↦ rfl⟩

/-- **What one happening does to planted faults and to the count of fetches.** -/
theorem accounts_happen (d : Desk) (x : Happening Act Nat) : Accounts d x (happen act d x) := by
  cases x with
  | act a =>
    cases a with
    | request r => exact accounts_accept d r
    | hear => exact ⟨rfl, (List.append_nil _).symm, (List.append_nil _).symm, fun _ ↦ rfl⟩
  | turn n => exact accounts_turn d n
  | pass tick => exact ⟨rfl, (List.append_nil _).symm, (List.append_nil _).symm, fun _ ↦ rfl⟩

/-- What every happening takes from one end of a line and puts to the other is told along a course
in the order of the line. -/
theorem collected_append {α : Type} {tell : Desk → Happening Act Nat → List α}
    (line : Desk → List α) {put : Happening Act Nat → List α}
    (hstep : ∀ d x, tell d x ++ line (happen act d x) = line d ++ put x) (d : Desk)
    (course : List (Happening Act Nat)) :
    collected tell d course ++ line (unfold act d course) = line d ++ course.flatMap put := by
  induction course generalizing d with
  | nil => exact (List.append_nil _).symm
  | cons x rest ih =>
    calc collected tell d (x :: rest) ++ line (unfold act d (x :: rest))
        = tell d x ++ (line (happen act d x) ++ rest.flatMap put) := by
          rw [collected, List.append_assoc, ← ih]
          rfl
      _ = line d ++ (x :: rest).flatMap put := by
          rw [← List.append_assoc, hstep, List.append_assoc, List.flatMap_cons]

/-! ### What errors leave intact -/

/-- What holds of the broker of a desk after a course. -/
structure Intact (b : Broker) (course : List (Happening Act Nat)) : Prop where
  /-- A settlement succeeds if no fault is set and the delivery is in flight, and otherwise changes
  nothing. -/
  settles : ∀ h x, ((reached b course).broker.settle h x).result = .ok () ↔
    (reached b course).broker.settleFault = none ∧ h ∈ (reached b course).broker.flying
  settle_fails : ∀ h x cause, ((reached b course).broker.settle h x).result = .error cause →
    ((reached b course).broker.settle h x).broker = (reached b course).broker
  /-- A fault that is set for settlements answers each of them, until it is cleared. -/
  settle_fault : ∀ before since fault,
    course = before ++ .act (.request (.failSettle fault)) :: since →
    (∀ cause, .act (.request (.failSettle cause)) ∉ since) →
    (reached b course).broker.settleFault = fault ∧
      ∀ cause, fault = some cause →
        ∀ h x, ((reached b course).broker.settle h x).result = .error cause
  /-- The time of a delivery is known if it is in flight; to ask for it changes nothing. -/
  times : ∀ h, (∃ stamp, (reached b course).broker.enqueuedAt h = .ok stamp) ↔
    h ∈ (reached b course).broker.flying
  /-- An attempt to bind is answered with the first planted fault, and takes that away and nothing
  else. -/
  binds : ∀ x, ((reached b course).broker.bind x).2 =
    { (reached b course).broker with bindFaults := (reached b course).broker.bindFaults.tail }
  bind_refused : ∀ x fault rest, (reached b course).broker.bindFaults = fault :: rest →
    ((reached b course).broker.bind x).1 = .error fault
  /-- A fetch that can begin is answered with the first planted fault, whatever its consumer, and
  takes that away and nothing else. -/
  fetch_refused : ∀ n c t deadline fault rest, n ∈ (reached b course).scheduler.ready →
    (reached b course).errands[n]? = some (.fresh c t) →
    t.limit? (reached b course).scheduler.now = some deadline →
    (reached b course).broker.fetchFaults = fault :: rest →
    (reached b (course ++ [.turn n])).errands[n]? =
        some (.finished (reached b course).scheduler.now (.error fault)) ∧
      (reached b (course ++ [.turn n])).broker =
        { (reached b course).broker with
          fetches := (reached b course).broker.fetches + 1
          fetchFaults := rest }
  /-- A fetch whose deadline cannot be expressed crashes, and changes nothing. -/
  fetch_crashes : ∀ n c t, n ∈ (reached b course).scheduler.ready →
    (reached b course).errands[n]? = some (.fresh c t) →
    t.limit? (reached b course).scheduler.now = none →
    (reached b (course ++ [.turn n])).errands[n]? = some (.crashed .deadlineOverflow) ∧
      (reached b (course ++ [.turn n])).broker = (reached b course).broker
  /-- A fetch that ends with an error has spared the broker in all of its turns, and every fetch
  that has begun is counted once. -/
  fetch_fails : ∀ n tick cause,
    (reached b course).errands[n]? = some (.finished tick (.error cause)) → Spares b course n
  counts : (reached b course).broker.fetches =
    b.fetches + (reached b course).errands.countP Errand.isCounted
  /-- Faults are returned in the order of planting, each once. -/
  fetch_faults : collected refused { broker := b } course ++ (reached b course).broker.fetchFaults =
    b.fetchFaults ++ course.flatMap planted
  bind_faults : collected refusedBind { broker := b } course ++
      (reached b course).broker.bindFaults =
    b.bindFaults ++ course.flatMap plantedBind

/-- A fault for settlements stays as long as nobody sets another one or clears it. -/
theorem settleFault_unfold {course : List (Happening Act Nat)}
    (h : ∀ cause, .act (.request (.failSettle cause)) ∉ course) (d : Desk) :
    (unfold act d course).broker.settleFault = d.broker.settleFault := by
  induction course generalizing d with
  | nil => rfl
  | cons x rest ih =>
    have hrest := ih (fun cause hmem ↦ h cause (List.mem_cons_of_mem _ hmem)) (happen act d x)
    exact hrest.trans ((accounts_happen d x).settleFault fun cause hx ↦
      h cause (hx ▸ List.mem_cons_self))

/-- The step that a fetch takes which is ready to begin. -/
theorem step_of_fresh {c : ConsumerId} {t : Duration} (hready : n ∈ d.scheduler.ready)
    (hfresh : d.errands[n]? = some (.fresh c t)) :
    ∃ new, (happen act d (.turn n)).errands[n]? = some new ∧
      Errand.Step d.scheduler.now (.fresh c t) d.broker new (happen act d (.turn n)).broker := by
  rcases happen_turn d n with ⟨hidle | hover, -⟩ | ⟨old, new, hold, hset, hstep⟩
  · exact absurd hready hidle
  · exact absurd (hover _ hfresh) (by simp [Errand.isOver])
  · obtain rfl := Option.some.inj (hfresh.symm.trans hold)
    refine ⟨new, ?_, hstep⟩
    rw [hset, List.getElem?_set_self (List.getElem?_eq_some_iff.1 hold).1]

/-- A fetch that can begin while faults are planted is answered with the first of them. -/
theorem finished_of_planted {c : ConsumerId} {t : Duration} {deadline : Nat} {fault : BrokerError}
    {rest : List BrokerError} (hready : n ∈ d.scheduler.ready)
    (hfresh : d.errands[n]? = some (.fresh c t)) (hlimit : t.limit? d.scheduler.now = some deadline)
    (hfaults : d.broker.fetchFaults = fault :: rest) :
    (happen act d (.turn n)).errands[n]? = some (.finished d.scheduler.now (.error fault)) ∧
      (happen act d (.turn n)).broker =
        { d.broker with fetches := d.broker.fetches + 1, fetchFaults := rest } := by
  obtain ⟨new, hnew, hstep⟩ := step_of_fresh hready hfresh
  rw [hnew]
  generalize (happen act d (.turn n)).broker = x at hstep ⊢
  cases hstep with
  | unexpressed hnone => exact absurd (hlimit.symm.trans hnone) (by simp)
  | refused _ hfaults' =>
    obtain ⟨rfl, rfl⟩ := List.cons.inj (hfaults.symm.trans hfaults')
    exact ⟨rfl, by rw [beginFetch_snd, hfaults]; rfl⟩
  | begins _ hnone _ => exact absurd (hfaults.symm.trans hnone) (by simp)

/-- A fetch that cannot begin crashes, whatever is planted. -/
theorem crashed_of_unexpressed {c : ConsumerId} {t : Duration} (hready : n ∈ d.scheduler.ready)
    (hfresh : d.errands[n]? = some (.fresh c t)) (hlimit : t.limit? d.scheduler.now = none) :
    (happen act d (.turn n)).errands[n]? = some (.crashed .deadlineOverflow) ∧
      (happen act d (.turn n)).broker = d.broker := by
  obtain ⟨new, hnew, hstep⟩ := step_of_fresh hready hfresh
  rw [hnew]
  generalize (happen act d (.turn n)).broker = x at hstep ⊢
  cases hstep with
  | unexpressed _ => exact ⟨rfl, rfl⟩
  | refused hsome _ => exact absurd (hlimit.symm.trans hsome) (by simp)
  | begins hsome _ _ => exact absurd (hlimit.symm.trans hsome) (by simp)

/-- **Errors leave a broker intact**, whatever callers do, in whatever order fetches have their
turns, and whenever time passes. -/
theorem intact (b : Broker) (course : List (Happening Act Nat)) : Intact b course where
  settles _ _ := settle_ok_iff
  settle_fails _ _ _ := broker_settle_of_error
  settle_fault before since fault hcourse hsince := by
    have hfault : (reached b course).broker.settleFault = fault := by
      rw [hcourse, reached, Tasked.unfold_append]
      exact settleFault_unfold hsince _
    exact ⟨hfault, fun cause hcause ↦ settle_of_fault (hfault.trans hcause)⟩
  times _ := enqueuedAt_ok_iff
  binds := bind_snd _
  bind_refused x _ _ h := bind_of_faults h x
  fetch_refused n c t deadline fault rest hready hfresh hlimit hfaults := by
    rw [reached_concat]
    exact finished_of_planted hready hfresh hlimit hfaults
  fetch_crashes n c t hready hfresh hlimit := by
    rw [reached_concat]
    exact crashed_of_unexpressed hready hfresh hlimit
  fetch_fails n tick cause h := spares fun tick' x hx ↦ by
    exact absurd (h.symm.trans hx) (by simp)
  counts := Tasked.unfold_induction
    (P := fun e : Desk ↦ e.broker.fetches = b.fetches + e.errands.countP Errand.isCounted)
    (fun e x he ↦ by
      have := (accounts_happen e x).fetches
      omega) rfl course
  fetch_faults := collected_append (fun e : Desk ↦ e.broker.fetchFaults)
    (fun e x ↦ (accounts_happen e x).fetchFaults) _ course
  bind_faults := collected_append (fun e : Desk ↦ e.broker.bindFaults)
    (fun e x ↦ (accounts_happen e x).bindFaults) _ course

/-- Someone plants a fault and fetches with the longest whole seconds to wait. -/
def endless : List (Happening Act Nat) :=
  [.act (.request (.declare ⟨"S", "c"⟩ "a")), .act (.request (.failFetch .closed)),
    .act (.request (.fetch ⟨"S", "c"⟩ (.ofSeconds (Nat.pow 2 64 - 1))))]

/-- **A planted fault is not always returned.** A fetch is ready to begin and a fault is planted,
but the fetch crashes, and the fault is left for the next one. -/
theorem not_refused_of_endless :
    0 ∈ (reached {} endless).scheduler.ready ∧
    (reached {} endless).errands[0]? =
      some (.fresh ⟨"S", "c"⟩ (.ofSeconds (Nat.pow 2 64 - 1))) ∧
    (reached {} endless).broker.fetchFaults = [.closed] ∧
    (reached {} (endless ++ [.turn 0])).errands[0]? = some (.crashed .deadlineOverflow) ∧
    (reached {} (endless ++ [.turn 0])).broker.fetchFaults = [.closed] := by
  have hready : 0 ∈ (reached {} endless).scheduler.ready := by decide
  have hlimit : (Duration.ofSeconds (Nat.pow 2 64 - 1)).limit? 0 = none := by
    rw [Duration.limit?]
    exact if_neg (by decide)
  obtain ⟨hcrashed, hbroker⟩ := crashed_of_unexpressed (n := 0) (d := reached {} endless) hready rfl
    hlimit
  rw [reached_concat, hbroker]
  exact ⟨hready, rfl, rfl, hcrashed, rfl⟩

end Desk

end PullConsumer.Broker
