import PullConsumer.Broker.Fetch
import PullConsumer.Proofs.Broker.Supply

/-!
# The traffic of a broker

A broker is used by many at once, but whoever uses it holds it alone while he does. What happens to
a broker is therefore a list of uses (`Operation`), each made in one piece: something is supplied, a
consumer is bound, a fetch is counted, a fetch looks into its queue, a delivery is settled. A fetch
is counted once and looks as often as it is woken; between its looks come the uses of others, so
that whatever holds after every list of uses holds however many fetches are under way and however
they come between each other. One that times out or is given up is one that looks no more.

What a use comes to is said once (`outcome`): besides supplies there are only two that matter, a
delivery is handed out and a delivery is settled, and all others leave the stock alone. The history
of a run is what its uses have told, one after the other (`along`).
-/

namespace PullConsumer.Broker

/-- One use of a broker. -/
inductive Operation where
  | supply (x : Supply)
  | bind (x : Binding)
  | ask
  | look (fetch : Fetch) (now : Nat)
  | settle (handle : Handle) (settlement : Settlement)

/-- A broker after one use. -/
def operate (b : Broker) : Operation → Broker
  | .supply x => b.supply x
  | .bind x => (b.bind x).2
  | .ask => b.beginFetch.2
  | .look f now => (f.look now b).2
  | .settle h x => (b.settle h x).broker

/-- A broker after some uses. -/
def after (b : Broker) (ops : List Operation) : Broker := ops.foldl operate b

/-! ### What a use tells -/

/-- The deliveries that a use issues, by the handles that a publication answers with. -/
def dealt (b : Broker) : Operation → List Delivery
  | .supply (.publish m stamp) => (b.publish m stamp).1.map (⟨·, m, stamp⟩)
  | _ => []

/-- The delivery that a fetch returns, with the consumer it was fetched for. -/
def handed (b : Broker) : Operation → List Flight
  | .look f now =>
    match (f.look now b).1 with
    | .finished (.ok d) => [⟨f.consumer, d⟩]
    | _ => []
  | _ => []

/-- The settlement that succeeds. -/
def settled (b : Broker) : Operation → List (Handle × Settlement)
  | .settle h x =>
    match (b.settle h x).result with
    | .ok () => [(h, x)]
    | .error _ => []
  | _ => []

/-- All that is told along a run. -/
def along {α : Type} (tell : Broker → Operation → List α) : Broker → List Operation → List α
  | _, [] => []
  | b, op :: rest => tell b op ++ along tell (b.operate op) rest

section Runs

variable {α : Type} (tell : Broker → Operation → List α) (b : Broker)

theorem after_append (ops more : List Operation) :
    b.after (ops ++ more) = (b.after ops).after more :=
  List.foldl_append

@[simp] theorem after_concat (ops : List Operation) (op : Operation) :
    b.after (ops ++ [op]) = (b.after ops).operate op :=
  b.after_append ops [op]

theorem along_append (ops more : List Operation) :
    along tell b (ops ++ more) = along tell b ops ++ along tell (b.after ops) more := by
  induction ops generalizing b with
  | nil => rfl
  | cons op rest ih =>
    rw [List.cons_append, along, ih, along, List.append_assoc]
    rfl

@[simp] theorem along_concat (ops : List Operation) (op : Operation) :
    along tell b (ops ++ [op]) = along tell b ops ++ tell (b.after ops) op := by
  rw [along_append, along, along, List.append_nil]

end Runs

/-! ### What a use comes to -/

/-- A broker whose oldest delivery for `c` is handed out; `rest` waits on. -/
def handOut (b : Broker) (c : ConsumerId) (d : Delivery) (rest : List Delivery) : Broker :=
  { b with
    queues := changeQueue c (fun q ↦ { q with ready := rest }) b.queues
    inFlight := b.inFlight ++ [⟨c, d⟩] }

/-- A broker with a delivery settled that was in flight. One that is settled negatively goes to the
end of the queue of its consumer, if the broker redelivers and there is such a queue. -/
def release (b : Broker) (flight : Flight) (x : Settlement) : Broker :=
  let b := { b with inFlight := b.inFlight.filter (·.delivery.handle ≠ flight.delivery.handle) }
  match x with
  | .ack => { b with acked := b.acked ++ [flight.delivery.handle] }
  | .nack =>
    { b with
      nacked := b.nacked ++ [flight.delivery.handle]
      queues :=
        if b.redelivers then changeQueue flight.consumer (Queue.push · flight.delivery) b.queues
        else b.queues }

theorem inFlight_release (b : Broker) (flight : Flight) (x : Settlement) :
    (b.release flight x).inFlight =
      b.inFlight.filter (·.delivery.handle ≠ flight.delivery.handle) := by
  cases x <;> rfl

/-- What one use comes to. -/
inductive Outcome (b : Broker) (op : Operation) : Prop
  /-- Something is supplied. -/
  | supplied (x : Supply) (hop : op = .supply x)
  /-- A fetch returns the oldest delivery that waits for its consumer. -/
  | handed (f : Fetch) (now : Nat) (q : Queue) (d : Delivery) (rest : List Delivery)
      (hop : op = .look f now) (hqueue : b.queue? f.consumer = some q)
      (hready : q.ready = d :: rest) (hhanded : b.handed op = [⟨f.consumer, d⟩])
      (hafter : b.operate op = b.handOut f.consumer d rest)
  /-- A delivery in flight is settled. -/
  | settled (flight : Flight) (x : Settlement) (hop : op = .settle flight.delivery.handle x)
      (hfind : b.inFlight.find? (·.delivery.handle = flight.delivery.handle) = some flight)
      (hsettled : b.settled op = [(flight.delivery.handle, x)])
      (hafter : b.operate op = b.release flight x)
  /-- Nothing of note: at most a fetch is counted or a planted fault taken away. -/
  | idle (hop : ∀ x, op ≠ .supply x) (hhanded : b.handed op = []) (hsettled : b.settled op = [])
      (hafter : ∃ fetches fetchFaults bindFaults,
        b.operate op = { b with fetches, fetchFaults, bindFaults })

theorem take?_eq_handOut {b : Broker} {c : ConsumerId} {q : Queue} {d : Delivery}
    {rest : List Delivery} (hqueue : b.queue? c = some q) (hready : q.ready = d :: rest) :
    b.take? c = .ok (some (d, b.handOut c d rest)) := by
  rw [take?]
  simp only [hqueue, hready, handOut]

/-- A look finds the oldest delivery of its queue, or leaves the broker as it is. -/
theorem look_cases (f : Fetch) (now : Nat) (b : Broker) :
    (∃ q d rest, b.queue? f.consumer = some q ∧ q.ready = d :: rest ∧
      f.look now b = (.finished (.ok d), b.handOut f.consumer d rest)) ∨
    (∀ d, (f.look now b).1 ≠ .finished (.ok d)) ∧ (f.look now b).2 = b := by
  rw [Fetch.look]
  rcases hqueue : b.queue? f.consumer with - | q
  · obtain ⟨cause, hnone⟩ : ∃ cause, b.take? f.consumer = .error cause := by
      rw [take?, hqueue]
      exact ⟨_, rfl⟩
    rw [hnone]
    exact Or.inr ⟨fun d ↦ by simp, rfl⟩
  rcases hready : q.ready with - | ⟨d, rest⟩
  · have hempty : b.take? f.consumer = .ok none := by
      rw [take?]
      simp only [hqueue, hready]
    rw [hempty]
    refine Or.inr ?_
    simp only
    split <;> exact ⟨fun d ↦ by simp, rfl⟩
  · rw [take?_eq_handOut hqueue hready]
    exact Or.inl ⟨q, d, rest, rfl, hready, rfl⟩

/-- A queue that is not there cannot be changed. -/
theorem changeQueue_of_queue?_eq_none {b : Broker} {c : ConsumerId} (h : b.queue? c = none)
    (f : Queue → Queue) : changeQueue c f b.queues = b.queues := by
  refine changeQueue_of_notMem (fun hmem ↦ ?_) f
  obtain ⟨entry, hentry, rfl⟩ := List.mem_map.1 hmem
  have hne := List.lookup_eq_none_iff.1 h entry hentry
  simp at hne

/-- A settlement finds its delivery in flight, or fails and leaves the broker as it is. -/
theorem settle_cases (b : Broker) (h : Handle) (x : Settlement) :
    (∃ flight, flight.delivery.handle = h ∧
      b.inFlight.find? (·.delivery.handle = h) = some flight ∧
      (b.settle h x).result = .ok () ∧ (b.settle h x).broker = b.release flight x) ∨
    (∃ cause, (b.settle h x).result = .error cause) ∧ (b.settle h x).broker = b := by
  rw [settle]
  split
  · next fault _ => exact Or.inr ⟨⟨fault, rfl⟩, rfl⟩
  split
  · exact Or.inr ⟨⟨_, rfl⟩, rfl⟩
  · next flight hfind =>
    have hhandle : flight.delivery.handle = h := by simpa using List.find?_some hfind
    refine Or.inl ⟨flight, hhandle, hfind, ?_⟩
    cases x with
    | ack => exact ⟨rfl, by simp only [release, hhandle]⟩
    | nack =>
      simp only [release, hhandle]
      split
      · next hback =>
        have hredelivers : b.redelivers = true := (Bool.and_eq_true_iff.1 hback).1
        exact ⟨rfl, by rw [if_pos hredelivers]⟩
      · next hback =>
        refine ⟨rfl, ?_⟩
        split
        · next hredelivers =>
          -- The broker redelivers, so that it is the queue that is missing.
          have hqueue : b.queue? flight.consumer = none := by
            rw [hredelivers, Bool.true_and, Bool.not_eq_true, Option.isSome_eq_false_iff,
              Option.isNone_iff_eq_none] at hback
            exact hback
          rw [changeQueue_of_queue?_eq_none hqueue]
        · rfl

/-- **What one use comes to.** -/
theorem outcome (b : Broker) (op : Operation) : Outcome b op := by
  cases op with
  | supply x => exact .supplied x rfl
  | bind x =>
    obtain ⟨bindFaults, h⟩ := bind_eq b x
    exact .idle (by simp) rfl rfl ⟨b.fetches, b.fetchFaults, bindFaults, h⟩
  | ask =>
    obtain ⟨fetchFaults, h⟩ := beginFetch_eq b
    exact .idle (by simp) rfl rfl ⟨b.fetches + 1, fetchFaults, b.bindFaults, h⟩
  | look f now =>
    rcases look_cases f now b with ⟨q, d, rest, hqueue, hready, hlook⟩ | ⟨hnone, hsame⟩
    · exact .handed f now q d rest rfl hqueue hready (by rw [handed, hlook]) (by rw [operate, hlook])
    · refine .idle (by simp) ?_ rfl ⟨b.fetches, b.fetchFaults, b.bindFaults, hsame⟩
      rw [handed]
      split
      · next d hd => exact absurd hd (hnone d)
      · rfl
  | settle h x =>
    rcases b.settle_cases h x with ⟨flight, rfl, hfind, hresult, hbroker⟩ | ⟨⟨cause, hr⟩, hsame⟩
    · exact .settled flight x rfl hfind (by rw [settled, hresult]) hbroker
    · exact .idle (by simp) rfl (by rw [settled, hr])
        ⟨b.fetches, b.fetchFaults, b.bindFaults, hsame⟩

/-! ### Brokers in use -/

theorem sound_operate {b : Broker} (hs : b.Sound) (op : Operation) : (b.operate op).Sound := by
  cases op with
  | supply x => exact sound_supply hs x
  | bind x =>
    obtain ⟨bindFaults, h⟩ := bind_eq b x
    rw [operate, h]
    exact ⟨hs.sorted, hs.consumers, hs.once, hs.issued⟩
  | ask =>
    obtain ⟨fetchFaults, h⟩ := beginFetch_eq b
    rw [operate, h]
    exact ⟨hs.sorted, hs.consumers, hs.once, hs.issued⟩
  | look f now =>
    rcases look_cases f now b with ⟨q, d, rest, hqueue, hready, hlook⟩ | ⟨-, hsame⟩
    · rw [operate, hlook]
      exact sound_take? hs (take?_eq_handOut hqueue hready)
    · rwa [operate, hsame]
  | settle h x => exact sound_settle hs h x

/-- A broker that nobody has used yet. -/
theorem sound_empty (redelivers : Bool) : Sound { redelivers } :=
  Untouched.sound ⟨redelivers, [], rfl⟩

theorem sound_after {b : Broker} (hs : b.Sound) (ops : List Operation) : (b.after ops).Sound := by
  induction ops generalizing b with
  | nil => exact hs
  | cons op rest ih => exact ih (sound_operate hs op)

@[simp] theorem redelivers_operate (b : Broker) (op : Operation) :
    (b.operate op).redelivers = b.redelivers := by
  rcases b.outcome op with ⟨x, rfl⟩ | ⟨f, now, q, d, rest, -, -, -, -, hafter⟩ |
    ⟨flight, x, -, -, -, hafter⟩ | ⟨-, -, -, fetches, fetchFaults, bindFaults, hafter⟩
  · exact redelivers_supply b x
  · rw [hafter, handOut]
  · rw [hafter]
    cases x <;> rfl
  · rw [hafter]

@[simp] theorem redelivers_after (b : Broker) (ops : List Operation) :
    (b.after ops).redelivers = b.redelivers := by
  induction ops generalizing b with
  | nil => rfl
  | cons op rest ih => exact (ih (b.operate op)).trans (redelivers_operate b op)

/-- Numbers only grow. -/
theorem issued_le_operate (b : Broker) (op : Operation) : b.issued ≤ (b.operate op).issued := by
  rcases b.outcome op with ⟨x, rfl⟩ | ⟨f, now, q, d, rest, -, -, -, -, hafter⟩ |
    ⟨flight, x, -, -, -, hafter⟩ | ⟨-, -, -, fetches, fetchFaults, bindFaults, hafter⟩
  · exact issued_le_supply b x
  · rw [hafter, handOut]
  · rw [hafter]
    cases x <;> exact Nat.le_refl _
  · rw [hafter]

end PullConsumer.Broker
