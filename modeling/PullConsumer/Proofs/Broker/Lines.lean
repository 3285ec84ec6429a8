import Mathlib.Data.List.Induction
import PullConsumer.Proofs.Broker.Traffic

/-!
# The line of a consumer

From its declaration on, the deliveries of a consumer stand in line. A publication that its filter
selects puts one at the end, and so does a negative settlement of one of its own, if the broker
redelivers (`entered`); a fetch takes the first. One use of the broker therefore keeps this
equation, read as lists: what it hands out, and then what waits after it, is what waited before it
and then what it enters (`queue?_operate`). Along a run the equations join to one
(`in_line`): whatever was handed out since the declaration, and then whatever waits, is whatever
has been entered.

It does not matter who fetches. The equation of a step holds of every look of every fetch, so that
nothing has to be known of how many are under way, which of them was woken first, or which of them
had to leave with nothing.

Whoever does not concern a consumer leaves its line alone, which needs no equation
(`queue?_operate_of_not_concerns`).
-/

namespace PullConsumer.Broker

/-! ### Finding a queue -/

theorem lookup_setQueue_self (c : ConsumerId) (q : Queue) (queues : List (ConsumerId × Queue)) :
    (setQueue c q queues).lookup c = some q := by
  fun_induction setQueue c q queues with
  | case1 => simp
  | case2 old rest => simp
  | case3 k old rest hk hlt => simp
  | case4 k old rest hk hlt ih =>
    have hne : (c == k) = false := beq_eq_false_iff_ne.2 fun h ↦ hk h.symm
    rw [List.lookup_cons, hne]
    exact ih

theorem lookup_setQueue_of_ne {c k : ConsumerId} (h : k ≠ c) (q : Queue)
    (queues : List (ConsumerId × Queue)) : (setQueue c q queues).lookup k = queues.lookup k := by
  have hne : (k == c) = false := beq_eq_false_iff_ne.2 h
  fun_induction setQueue c q queues with
  | case1 => rw [List.lookup_cons, hne]
  | case2 old rest => rw [List.lookup_cons, List.lookup_cons, hne]
  | case3 k' old rest hk hlt => rw [List.lookup_cons, hne]
  | case4 k' old rest hk hlt ih => rw [List.lookup_cons, List.lookup_cons, ih]

theorem lookup_changeQueue_self (c : ConsumerId) (f : Queue → Queue)
    (queues : List (ConsumerId × Queue)) :
    (changeQueue c f queues).lookup c = (queues.lookup c).map f := by
  induction queues with
  | nil => rfl
  | cons entry rest ih =>
    obtain ⟨k, q⟩ := entry
    by_cases h : k = c
    · subst h
      simp [changeQueue]
    · have hne : (c == k) = false := beq_eq_false_iff_ne.2 fun he ↦ h he.symm
      rw [changeQueue, List.map_cons, if_neg h, List.lookup_cons, List.lookup_cons, hne]
      exact ih

theorem lookup_changeQueue_of_ne {c k : ConsumerId} (h : k ≠ c) (f : Queue → Queue)
    (queues : List (ConsumerId × Queue)) :
    (changeQueue c f queues).lookup k = queues.lookup k := by
  induction queues with
  | nil => rfl
  | cons entry rest ih =>
    obtain ⟨k', q⟩ := entry
    rw [changeQueue, List.map_cons]
    by_cases hk : k = k'
    · subst hk
      rw [if_neg h, List.lookup_cons_self, List.lookup_cons_self]
    · have hne : (k == k') = false := beq_eq_false_iff_ne.2 hk
      split <;> (rw [List.lookup_cons, List.lookup_cons, hne]; exact ih)

/-! ### To whom a message goes -/

/-- The consumers whose filter selects a message, in the order in which they are served. -/
def addressees (b : Broker) (m : Message) : List ConsumerId :=
  (b.queues.filter fun entry ↦ Subject.isSelected entry.2.filter m.subject).map (·.1)

/-- The handle under which a message goes to one of its addressees: the consumers that are served
before it have the numbers before. -/
def handleFor (b : Broker) (m : Message) (c : ConsumerId) : Handle :=
  Handle.ofNumber c (b.issued + (b.addressees m).idxOf c + 1)

private theorem idxOf_cons_of_ne {c k : ConsumerId} {l : List ConsumerId} (h : k ≠ c) :
    (k :: l).idxOf c = l.idxOf c + 1 :=
  List.idxOf_cons_ne l h

/-- What a publication does to one queue, at any place in the order. -/
private theorem lookup_deal (m : Message) (stamp : Int) (issued : Nat)
    (queues : List (ConsumerId × Queue)) (c : ConsumerId) :
    (deal m stamp issued queues).1.lookup c = (queues.lookup c).map fun q ↦
      if Subject.isSelected q.filter m.subject then
        Queue.push q ⟨Handle.ofNumber c (issued + ((queues.filter fun entry ↦
          Subject.isSelected entry.2.filter m.subject).map (·.1)).idxOf c + 1), m, stamp⟩
      else q := by
  induction queues generalizing issued with
  | nil => rfl
  | cons entry rest ih =>
    obtain ⟨k, q⟩ := entry
    by_cases hk : c = k
    · subst hk
      by_cases hsel : Subject.isSelected q.filter m.subject <;> simp [deal, hsel]
    · have hne : (c == k) = false := beq_eq_false_iff_ne.2 hk
      by_cases hsel : Subject.isSelected q.filter m.subject
      · simp only [deal, hsel, if_true, List.lookup_cons, hne, List.filter_cons, List.map_cons,
          idxOf_cons_of_ne (Ne.symm hk), ih]
        congr 1
        funext old
        rw [Nat.add_right_comm issued 1, Nat.add_assoc issued _ 1]
      · simp only [deal, hsel, Bool.false_eq_true, if_false, List.lookup_cons, hne,
          List.filter_cons, ih]

/-- A publication puts one delivery at the end of the queue of each addressee. -/
theorem queue?_publish (b : Broker) (m : Message) (stamp : Int) (c : ConsumerId) :
    (b.publish m stamp).2.queue? c = (b.queue? c).map fun q ↦
      if Subject.isSelected q.filter m.subject then Queue.push q ⟨b.handleFor m c, m, stamp⟩
      else q :=
  lookup_deal m stamp b.issued b.queues c

private theorem snd_deal (m : Message) (stamp : Int) (issued : Nat)
    {queues : List (ConsumerId × Queue)} (hn : (queues.map (·.1)).Nodup) :
    (deal m stamp issued queues).2 = ((queues.filter fun entry ↦
      Subject.isSelected entry.2.filter m.subject).map (·.1)).map fun c ↦
        Handle.ofNumber c (issued + ((queues.filter fun entry ↦
          Subject.isSelected entry.2.filter m.subject).map (·.1)).idxOf c + 1) := by
  induction queues generalizing issued with
  | nil => rfl
  | cons entry rest ih =>
    obtain ⟨k, q⟩ := entry
    rw [List.map_cons, List.nodup_cons] at hn
    by_cases hsel : Subject.isSelected q.filter m.subject
    · simp only [deal, hsel, if_true, List.filter_cons, List.map_cons, List.idxOf_cons_self,
        Nat.add_zero, ih (issued + 1) hn.2]
      congr 1
      refine List.map_congr_left fun c hc ↦ ?_
      -- A consumer is there once, so that those after the first are counted from the next number.
      have hne : k ≠ c := by
        rintro rfl
        obtain ⟨entry, hentry, he⟩ := List.mem_map.1 hc
        exact hn.1 (List.mem_map.2 ⟨entry, (List.mem_filter.1 hentry).1, he⟩)
      rw [idxOf_cons_of_ne hne, Nat.add_right_comm issued 1, Nat.add_assoc issued _ 1]
    · simp only [deal, hsel, Bool.false_eq_true, if_false, List.filter_cons, ih issued hn.2]

/-- A publication answers with the handles of its addressees. -/
theorem fst_publish {b : Broker} (hs : b.Sound) (m : Message) (stamp : Int) :
    (b.publish m stamp).1 = (b.addressees m).map (b.handleFor m) :=
  snd_deal m stamp b.issued hs.consumers

/-! ### What enters a line and what leaves it -/

/-- The delivery that a use puts into the queue of `c`, which has the given filter: that of a
message which the filter selects, or one that was fetched for `c` and is settled negatively. -/
def entered (c : ConsumerId) (filter : String) (b : Broker) : Operation → List Delivery
  | .supply (.publish m stamp) =>
    if Subject.isSelected filter m.subject then [⟨b.handleFor m c, m, stamp⟩] else []
  | .settle h .nack =>
    match (b.settle h .nack).result, b.inFlight.find? (·.delivery.handle = h) with
    | .ok (), some flight =>
      if b.redelivers ∧ flight.consumer = c then [flight.delivery] else []
    | _, _ => []
  | _ => []

/-- Of what is handed out, that which is for `c`. -/
def handedTo (c : ConsumerId) (flights : List Flight) : List Delivery :=
  (flights.filter (·.consumer = c)).map (·.delivery)

theorem handedTo_append (c : ConsumerId) (flights more : List Flight) :
    handedTo c (flights ++ more) = handedTo c flights ++ handedTo c more := by
  rw [handedTo, List.filter_append, List.map_append, handedTo, handedTo]

/-- Whether a use concerns the queue of `c`: a publication that its filter selects, its own
declaration, a fetch for it, a negative settlement of a delivery that was fetched for it. -/
def Concerns (b : Broker) (c : ConsumerId) : Operation → Prop
  | .supply (.publish m _) => ∃ q, b.queue? c = some q ∧ Subject.isSelected q.filter m.subject
  | .supply (.declare k _) => k = c
  | .look f _ => f.consumer = c
  | .settle h x => x = .nack ∧ ∃ flight ∈ b.inFlight, flight.delivery.handle = h ∧
      flight.consumer = c
  | _ => False

theorem queue?_handOut (b : Broker) (c k : ConsumerId) (d : Delivery) (rest : List Delivery) :
    (b.handOut c d rest).queue? k =
      if k = c then (b.queue? k).map fun q ↦ { q with ready := rest } else b.queue? k := by
  simp only [queue?, handOut]
  split
  · next h =>
    subst h
    exact lookup_changeQueue_self ..
  · next h => exact lookup_changeQueue_of_ne h ..

theorem queue?_release (b : Broker) (flight : Flight) (x : Settlement) (k : ConsumerId) :
    (b.release flight x).queue? k =
      if x = .nack ∧ b.redelivers = true ∧ flight.consumer = k then
        (b.queue? k).map (Queue.push · flight.delivery)
      else b.queue? k := by
  cases x with
  | ack =>
    rw [if_neg fun h ↦ absurd h.1 (by simp)]
    rfl
  | nack =>
    by_cases hredelivers : b.redelivers = true
    · simp only [release, queue?, hredelivers, if_true, true_and]
      split
      · next h =>
        subst h
        exact lookup_changeQueue_self ..
      · next h => exact lookup_changeQueue_of_ne (Ne.symm h) ..
    · rw [if_neg fun h ↦ hredelivers h.2.1]
      simp only [release, queue?, hredelivers]
      rfl

theorem entered_of_settled {b : Broker} {flight : Flight} {x : Settlement}
    (hfind : b.inFlight.find? (·.delivery.handle = flight.delivery.handle) = some flight)
    (hsettled : b.settled (.settle flight.delivery.handle x) = [(flight.delivery.handle, x)])
    (c : ConsumerId) (filter : String) :
    entered c filter b (.settle flight.delivery.handle x) =
      if x = .nack ∧ b.redelivers = true ∧ flight.consumer = c then [flight.delivery] else [] := by
  cases x with
  | ack => exact (if_neg fun h ↦ absurd h.1 (by simp)).symm
  | nack =>
    have hresult : (b.settle flight.delivery.handle .nack).result = .ok () := by
      rw [settled] at hsettled
      split at hsettled
      · next hok => exact hok
      · exact absurd hsettled (by simp)
    rw [entered, hresult, hfind]
    simp

theorem entered_of_idle {b : Broker} {op : Operation} (hop : ∀ x, op ≠ .supply x)
    (hsettled : b.settled op = []) (c : ConsumerId) (filter : String) :
    entered c filter b op = [] := by
  cases op with
  | supply x => exact absurd rfl (hop x)
  | settle h x =>
    cases x with
    | ack => rfl
    | nack =>
      rw [entered]
      split
      · next hresult _ =>
        rw [settled, hresult] at hsettled
        exact absurd hsettled (by simp)
      · rfl
  | _ => rfl

/-- **The equation of a step**: what is handed out, and then what waits, is what waited, and then
what is entered. -/
theorem queue?_operate {b : Broker} {c : ConsumerId} {q : Queue} (hq : b.queue? c = some q)
    {op : Operation} (hop : ∀ again, op ≠ .supply (.declare c again)) :
    ∃ q', (b.operate op).queue? c = some q' ∧ q'.filter = q.filter ∧
      handedTo c (b.handed op) ++ q'.ready = q.ready ++ entered c q.filter b op := by
  rcases b.outcome op with ⟨x, rfl⟩ | ⟨f, now, q₀, d, rest, rfl, hqueue, hready, hhanded, hafter⟩ |
    ⟨flight, x, rfl, hfind, hsettled, hafter⟩ | ⟨hno, hhanded, hsettled, _, _, _, hafter⟩
  · cases x with
    | publish m stamp =>
      refine ⟨_, (queue?_publish b m stamp c).trans (by rw [hq, Option.map_some]), ?_⟩
      by_cases hsel : Subject.isSelected q.filter m.subject
      · simp only [hsel, if_true, entered]
        exact ⟨rfl, rfl⟩
      · simp only [hsel, Bool.false_eq_true, if_false, entered]
        exact ⟨trivial, (List.append_nil _).symm⟩
    | declare k filter =>
      have hne : c ≠ k := fun h ↦ hop filter (by rw [h])
      exact ⟨q, (lookup_setQueue_of_ne hne ..).trans hq, rfl, (List.append_nil _).symm⟩
    | _ => exact ⟨q, hq, rfl, (List.append_nil _).symm⟩
  · rw [hhanded, hafter, queue?_handOut]
    by_cases hc : c = f.consumer
    · subst hc
      obtain rfl : q₀ = q := Option.some.inj (hqueue.symm.trans hq)
      rw [if_pos rfl, hq]
      refine ⟨_, rfl, rfl, ?_⟩
      rw [hready]
      simp [handedTo, entered]
    · rw [if_neg hc]
      refine ⟨q, hq, rfl, ?_⟩
      simp [handedTo, entered, Ne.symm hc]
  · have hnone : b.handed (.settle flight.delivery.handle x) = [] := rfl
    rw [hnone, hafter, queue?_release, entered_of_settled hfind hsettled]
    split
    · refine ⟨Queue.push q flight.delivery, ?_, rfl, rfl⟩
      rw [hq, Option.map_some]
    · exact ⟨q, hq, rfl, (List.append_nil _).symm⟩
  · rw [hhanded, hafter, entered_of_idle hno hsettled]
    exact ⟨q, hq, rfl, (List.append_nil _).symm⟩

/-- Only a declaration brings a consumer into being. -/
theorem queue?_operate_of_none {b : Broker} {c : ConsumerId} (hq : b.queue? c = none)
    {op : Operation} (hop : ∀ again, op ≠ .supply (.declare c again)) :
    (b.operate op).queue? c = none := by
  rcases b.outcome op with ⟨x, rfl⟩ | ⟨f, now, q, d, rest, -, -, -, -, hafter⟩ |
    ⟨flight, x, -, -, -, hafter⟩ | ⟨-, -, -, _, _, _, hafter⟩
  · cases x with
    | publish m stamp => exact (queue?_publish b m stamp c).trans (by rw [hq, Option.map_none])
    | declare k filter =>
      have hne : c ≠ k := fun h ↦ hop filter (by rw [h])
      exact (lookup_setQueue_of_ne hne ..).trans hq
    | _ => exact hq
  · rw [hafter, queue?_handOut, hq, Option.map_none, ite_self]
  · rw [hafter, queue?_release, hq, Option.map_none, ite_self]
  · rw [hafter]
    exact hq

/-- How a consumer has come by its queue: it was declared just now, or had one before. -/
theorem queue?_operate_cases {b : Broker} {c : ConsumerId} {q : Queue} {op : Operation}
    (hq : (b.operate op).queue? c = some q) :
    (op = .supply (.declare c q.filter) ∧ q.ready = []) ∨
      ((∀ again, op ≠ .supply (.declare c again)) ∧
        ∃ old, b.queue? c = some old ∧ q.filter = old.filter ∧
          handedTo c (b.handed op) ++ q.ready = old.ready ++ entered c old.filter b op) := by
  by_cases hdeclares : ∃ again, op = .supply (.declare c again)
  · obtain ⟨filter, rfl⟩ := hdeclares
    have hset : some { filter } = some q := (lookup_setQueue_self ..).symm.trans hq
    obtain rfl := Option.some.inj hset
    exact Or.inl ⟨rfl, rfl⟩
  · have hop : ∀ again, op ≠ .supply (.declare c again) := fun again he ↦ hdeclares ⟨again, he⟩
    rcases hold : b.queue? c with - | old
    · rw [queue?_operate_of_none hold hop] at hq
      exact absurd hq (by simp)
    · obtain ⟨q', hq', hfilter, hline⟩ := queue?_operate hold hop
      obtain rfl : q' = q := Option.some.inj (hq'.symm.trans hq)
      exact Or.inr ⟨hop, old, rfl, hfilter, hline⟩

/-- The deliveries that wait for a consumer; none for an unknown one. -/
def line (b : Broker) (c : ConsumerId) : List Delivery :=
  match b.queue? c with
  | some q => q.ready
  | none => []

/-- What a use puts into the line of a consumer that is there. -/
def entering (c : ConsumerId) (b : Broker) (op : Operation) : List Delivery :=
  match b.queue? c with
  | some q => entered c q.filter b op
  | none => []

/-- The equation of a step, for a consumer that may be missing. -/
theorem line_operate {b : Broker} {c : ConsumerId} {op : Operation}
    (hop : ∀ again, op ≠ .supply (.declare c again)) :
    handedTo c (b.handed op) ++ (b.operate op).line c = b.line c ++ entering c b op := by
  rcases hq : b.queue? c with - | q
  · have hnone : handedTo c (b.handed op) = [] := by
      rcases b.outcome op with ⟨x, rfl⟩ | ⟨f, now, q, d, rest, -, hqueue, -, hhanded, -⟩ |
        ⟨flight, x, rfl, -, -, -⟩ | ⟨-, hhanded, -, -⟩
      · rfl
      · have hne : f.consumer ≠ c := fun h ↦ by
          rw [h, hq] at hqueue
          exact absurd hqueue (by simp)
        simp [hhanded, handedTo, hne]
      · rfl
      · rw [hhanded]
        rfl
    rw [hnone, line, queue?_operate_of_none hq hop, line, entering, hq]
  · obtain ⟨q', hq', -, hline⟩ := queue?_operate hq hop
    rw [line, hq', line, entering, hq]
    exact hline

/-- Whatever is put into a line is supplied or redelivered. -/
theorem entering_of_not_supply {b : Broker} (hnot : b.redelivers = false) {op : Operation}
    (hop : ∀ x, op ≠ .supply x) (c : ConsumerId) : entering c b op = [] := by
  rw [entering]
  split
  · next q _ =>
    cases op with
    | supply x => exact absurd rfl (hop x)
    | settle h x =>
      cases x with
      | ack => rfl
      | nack =>
        rw [entered]
        split
        · rw [if_neg fun h ↦ absurd (h.1.symm.trans hnot) (by decide)]
        · rfl
    | _ => rfl
  · rfl

/-- A use that does not concern a consumer leaves its line as it is. -/
theorem queue?_operate_of_not_concerns {b : Broker} {c : ConsumerId} {op : Operation}
    (h : ¬ b.Concerns c op) : (b.operate op).queue? c = b.queue? c := by
  rcases b.outcome op with ⟨x, rfl⟩ | ⟨f, now, q, d, rest, rfl, -, -, -, hafter⟩ |
    ⟨flight, x, rfl, hfind, -, hafter⟩ | ⟨-, -, -, _, _, _, hafter⟩
  · cases x with
    | publish m stamp =>
      refine (queue?_publish b m stamp c).trans ?_
      rcases hq : b.queue? c with - | q
      · rfl
      · have hsel : ¬ Subject.isSelected q.filter m.subject := fun hsel ↦ h ⟨q, hq, hsel⟩
        rw [Option.map_some, if_neg hsel]
    | declare k filter => exact lookup_setQueue_of_ne (Ne.symm h) ..
    | _ => rfl
  · rw [hafter, queue?_handOut, if_neg (Ne.symm h)]
  · rw [hafter, queue?_release, if_neg]
    rintro ⟨rfl, -, hc⟩
    exact h ⟨rfl, flight, List.mem_of_find?_eq_some hfind, rfl, hc⟩
  · rw [hafter]
    rfl

/-! ### The line of a run -/

/-- **The equation of a run**, from the declaration of a consumer on. -/
theorem exists_queue?_after (b : Broker) (c : ConsumerId) (filter : String)
    (since : List Operation) (hsince : ∀ again, .supply (.declare c again) ∉ since) :
    ∃ q, ((b.declare c filter).after since).queue? c = some q ∧ q.filter = filter ∧
      handedTo c (along handed (b.declare c filter) since) ++ q.ready =
        along (entered c filter) (b.declare c filter) since := by
  induction since using List.reverseRecOn with
  | nil => exact ⟨{ filter }, lookup_setQueue_self .., rfl, rfl⟩
  | append_singleton since op ih =>
    obtain ⟨q, hq, hfilter, hline⟩ :=
      ih fun again hmem ↦ hsince again (List.mem_append_left _ hmem)
    have hop : ∀ again, op ≠ .supply (.declare c again) := fun again he ↦
      hsince again (he ▸ List.mem_append_right _ List.mem_cons_self)
    obtain ⟨q', hq', hfilter', hstep⟩ := queue?_operate hq hop
    refine ⟨q', by rw [after_concat, hq'], hfilter'.trans hfilter, ?_⟩
    rw [along_concat, along_concat, handedTo_append, List.append_assoc, hstep, ← hline,
      hfilter, List.append_assoc]

/-- Where nothing is supplied and nothing is redelivered, what waits is only handed out. -/
theorem line_after {b : Broker} (hnot : b.redelivers = false) {ops : List Operation}
    (hops : ∀ op ∈ ops, ∀ x, op ≠ .supply x) (c : ConsumerId) :
    handedTo c (along handed b ops) ++ (b.after ops).line c = b.line c := by
  induction ops generalizing b with
  | nil => rfl
  | cons op rest ih =>
    rw [List.forall_mem_cons] at hops
    have hstep := line_operate (b := b) (c := c) fun again ↦ hops.1 (.declare c again)
    have hrest := ih ((redelivers_operate b op).trans hnot) hops.2
    rw [entering_of_not_supply hnot hops.1, List.append_nil] at hstep
    rw [along, handedTo_append, List.append_assoc, ← hstep]
    exact congrArg _ hrest

/-- What can be said of the lines of a broker that has been used since one of its consumers was
declared. -/
structure InLine (b : Broker) (c : ConsumerId) (filter : String) (since : List Operation) :
    Prop where
  /-- What was handed out for the consumer, and then what waits for it, is what was entered. -/
  line : ∃ q, (b.after since).queue? c = some q ∧ q.filter = filter ∧
    handedTo c (along handed b since) ++ q.ready = along (entered c filter) b since
  /-- The deliveries that a publication enters are those whose handles it answers with, one for
  each consumer whose filter selects the message. -/
  answered : ∀ m stamp, ((b.after since).publish m stamp).1 =
    ((b.after since).addressees m).map ((b.after since).handleFor m)
  /-- A use changes the line of no consumer that it does not concern. -/
  others : ∀ k op, ¬ (b.after since).Concerns k op →
    ((b.after since).operate op).queue? k = (b.after since).queue? k

/-- **First in, first out**: from its declaration until it is declared again, a consumer is given
what is entered for it, all of it and nothing else, each once and in that order. -/
theorem in_line (redelivers : Bool) (before since : List Operation) (c : ConsumerId)
    (filter : String) (hsince : ∀ again, .supply (.declare c again) ∉ since) :
    InLine ((after { redelivers } before).declare c filter) c filter since := by
  have hsound : ((after { redelivers } before).declare c filter).Sound :=
    sound_declare (sound_after (sound_empty redelivers) before) c filter
  exact {
    line := exists_queue?_after _ c filter since hsince
    answered := fst_publish (sound_after hsound since)
    others := fun k op h ↦ queue?_operate_of_not_concerns h }

/-- A fetch for the consumer `S/c` that waits ten ticks. -/
def Fetch.brief : Fetch := ⟨⟨"S", "c"⟩, .ofMillis 10, 10⟩

/-- Two messages are published; the first comes back and is fetched after the second, and a further
fetch times out. -/
def Operation.relay : List Operation :=
  [.supply (.publish ⟨"a", [], []⟩ 0), .ask, .look .brief 0, .supply (.publish ⟨"a", [], []⟩ 1),
    .settle ⟨"S.c.1"⟩ .nack, .ask, .look .brief 1, .ask, .look .brief 2, .ask, .look .brief 10]

/-- A delivery that comes back stands behind those that came meanwhile. -/
theorem in_line_relay : (∀ again, .supply (.declare ⟨"S", "c"⟩ again) ∉ Operation.relay) ∧
    InLine ((after {} []).declare ⟨"S", "c"⟩ "a") ⟨"S", "c"⟩ "a" Operation.relay ∧
    (handedTo ⟨"S", "c"⟩ (along handed ((after {} []).declare ⟨"S", "c"⟩ "a")
      Operation.relay)).map (·.handle.text) = ["S.c.1", "S.c.2", "S.c.1"] := by
  have hrelay : ∀ again, .supply (.declare ⟨"S", "c"⟩ again) ∉ Operation.relay := fun again ↦ by
    simp [Operation.relay]
  exact ⟨hrelay, in_line true [] Operation.relay ⟨"S", "c"⟩ "a" hrelay, by decide +kernel⟩

end PullConsumer.Broker
