import Mathlib.Data.List.Induction
import PullConsumer.Proofs.Broker.Traffic

/-!
# The custody of deliveries

From its publication on a delivery waits, is in flight, or is done with, and a broker never loses
sight of which. What is told along a run (issued, handed out, settled) is laid beside the broker at
its end (`Tallies`), and one use of the broker keeps the two in step (`Tallies.operate`), whichever
use it is. Declaring a consumer again while its deliveries are in flight is no exception: they stay
in flight, and only what waited is forgotten.

Three facts do the work. No number is issued twice, so that what is published is new. A handle is in
stock once, so that handing out and settling move a single delivery. And a delivery is done with
when it leaves the flight without a way back into the stock, since nothing but a publication and a
negative settlement with redelivery brings anything in.
-/

namespace PullConsumer.Broker

/-! ### The stock, delivery by delivery -/

/-- The deliveries in stock: those that wait, then those in flight. -/
def stored (b : Broker) : List Delivery :=
  b.queues.flatMap (·.2.ready) ++ b.inFlight.map (·.delivery)

theorem map_handle_stored (b : Broker) : b.stored.map Delivery.handle = b.ready ++ b.flying := by
  simp [stored, ready, flying, List.map_flatMap]

theorem mem_stored {b : Broker} {d : Delivery} :
    d ∈ b.stored ↔ (∃ entry ∈ b.queues, d ∈ entry.2.ready) ∨ ∃ flight ∈ b.inFlight,
      flight.delivery = d := by
  rw [stored, List.mem_append, List.mem_flatMap, List.mem_map]

theorem mem_queues_of_queue? {b : Broker} {c : ConsumerId} {q : Queue} (h : b.queue? c = some q) :
    (c, q) ∈ b.queues := by
  obtain ⟨before, after, hqueues, -⟩ := List.lookup_eq_some_iff.1 h
  rw [hqueues]
  exact List.mem_append_right _ List.mem_cons_self

/-- What is dealt out comes to wait; whatever else waits afterwards waited before. -/
theorem mem_ready_deal {m : Message} {stamp : Int} {issued : Nat}
    {queues : List (ConsumerId × Queue)} {entry : ConsumerId × Queue} {d : Delivery}
    (hentry : entry ∈ (deal m stamp issued queues).1) (hd : d ∈ entry.2.ready) :
    (∃ old ∈ queues, d ∈ old.2.ready) ∨
      d ∈ (deal m stamp issued queues).2.map (Delivery.mk · m stamp) := by
  induction queues generalizing issued with
  | nil => simp [deal] at hentry
  | cons first rest ih =>
    obtain ⟨c, q⟩ := first
    by_cases hsel : Subject.isSelected q.filter m.subject
    · simp only [deal, hsel, if_true, List.mem_cons, List.map_cons] at hentry ⊢
      rcases hentry with rfl | hentry
      · rw [Queue.push, List.mem_append, List.mem_singleton] at hd
        rcases hd with hd | rfl
        · exact Or.inl ⟨(c, q), Or.inl rfl, hd⟩
        · exact Or.inr (Or.inl rfl)
      · rcases ih hentry with ⟨old, hold, hd⟩ | hd
        · exact Or.inl ⟨old, Or.inr hold, hd⟩
        · exact Or.inr (Or.inr hd)
    · simp only [deal, hsel, Bool.false_eq_true, if_false, List.mem_cons] at hentry ⊢
      rcases hentry with rfl | hentry
      · exact Or.inl ⟨(c, q), Or.inl rfl, hd⟩
      · rcases ih hentry with ⟨old, hold, hd⟩ | hd
        · exact Or.inl ⟨old, Or.inr hold, hd⟩
        · exact Or.inr hd

theorem mem_stored_supply {b : Broker} {x : Supply} {d : Delivery} (hd : d ∈ (b.supply x).stored) :
    d ∈ b.stored ∨ d ∈ b.dealt (.supply x) := by
  cases x with
  | publish m stamp =>
    rcases mem_stored.1 hd with ⟨entry, hentry, hd⟩ | hd
    · exact (mem_ready_deal hentry hd).imp_left fun hold ↦ mem_stored.2 (Or.inl hold)
    · exact Or.inl (mem_stored.2 (Or.inr hd))
  | declare c filter =>
    refine Or.inl (mem_stored.2 ((mem_stored.1 hd).imp_left fun hready ↦ ?_))
    obtain ⟨entry, hentry, hd⟩ := hready
    rcases mem_setQueue hentry with rfl | hentry
    · exact absurd hd List.not_mem_nil
    · exact ⟨entry, hentry, hd⟩
  | _ => exact Or.inl hd

theorem mem_stored_handOut {b : Broker} {c : ConsumerId} {q : Queue} {d x : Delivery}
    {rest : List Delivery} (hqueue : b.queue? c = some q) (hready : q.ready = d :: rest)
    (hx : x ∈ (b.handOut c d rest).stored) : x ∈ b.stored := by
  have hwaits : ∀ y ∈ d :: rest, y ∈ b.stored := fun y hy ↦
    mem_stored.2 (Or.inl ⟨(c, q), mem_queues_of_queue? hqueue, hready ▸ hy⟩)
  rcases mem_stored.1 hx with ⟨entry, hentry, hx⟩ | ⟨flight, hflight, rfl⟩
  · obtain ⟨old, hold, rfl⟩ := List.mem_map.1 hentry
    split at hx
    · exact hwaits x (List.mem_cons_of_mem _ hx)
    · exact mem_stored.2 (Or.inl ⟨old, hold, hx⟩)
  · rcases List.mem_append.1 hflight with hflight | hflight
    · exact mem_stored.2 (Or.inr ⟨flight, hflight, rfl⟩)
    · rw [List.mem_singleton.1 hflight]
      exact hwaits d List.mem_cons_self

theorem mem_stored_release {b : Broker} {flight : Flight} {x : Settlement} {d : Delivery}
    (hmem : flight ∈ b.inFlight) (hd : d ∈ (b.release flight x).stored) : d ∈ b.stored := by
  rcases mem_stored.1 hd with ⟨entry, hentry, hready⟩ | ⟨other, hother, rfl⟩
  · cases x with
    | ack => exact mem_stored.2 (Or.inl ⟨entry, hentry, hready⟩)
    | nack =>
      simp only [release] at hentry
      split at hentry
      · obtain ⟨old, hold, rfl⟩ := List.mem_map.1 hentry
        split at hready
        · rcases List.mem_append.1 hready with hready | hready
          · exact mem_stored.2 (Or.inl ⟨old, hold, hready⟩)
          · rw [List.mem_singleton.1 hready]
            exact mem_stored.2 (Or.inr ⟨flight, hmem, rfl⟩)
        · exact mem_stored.2 (Or.inl ⟨old, hold, hready⟩)
      · exact mem_stored.2 (Or.inl ⟨entry, hentry, hready⟩)
  · rw [inFlight_release] at hother
    exact mem_stored.2 (Or.inr ⟨other, (List.mem_filter.1 hother).1, rfl⟩)

/-- **Nothing comes into the stock but what is issued.** -/
theorem mem_stored_operate {b : Broker} {op : Operation} {d : Delivery}
    (hd : d ∈ (b.operate op).stored) : d ∈ b.stored ∨ d ∈ b.dealt op := by
  rcases b.outcome op with ⟨x, rfl⟩ | ⟨f, now, q, d', rest, -, hqueue, hready, -, hafter⟩ |
    ⟨flight, x, -, hfind, -, hafter⟩ | ⟨-, -, -, fetches, fetchFaults, bindFaults, hafter⟩
  · exact mem_stored_supply hd
  · rw [hafter] at hd
    exact Or.inl (mem_stored_handOut hqueue hready hd)
  · rw [hafter] at hd
    exact Or.inl (mem_stored_release (List.mem_of_find?_eq_some hfind) hd)
  · rw [hafter] at hd
    exact Or.inl hd

/-! ### Deliveries that are issued -/

theorem map_handle_dealt_publish (b : Broker) (m : Message) (stamp : Int) :
    (b.dealt (.supply (.publish m stamp))).map Delivery.handle = (b.publish m stamp).1 := by
  rw [dealt, List.map_map]
  exact List.map_id _

/-- What is issued has handles of its own, none of them issued before. -/
theorem fresh_dealt (b : Broker) (op : Operation) :
    ((b.dealt op).map Delivery.handle).Nodup ∧
      ∀ d ∈ b.dealt op, ¬ b.Issued d.handle ∧ (b.operate op).Issued d.handle := by
  have hnone : ∀ l : List Delivery, l = [] → (l.map Delivery.handle).Nodup ∧
      ∀ d ∈ l, ¬ b.Issued d.handle ∧ (b.operate op).Issued d.handle := by
    rintro l rfl
    exact ⟨List.nodup_nil, fun d hd ↦ absurd hd List.not_mem_nil⟩
  cases op with
  | supply x =>
    cases x with
    | publish m stamp =>
      refine ⟨?_, fun d hd ↦ ?_⟩
      · rw [map_handle_dealt_publish]
        exact nodup_deal ..
      · have hmem := List.mem_map_of_mem (f := Delivery.handle) hd
        rw [map_handle_dealt_publish] at hmem
        exact not_issued_of_publish hmem
    | _ => exact hnone _ rfl
  | _ => exact hnone _ rfl

/-- A handle that was issued comes into the stock in no other way than out of it. -/
theorem mem_stock_operate {b : Broker} {op : Operation} {h : Handle} (hi : b.Issued h)
    (hh : h ∈ (b.operate op).ready ++ (b.operate op).flying) : h ∈ b.ready ++ b.flying := by
  rw [← map_handle_stored] at hh ⊢
  obtain ⟨d, hd, rfl⟩ := List.mem_map.1 hh
  rcases mem_stored_operate hd with hd | hd
  · exact List.mem_map_of_mem hd
  · exact absurd hi ((fresh_dealt b op).2 d hd).1

/-! ### Deliveries that are done with -/

/-- The handles that were settled for good. -/
def closed (b : Broker) : List Handle := b.acked ++ if b.redelivers then [] else b.nacked

theorem flying_release (b : Broker) (flight : Flight) (x : Settlement) :
    (b.release flight x).flying = b.flying.filter (· ≠ flight.delivery.handle) := by
  rw [← flying_filter]
  cases x <;> rfl

/-- A settlement that brings nothing back leaves what waits as it is. -/
theorem ready_release_of_closed {b : Broker} {flight : Flight} {x : Settlement}
    (hx : x = .ack ∨ b.redelivers = false) : (b.release flight x).ready = b.ready := by
  cases x with
  | ack => rfl
  | nack =>
    have hredelivers : b.redelivers = false := hx.resolve_left (by simp)
    rw [release, ready, hredelivers]
    rfl

/-- A settlement with no way back is the last that is heard of a delivery; with one, it is not yet
done with. -/
theorem closed_release (b : Broker) (flight : Flight) (x : Settlement) :
    ((x = .ack ∨ b.redelivers = false) ∧
      (b.release flight x).closed.Perm (flight.delivery.handle :: b.closed)) ∨
    (b.release flight x).closed = b.closed := by
  cases x with
  | ack =>
    refine Or.inl ⟨Or.inl rfl, ?_⟩
    simp only [release, closed, List.append_assoc]
    exact List.perm_middle
  | nack =>
    by_cases hredelivers : b.redelivers = true
    · exact Or.inr (by simp [release, closed, hredelivers])
    · refine Or.inl ⟨Or.inr (Bool.eq_false_of_not_eq_true hredelivers), ?_⟩
      simp only [release, closed, hredelivers, Bool.false_eq_true, if_false]
      rw [← List.append_assoc]
      exact List.perm_append_singleton _ _

/-- What becomes of the handles that are done with: at most one is added, which leaves the stock. -/
theorem closed_operate {b : Broker} (hs : b.Sound) (op : Operation) :
    (b.operate op).closed = b.closed ∨
      ∃ h ∈ b.flying, (b.operate op).closed.Perm (h :: b.closed) ∧
        h ∉ (b.operate op).ready ++ (b.operate op).flying := by
  rcases b.outcome op with ⟨x, rfl⟩ | ⟨f, now, q, d, rest, -, -, -, -, hafter⟩ |
    ⟨flight, x, -, hfind, -, hafter⟩ | ⟨-, -, -, fetches, fetchFaults, bindFaults, hafter⟩
  · refine Or.inl ?_
    rw [operate, closed, closed, acked_supply, nacked_supply, redelivers_supply]
  · exact Or.inl (by rw [hafter, handOut, closed, closed])
  · rw [hafter]
    rcases b.closed_release flight x with ⟨hfinal, hperm⟩ | hsame
    · have hmem : flight.delivery.handle ∈ b.flying :=
        List.mem_map_of_mem (f := fun flight : Flight ↦ flight.delivery.handle)
          (List.mem_of_find?_eq_some hfind)
      refine Or.inr ⟨flight.delivery.handle, hmem, hperm, fun hstock ↦ ?_⟩
      rw [ready_release_of_closed hfinal, flying_release, List.mem_append] at hstock
      rcases hstock with hready | hflying
      · exact (List.nodup_append.1 hs.once).2.2 _ hready _ hmem rfl
      · simpa using (List.mem_filter.1 hflying).2
    · exact Or.inl hsame
  · exact Or.inl (by rw [hafter, closed, closed])

/-! ### What is entered of settlements -/

/-- The handles that were settled in one of the two ways. -/
def settledBy (x : Settlement) (settled : List (Handle × Settlement)) : List Handle :=
  (settled.filter (·.2 = x)).map (·.1)

theorem settledBy_append (x : Settlement) (settled more : List (Handle × Settlement)) :
    settledBy x (settled ++ more) = settledBy x settled ++ settledBy x more := by
  rw [settledBy, List.filter_append, List.map_append, settledBy, settledBy]

/-- A settlement that succeeds is entered into the one list or the other, and nothing else is. -/
theorem entered_operate (b : Broker) (op : Operation) :
    (b.operate op).acked = b.acked ++ settledBy .ack (b.settled op) ∧
      (b.operate op).nacked = b.nacked ++ settledBy .nack (b.settled op) := by
  rcases b.outcome op with ⟨x, rfl⟩ | ⟨f, now, q, d, rest, rfl, -, -, -, hafter⟩ |
    ⟨flight, x, -, -, hsettled, hafter⟩ | ⟨-, -, hsettled, _, _, _, hafter⟩
  · rw [operate, acked_supply, nacked_supply]
    exact ⟨(List.append_nil _).symm, (List.append_nil _).symm⟩
  · rw [hafter]
    exact ⟨(List.append_nil _).symm, (List.append_nil _).symm⟩
  · rw [hafter, hsettled]
    cases x with
    | ack => exact ⟨rfl, (List.append_nil _).symm⟩
    | nack => exact ⟨(List.append_nil _).symm, rfl⟩
  · rw [hafter, hsettled]
    exact ⟨(List.append_nil _).symm, (List.append_nil _).symm⟩

/-- What is entered along a run are the settlements that have succeeded. -/
theorem entered_after (b : Broker) (ops : List Operation) :
    (b.after ops).acked = b.acked ++ settledBy .ack (along settled b ops) ∧
      (b.after ops).nacked = b.nacked ++ settledBy .nack (along settled b ops) := by
  induction ops using List.reverseRecOn with
  | nil => exact ⟨(List.append_nil _).symm, (List.append_nil _).symm⟩
  | append_singleton ops op ih =>
    obtain ⟨hacked, hnacked⟩ := entered_operate (b.after ops) op
    rw [after_concat, hacked, hnacked, ih.1, ih.2, along_concat, settledBy_append,
      settledBy_append, List.append_assoc, List.append_assoc]
    exact ⟨rfl, rfl⟩

/-- What is entered stays so, in its order. -/
theorem entered_mono (b : Broker) {earlier ops : List Operation} (h : earlier <+: ops) :
    (b.after earlier).acked <+: (b.after ops).acked ∧
      (b.after earlier).nacked <+: (b.after ops).nacked := by
  obtain ⟨later, rfl⟩ := h
  induction later using List.reverseRecOn with
  | nil =>
    rw [List.append_nil]
    exact ⟨List.prefix_rfl, List.prefix_rfl⟩
  | append_singleton later op ih =>
    obtain ⟨hacked, hnacked⟩ := entered_operate (b.after (earlier ++ later)) op
    rw [← List.append_assoc, after_concat, hacked, hnacked]
    exact ⟨ih.1.trans (List.prefix_append _ _), ih.2.trans (List.prefix_append _ _)⟩

/-- A delivery that is settled goes out of the flight, where it was once. -/
theorem count_flying_release {b : Broker} {flight : Flight} (hn : b.flying.Nodup)
    (hmem : flight ∈ b.inFlight) (x : Settlement) (h : Handle) :
    b.flying.count h =
      [flight.delivery.handle].count h + (b.release flight x).flying.count h := by
  have hflying : flight.delivery.handle ∈ b.flying :=
    List.mem_map_of_mem (f := fun flight : Flight ↦ flight.delivery.handle) hmem
  have hout : b.flying.Perm (flight.delivery.handle :: (b.release flight x).flying) := by
    rw [flying_release]
    exact perm_cons_filter_ne hn hflying
  rw [hout.count_eq, List.count_cons, List.count_singleton, Nat.add_comm]

/-! ### The tallies of a run -/

/-- What was told along a run, beside the broker that it ends with. -/
structure Tallies (b : Broker) (dealt : List Delivery) (handed : List Flight)
    (settled : List (Handle × Settlement)) : Prop where
  sound : b.Sound
  numbered : ∀ d ∈ dealt, b.Issued d.handle
  distinct : (dealt.map Delivery.handle).Nodup
  stored : ∀ d ∈ b.stored, d ∈ dealt
  out : ∀ h, (handed.map (·.delivery.handle)).count h =
    (settled.map (·.1)).count h + b.flying.count h
  last : ∀ flight ∈ b.inFlight,
    handed.reverse.find? (·.delivery.handle = flight.delivery.handle) = some flight
  acked : b.acked = settledBy .ack settled
  nacked : b.nacked = settledBy .nack settled
  closed : b.closed.Nodup
  gone : ∀ h ∈ b.closed, b.Issued h ∧ h ∉ b.ready ++ b.flying

namespace Tallies

variable {b : Broker} {dealt : List Delivery} {handed : List Flight}
  {settled : List (Handle × Settlement)}

theorem dealt_operate (t : Tallies b dealt handed settled) (op : Operation) :
    ((dealt ++ b.dealt op).map Delivery.handle).Nodup ∧
      ∀ d ∈ dealt ++ b.dealt op, (b.operate op).Issued d.handle := by
  obtain ⟨hnew, hfresh⟩ := fresh_dealt b op
  refine ⟨?_, fun d hd ↦ ?_⟩
  · rw [List.map_append]
    refine List.nodup_append.2 ⟨t.distinct, hnew, ?_⟩
    rintro h hbefore h' hnow rfl
    obtain ⟨old, hold, rfl⟩ := List.mem_map.1 hbefore
    obtain ⟨d, hd, he⟩ := List.mem_map.1 hnow
    exact (hfresh d hd).1 (he ▸ t.numbered old hold)
  · rcases List.mem_append.1 hd with hd | hd
    · exact (t.numbered d hd).mono (issued_le_operate b op)
    · exact (hfresh d hd).2

theorem closed_operate (t : Tallies b dealt handed settled) (op : Operation) :
    (b.operate op).closed.Nodup ∧ ∀ h ∈ (b.operate op).closed,
      (b.operate op).Issued h ∧ h ∉ (b.operate op).ready ++ (b.operate op).flying := by
  have hold : ∀ h ∈ b.closed,
      (b.operate op).Issued h ∧ h ∉ (b.operate op).ready ++ (b.operate op).flying := fun h hh ↦
    ⟨(t.gone h hh).1.mono (issued_le_operate b op),
      fun hstock ↦ (t.gone h hh).2 (mem_stock_operate (t.gone h hh).1 hstock)⟩
  rcases Broker.closed_operate t.sound op with hsame | ⟨h, hflying, hperm, hgone⟩
  · rw [hsame]
    exact ⟨t.closed, hold⟩
  · have hstock : h ∈ b.ready ++ b.flying := List.mem_append_right _ hflying
    refine ⟨hperm.nodup_iff.2 (List.nodup_cons.2 ⟨fun hh ↦ (t.gone h hh).2 hstock, t.closed⟩), ?_⟩
    intro x hx
    rcases List.mem_cons.1 (hperm.subset hx) with rfl | hx
    · exact ⟨(t.sound.issued x hstock).mono (issued_le_operate b op), hgone⟩
    · exact hold x hx

theorem out_operate (t : Tallies b dealt handed settled) (op : Operation) (h : Handle) :
    ((handed ++ b.handed op).map (·.delivery.handle)).count h =
      ((settled ++ b.settled op).map (·.1)).count h + (b.operate op).flying.count h := by
  have hout := t.out h
  rw [List.map_append, List.count_append, List.map_append, List.count_append]
  rcases b.outcome op with ⟨x, rfl⟩ | ⟨f, now, q, d, rest, rfl, -, -, hhanded, hafter⟩ |
    ⟨flight, x, rfl, hfind, hsettled, hafter⟩ | ⟨-, hhanded, hsettled, _, _, _, hafter⟩
  · rw [operate, flying_supply]
    exact hout
  · have hflying : (b.operate (.look f now)).flying = b.flying ++ [d.handle] := by
      rw [hafter]
      simp [handOut, flying]
    have hnone : b.settled (.look f now) = [] := rfl
    rw [hhanded, hflying, hnone, List.count_append, hout]
    exact Nat.add_assoc _ _ _
  · have hone := count_flying_release (List.nodup_append.1 t.sound.once).2.1
      (List.mem_of_find?_eq_some hfind) x h
    have hnone : b.handed (.settle flight.delivery.handle x) = [] := rfl
    rw [hnone, hsettled, hafter, hout, hone]
    exact (Nat.add_assoc _ _ _).symm
  · rw [hhanded, hsettled, hafter]
    exact hout

theorem last_operate (t : Tallies b dealt handed settled) (op : Operation) :
    ∀ flight ∈ (b.operate op).inFlight, (handed ++ b.handed op).reverse.find?
      (·.delivery.handle = flight.delivery.handle) = some flight := by
  intro other hother
  rcases b.outcome op with ⟨x, rfl⟩ | ⟨f, now, q, d, rest, -, -, -, hhanded, hafter⟩ |
    ⟨flight, x, rfl, -, -, hafter⟩ | ⟨-, hhanded, -, _, _, _, hafter⟩
  · rw [operate, inFlight_supply] at hother
    exact (List.append_nil handed).symm ▸ t.last other hother
  · -- What is handed out now is not in flight yet, so that nothing is said of it before.
    have honce := (List.nodup_append.1 (sound_operate t.sound op).once).2.1
    rw [hhanded, List.reverse_append, List.reverse_singleton, List.singleton_append,
      List.find?_cons]
    rw [hafter, handOut] at hother
    rw [hafter, handOut, flying, List.map_append, List.nodup_append] at honce
    rcases List.mem_append.1 hother with hold | hnew
    · have hne : d.handle ≠ other.delivery.handle := fun he ↦
        honce.2.2 _ (List.mem_map_of_mem hold) _ (List.mem_singleton_self _) he.symm
      simpa [hne] using t.last other hold
    · rw [List.mem_singleton.1 hnew]
      simp
  · have hnone : b.handed (.settle flight.delivery.handle x) = [] := rfl
    rw [hafter, inFlight_release] at hother
    rw [hnone, List.append_nil]
    exact t.last other (List.mem_filter.1 hother).1
  · rw [hafter] at hother
    rw [hhanded, List.append_nil]
    exact t.last other hother

/-- **What was told and what is there stay in step**, whatever is done to the broker. -/
theorem operate (t : Tallies b dealt handed settled) (op : Operation) :
    Tallies (b.operate op) (dealt ++ b.dealt op) (handed ++ b.handed op)
      (settled ++ b.settled op) := by
  obtain ⟨hdistinct, hnumbered⟩ := t.dealt_operate op
  obtain ⟨hclosed, hgone⟩ := t.closed_operate op
  obtain ⟨hacked, hnacked⟩ := entered_operate b op
  exact {
    sound := sound_operate t.sound op
    numbered := hnumbered
    distinct := hdistinct
    stored := fun d hd ↦ List.mem_append.2 ((mem_stored_operate hd).imp_left (t.stored d))
    out := t.out_operate op
    last := t.last_operate op
    acked := by rw [hacked, t.acked, settledBy_append]
    nacked := by rw [hnacked, t.nacked, settledBy_append]
    closed := hclosed
    gone := hgone }

end Tallies

/-- The tallies of a run of a broker that nobody has used before. -/
theorem tallies_after (redelivers : Bool) (ops : List Operation) :
    Tallies (after { redelivers } ops) (along Broker.dealt { redelivers } ops)
      (along Broker.handed { redelivers } ops) (along Broker.settled { redelivers } ops) := by
  induction ops using List.reverseRecOn with
  | nil =>
    exact ⟨sound_empty redelivers, by simp [along], by simp [along], by simp [after, Broker.stored],
      fun h ↦ rfl, by simp [after], rfl, rfl, by cases redelivers <;> simp [after, Broker.closed],
      by cases redelivers <;> simp [after, Broker.closed]⟩
  | append_singleton ops op ih =>
    rw [after_concat, along_concat, along_concat, along_concat]
    exact ih.operate op

/-! ### Custody -/

/-- What a broker makes of the deliveries of a run. -/
structure Custody (start : Broker) (ops : List Operation) : Prop where
  /-- No two handles that were ever issued have the same text. -/
  distinct : ((along dealt start ops).map (·.handle.text)).Nodup
  /-- A handle is in stock once, whether it waits or is in flight. -/
  once : ((start.after ops).ready ++ (start.after ops).flying).Nodup
  /-- A delivery in flight is found by its own handle. -/
  found : ∀ flight ∈ (start.after ops).inFlight,
    (start.after ops).inFlight.find? (·.delivery.handle = flight.delivery.handle) = some flight
  /-- It stands there as the last fetch that returned it had it, for the consumer of that fetch. -/
  fetched : ∀ flight ∈ (start.after ops).inFlight,
    (along handed start ops).reverse.find? (·.delivery.handle = flight.delivery.handle) =
      some flight
  /-- Each time that a delivery is returned by a fetch it is settled once, or still in flight. -/
  returned : ∀ h : Handle,
    ((along handed start ops).map (·.delivery.handle)).count h =
      ((along settled start ops).map (·.1)).count h +
        if h ∈ (start.after ops).flying then 1 else 0
  /-- The lists of what was settled are the settlements that succeeded, in their order. -/
  entered : (start.after ops).acked = settledBy .ack (along settled start ops) ∧
    (start.after ops).nacked = settledBy .nack (along settled start ops)
  /-- No delivery is acknowledged twice. -/
  acked_once : (start.after ops).acked.Nodup
  /-- What was acknowledged at any time is not in stock again. -/
  acked_gone : ∀ earlier, earlier <+: ops → ∀ h ∈ (start.after earlier).acked,
    h ∉ (start.after ops).ready ∧ h ∉ (start.after ops).flying
  /-- A broker that does not redeliver has nothing settled negatively twice, or in both ways. -/
  nacked_once : start.redelivers = false → (start.after ops).nacked.Nodup ∧
    (start.after ops).acked.Disjoint (start.after ops).nacked
  /-- With such a broker what was settled negatively at any time is not in stock again. -/
  nacked_gone : start.redelivers = false → ∀ earlier, earlier <+: ops →
    ∀ h ∈ (start.after earlier).nacked, h ∉ (start.after ops).ready ∧ h ∉ (start.after ops).flying
  /-- Whatever is in stock was issued by a publication, with its message and its time. -/
  content : ∀ d ∈ (start.after ops).stored, d ∈ along dealt start ops ∧
    ∀ issued ∈ along dealt start ops, issued.handle = d.handle →
      d.message = issued.message ∧ d.enqueuedAt = issued.enqueuedAt

/-- A delivery stands in a list of flights without repetition where its handle leads. -/
theorem find?_of_mem_inFlight {b : Broker} (hn : b.flying.Nodup) {flight : Flight}
    (hmem : flight ∈ b.inFlight) :
    b.inFlight.find? (·.delivery.handle = flight.delivery.handle) = some flight := by
  obtain ⟨before, after, hsplit⟩ := List.append_of_mem hmem
  rw [flying, hsplit, List.map_append, List.nodup_append] at hn
  refine List.find?_eq_some_iff_append.2 ⟨by simp, before, after, hsplit, fun other hother ↦ ?_⟩
  have hne := hn.2.2 _ (List.mem_map_of_mem hother) flight.delivery.handle (by simp)
  simpa using hne

/-- **A broker keeps its deliveries apart and accounts for each of them**, whatever is done to it
and in whatever order: consumers are declared and declared again, messages published, deliveries
fetched and settled, faults planted. -/
theorem custody (redelivers : Bool) (ops : List Operation) : Custody { redelivers } ops := by
  have t := tallies_after redelivers ops
  have hredelivers := redelivers_after { redelivers } ops
  have hflying := (List.nodup_append.1 t.sound.once).2.1
  obtain ⟨hacked, hnacked, hdisjoint⟩ := List.nodup_append.1 t.closed
  have hgone : ∀ h ∈ (after { redelivers } ops).closed,
      h ∉ (after { redelivers } ops).ready ∧ h ∉ (after { redelivers } ops).flying := fun h hh ↦ by
    simpa only [List.mem_append, not_or] using (t.gone h hh).2
  exact {
    distinct := by
      have htexts := t.distinct.map (f := Handle.text) fun h h' he ↦ congrArg Handle.mk he
      rwa [List.map_map] at htexts
    once := t.sound.once
    found := fun flight hmem ↦ find?_of_mem_inFlight hflying hmem
    fetched := t.last
    returned := fun h ↦ by
      rw [t.out h]
      split
      · next hmem => rw [List.count_eq_one_of_mem hflying hmem]
      · next hmem => rw [List.count_eq_zero_of_not_mem hmem]
    entered := ⟨t.acked, t.nacked⟩
    acked_once := hacked
    acked_gone := fun earlier hearlier h hh ↦
      hgone h (List.mem_append_left _ ((entered_mono { redelivers } hearlier).1.subset hh))
    nacked_once := fun hdrops ↦ by
      rw [hredelivers.trans hdrops] at hnacked hdisjoint
      exact ⟨hnacked, fun h hh hh' ↦ hdisjoint h hh h hh' rfl⟩
    nacked_gone := fun hdrops earlier hearlier h hh ↦ by
      refine hgone h (List.mem_append_right _ ?_)
      rw [hredelivers.trans hdrops]
      exact (entered_mono { redelivers } hearlier).2.subset hh
    content := fun d hd ↦ by
      refine ⟨t.stored d hd, fun issued hissued hhandle ↦ ?_⟩
      rw [List.inj_on_of_nodup_map t.distinct hissued (t.stored d hd) hhandle]
      exact ⟨rfl, rfl⟩ }

end PullConsumer.Broker
