import Mathlib.Data.List.Nodup
import Mathlib.Data.List.Perm.Basic
import Mathlib.Data.String.Basic
import PullConsumer.Broker

/-!
# The stock of a broker

Every delivery that a broker still answers for either waits in a queue or is in flight. This module
follows the handles of both kinds through the operations of the broker: what an operation does to
those that wait (`ready`) and to those in flight (`flying`) is one law for each operation, and from
these laws the invariant `Sound` is kept: no handle stands in the stock twice, and each bears a
number that was issued.

Two facts carry the invariant. A handle ends in its number, so handles with different numbers are
different whatever the names of their consumers are (`Handle.ofNumber_inj`). And consumers stand in
the order of their routes, which is what makes `setQueue` find a consumer that is there already.
-/

namespace PullConsumer

/-! ### Numbers of handles -/

namespace Handle

/-- What stands after the last point. -/
private def afterLastPoint (l : List Char) : List Char := (l.reverse.takeWhile (· ≠ '.')).reverse

/-- A name may contain points, but no digit is one, so the last point of a handle stands right
before its number. -/
private theorem afterLastPoint_digits (a : List Char) (n : Nat) :
    afterLastPoint (a ++ '.' :: Nat.toDigits 10 n) = Nat.toDigits 10 n := by
  have hdigits : ∀ x ∈ (Nat.toDigits 10 n).reverse, decide (x ≠ '.') = true := by
    intro x hx
    have hdigit := Nat.isDigit_of_mem_toDigits (by omega) (by omega) (List.mem_reverse.1 hx)
    rw [decide_eq_true_iff]
    rintro rfl
    exact absurd hdigit (by decide)
  rw [afterLastPoint, List.reverse_append, List.reverse_cons, List.append_assoc,
    List.takeWhile_append_of_pos hdigits]
  simp

private theorem toList_text_ofNumber (c : ConsumerId) (n : Nat) :
    (ofNumber c n).text.toList = c.route.toList ++ '.' :: Nat.toDigits 10 n := by
  simp [ofNumber, String.toList_append]

/-- **The number of a handle can be read off its text.** -/
theorem ofNumber_inj {c c' : ConsumerId} {n n' : Nat} (h : ofNumber c n = ofNumber c' n') :
    n = n' := by
  have htext := congrArg (fun h : Handle ↦ afterLastPoint h.text.toList) h
  simp only [toList_text_ofNumber, afterLastPoint_digits] at htext
  have hvalue := congrArg (Nat.ofDigitChars 10 · 0) htext
  simpa using hvalue

end Handle

namespace Broker

/-! ### What is in stock -/

/-- The deliveries that wait in the queues, by handle. -/
def ready (b : Broker) : List Handle :=
  b.queues.flatMap fun entry ↦ entry.2.ready.map Delivery.handle

/-- The deliveries in flight, by handle. -/
def flying (b : Broker) : List Handle := b.inFlight.map (·.delivery.handle)

/-- A handle bears a number that was issued. -/
def Issued (b : Broker) (h : Handle) : Prop :=
  ∃ c n, h = Handle.ofNumber c n ∧ n ≤ b.issued

/-- Consumers are there once, in the order of their routes; deliveries are in stock once, and their
numbers were issued. -/
structure Sound (b : Broker) : Prop where
  sorted : b.queues.Pairwise fun x y ↦ ¬ y.1.route < x.1.route
  consumers : (b.queues.map (·.1)).Nodup
  once : (b.ready ++ b.flying).Nodup
  issued : ∀ h ∈ b.ready ++ b.flying, b.Issued h

/-! ### Queues -/

theorem changeQueue_of_notMem {queues : List (ConsumerId × Queue)} {c : ConsumerId}
    (h : c ∉ queues.map (·.1)) (f : Queue → Queue) : changeQueue c f queues = queues := by
  refine (List.map_congr_left fun entry hentry ↦ ?_).trans (List.map_id queues)
  have hne : entry.1 ≠ c := fun he ↦ h (List.mem_map.2 ⟨entry, hentry, he⟩)
  simp [hne]

/-- A queue that is found stands at one place, and `changeQueue` changes it there and nowhere
else. -/
theorem exists_split_of_lookup {queues : List (ConsumerId × Queue)} {c : ConsumerId} {q : Queue}
    (hn : (queues.map (·.1)).Nodup) (h : queues.lookup c = some q) :
    ∃ before after, queues = before ++ (c, q) :: after ∧
      ∀ f, changeQueue c f queues = before ++ (c, f q) :: after := by
  obtain ⟨before, after, rfl, -⟩ := List.lookup_eq_some_iff.1 h
  rw [List.map_append, List.map_cons, List.nodup_append] at hn
  obtain ⟨-, hafter, hbefore⟩ := hn
  rw [List.nodup_cons] at hafter
  refine ⟨before, after, rfl, fun f ↦ ?_⟩
  -- Consumers are there once, so that nothing on either side bears this name.
  have hb : c ∉ before.map (·.1) := fun hc ↦ hbefore c hc c (by simp) rfl
  have hsplit : changeQueue c f (before ++ (c, q) :: after) =
      changeQueue c f before ++ (c, f q) :: changeQueue c f after := by
    simp [changeQueue]
  rw [hsplit, changeQueue_of_notMem hb, changeQueue_of_notMem hafter.1]

theorem map_fst_changeQueue (c : ConsumerId) (f : Queue → Queue)
    (queues : List (ConsumerId × Queue)) :
    (changeQueue c f queues).map (·.1) = queues.map (·.1) := by
  rw [changeQueue, List.map_map]
  refine List.map_congr_left fun entry _ ↦ ?_
  by_cases h : entry.1 = c <;> simp [h]

/-- A change of one queue leaves the deliveries of all others where they are. -/
theorem ready_changeQueue {b : Broker} {c : ConsumerId} {q : Queue} (f : Queue → Queue)
    (hn : (b.queues.map (·.1)).Nodup) (hq : b.queue? c = some q) :
    ∃ others, b.ready.Perm (q.ready.map Delivery.handle ++ others) ∧
      (ready { b with queues := changeQueue c f b.queues }).Perm
        ((f q).ready.map Delivery.handle ++ others) := by
  obtain ⟨before, after, hqueues, hchange⟩ := exists_split_of_lookup hn hq
  set handles := fun entry : ConsumerId × Queue ↦ entry.2.ready.map Delivery.handle
  refine ⟨before.flatMap handles ++ after.flatMap handles, ?_, ?_⟩
  · have hready : b.ready = before.flatMap handles ++
        (q.ready.map Delivery.handle ++ after.flatMap handles) := by
      simp [ready, hqueues, handles]
    rw [hready]
    exact List.perm_append_comm_assoc _ _ _
  · have hready : ready { b with queues := changeQueue c f b.queues } =
        before.flatMap handles ++ ((f q).ready.map Delivery.handle ++ after.flatMap handles) := by
      simp [ready, hchange, handles]
    rw [hready]
    exact List.perm_append_comm_assoc _ _ _

/-- The order of the consumers is a matter of their names alone. -/
theorem sorted_congr {queues queues' : List (ConsumerId × Queue)}
    (hkeys : queues'.map (·.1) = queues.map (·.1))
    (h : queues.Pairwise fun x y ↦ ¬ y.1.route < x.1.route) :
    queues'.Pairwise fun x y ↦ ¬ y.1.route < x.1.route := by
  rw [← List.pairwise_map (f := Prod.fst) (R := fun c c' : ConsumerId ↦ ¬ c'.route < c.route)]
    at h ⊢
  rwa [hkeys]

/-- Consumers stay as they are, and what is in stock was so before. -/
theorem Sound.of_stock {b b' : Broker} (hs : b.Sound)
    (hkeys : b'.queues.map (·.1) = b.queues.map (·.1)) (hissued : b.issued ≤ b'.issued)
    (honce : (b'.ready ++ b'.flying).Nodup)
    (hstock : ∀ h ∈ b'.ready ++ b'.flying, h ∈ b.ready ++ b.flying) : b'.Sound where
  sorted := sorted_congr hkeys hs.sorted
  consumers := hkeys ▸ hs.consumers
  once := honce
  issued h hh := by
    obtain ⟨c, n, rfl, hn⟩ := hs.issued h (hstock h hh)
    exact ⟨c, n, rfl, by omega⟩

theorem mem_setQueue {queues : List (ConsumerId × Queue)} {c : ConsumerId} {q : Queue}
    {entry : ConsumerId × Queue} (h : entry ∈ setQueue c q queues) :
    entry = (c, q) ∨ entry ∈ queues := by
  fun_induction setQueue c q queues with
  | case1 => simpa using h
  | case2 old rest =>
    rcases List.mem_cons.1 h with h | h
    · exact Or.inl h
    · exact Or.inr (List.mem_cons_of_mem _ h)
  | case3 k old rest hk hlt => exact List.mem_cons.1 h
  | case4 k old rest hk hlt ih =>
    rcases List.mem_cons.1 h with h | h
    · exact Or.inr (h ▸ List.mem_cons_self)
    · exact (ih h).imp_right (List.mem_cons_of_mem _)

/-- A queue that is set stands where its route asks for it. -/
theorem sorted_setQueue {queues : List (ConsumerId × Queue)} (c : ConsumerId) (q : Queue)
    (h : queues.Pairwise fun x y ↦ ¬ y.1.route < x.1.route) :
    (setQueue c q queues).Pairwise fun x y ↦ ¬ y.1.route < x.1.route := by
  fun_induction setQueue c q queues with
  | case1 => exact List.pairwise_singleton _ _
  | case2 old rest =>
    exact List.pairwise_cons.2 (List.pairwise_cons.1 h)
  | case3 k old rest hk hlt =>
    refine List.pairwise_cons.2 ⟨fun entry hentry ↦ ?_, h⟩
    rcases List.mem_cons.1 hentry with rfl | hentry
    · exact lt_asymm hlt
    · exact fun hlow ↦ (List.pairwise_cons.1 h).1 entry hentry (lt_trans hlow hlt)
  | case4 k old rest hk hlt ih =>
    rw [List.pairwise_cons] at h
    refine List.pairwise_cons.2 ⟨fun entry hentry ↦ ?_, ih h.2⟩
    rcases mem_setQueue hentry with rfl | hentry
    · exact hlt
    · exact h.1 entry hentry

/-- A consumer is never there twice. It is here that the order of the routes is needed: a queue is
put in front of a later route only if the consumer cannot come after it. -/
theorem nodup_setQueue {queues : List (ConsumerId × Queue)} (c : ConsumerId) (q : Queue)
    (hs : queues.Pairwise fun x y ↦ ¬ y.1.route < x.1.route) (h : (queues.map (·.1)).Nodup) :
    ((setQueue c q queues).map (·.1)).Nodup := by
  fun_induction setQueue c q queues with
  | case1 => simp
  | case2 old rest =>
    exact h
  | case3 k old rest hk hlt =>
    refine List.nodup_cons.2 ⟨fun hc ↦ ?_, h⟩
    rcases List.mem_cons.1 hc with hc | hc
    · exact hk hc.symm
    · obtain ⟨entry, hentry, rfl⟩ := List.mem_map.1 hc
      exact (List.pairwise_cons.1 hs).1 entry hentry hlt
  | case4 k old rest hk hlt ih =>
    rw [List.map_cons, List.nodup_cons] at h
    refine List.nodup_cons.2 ⟨fun hc ↦ ?_, ih (List.pairwise_cons.1 hs).2 h.2⟩
    obtain ⟨entry, hentry, he⟩ := List.mem_map.1 hc
    rcases mem_setQueue hentry with rfl | hentry
    · exact hk he.symm
    · exact h.1 (List.mem_map.2 ⟨entry, hentry, he⟩)

/-! ### Operations -/

/-- Declaring a consumer again forgets what waited for it, and nothing else. -/
theorem ready_declare (b : Broker) (c : ConsumerId) (filter : String) :
    (b.declare c filter).ready.Sublist b.ready := by
  have key : ∀ queues : List (ConsumerId × Queue),
      ((setQueue c { filter } queues).flatMap fun entry ↦
        entry.2.ready.map Delivery.handle).Sublist
      (queues.flatMap fun entry ↦ entry.2.ready.map Delivery.handle) := by
    intro queues
    fun_induction setQueue c { filter } queues with
    | case1 => exact List.Sublist.refl _
    | case2 old rest =>
      simp only [List.flatMap_cons, List.map_nil, List.nil_append]
      exact List.sublist_append_right _ _
    | case3 k old rest hk hlt => exact List.Sublist.refl _
    | case4 k old rest hk hlt ih =>
      simp only [List.flatMap_cons]
      exact List.Sublist.append (List.Sublist.refl _) ih
  exact key b.queues

theorem sound_declare {b : Broker} (h : b.Sound) (c : ConsumerId) (filter : String) :
    (b.declare c filter).Sound := by
  have hstock : ((b.declare c filter).ready ++ b.flying).Sublist (b.ready ++ b.flying) :=
    List.Sublist.append (ready_declare b c filter) (List.Sublist.refl _)
  exact {
    sorted := sorted_setQueue c _ h.sorted
    consumers := nodup_setQueue c _ h.sorted h.consumers
    once := h.once.sublist hstock
    issued := fun x hx ↦ h.issued x (hstock.subset hx) }

/-- The handles that are dealt out bear the next numbers. -/
theorem numbered_deal {m : Message} {stamp : Int} {issued : Nat}
    {queues : List (ConsumerId × Queue)} {h : Handle}
    (hh : h ∈ (deal m stamp issued queues).2) :
    ∃ c n, h = Handle.ofNumber c n ∧ issued < n ∧
      n ≤ issued + (deal m stamp issued queues).2.length := by
  induction queues generalizing issued with
  | nil => simp [deal] at hh
  | cons entry rest ih =>
    obtain ⟨c, q⟩ := entry
    by_cases hsel : Subject.isSelected q.filter m.subject
    · simp only [deal, hsel, if_true, List.mem_cons, List.length_cons] at hh ⊢
      rcases hh with rfl | hh
      · exact ⟨c, issued + 1, rfl, by omega, by omega⟩
      · obtain ⟨c', n, rfl, hlow, hhigh⟩ := ih hh
        exact ⟨c', n, rfl, by omega, by omega⟩
    · simp only [deal, hsel] at hh ⊢
      exact ih hh

theorem nodup_deal (m : Message) (stamp : Int) (issued : Nat)
    (queues : List (ConsumerId × Queue)) : (deal m stamp issued queues).2.Nodup := by
  induction queues generalizing issued with
  | nil => exact List.nodup_nil
  | cons entry rest ih =>
    obtain ⟨c, q⟩ := entry
    by_cases hsel : Subject.isSelected q.filter m.subject
    · simp only [deal, hsel, if_true, List.nodup_cons]
      refine ⟨fun hmem ↦ ?_, ih (issued + 1)⟩
      -- All that is dealt out later bears a higher number.
      obtain ⟨c', n, he, hlow, -⟩ := numbered_deal hmem
      have := Handle.ofNumber_inj he
      omega
    · simp only [deal, hsel]
      exact ih issued

theorem map_fst_deal (m : Message) (stamp : Int) (issued : Nat)
    (queues : List (ConsumerId × Queue)) :
    (deal m stamp issued queues).1.map (·.1) = queues.map (·.1) := by
  induction queues generalizing issued with
  | nil => rfl
  | cons entry rest ih =>
    obtain ⟨c, q⟩ := entry
    by_cases hsel : Subject.isSelected q.filter m.subject <;> simp [deal, hsel, ih]

theorem perm_deal (m : Message) (stamp : Int) (issued : Nat)
    (queues : List (ConsumerId × Queue)) :
    ((deal m stamp issued queues).1.flatMap fun entry ↦ entry.2.ready.map Delivery.handle).Perm
      ((queues.flatMap fun entry ↦ entry.2.ready.map Delivery.handle) ++
        (deal m stamp issued queues).2) := by
  induction queues generalizing issued with
  | nil => exact List.Perm.refl _
  | cons entry rest ih =>
    obtain ⟨c, q⟩ := entry
    by_cases hsel : Subject.isSelected q.filter m.subject
    · simp only [deal, hsel, if_true, List.flatMap_cons, Queue.push, List.map_append,
        List.map_cons, List.map_nil, List.append_assoc]
      refine List.Perm.append_left _ ?_
      exact ((ih (issued + 1)).cons _).trans List.perm_middle.symm
    · simp only [deal, hsel, List.flatMap_cons, List.append_assoc]
      exact (ih issued).append_left _

/-- What is published waits; nothing else comes or goes. -/
theorem ready_publish (b : Broker) (m : Message) (stamp : Int) :
    (b.publish m stamp).2.ready.Perm (b.ready ++ (b.publish m stamp).1) :=
  perm_deal m stamp b.issued b.queues

theorem Issued.mono {b b' : Broker} (hle : b.issued ≤ b'.issued) {h : Handle}
    (hi : b.Issued h) : b'.Issued h := by
  obtain ⟨c, n, rfl, hn⟩ := hi
  exact ⟨c, n, rfl, by omega⟩

theorem issued_le_publish (b : Broker) (m : Message) (stamp : Int) :
    b.issued ≤ (b.publish m stamp).2.issued :=
  Nat.le_add_right _ _

/-- A handle that is published was not issued before. -/
theorem not_issued_of_publish {b : Broker} {m : Message} {stamp : Int} {h : Handle}
    (hh : h ∈ (b.publish m stamp).1) : ¬ b.Issued h ∧ (b.publish m stamp).2.Issued h := by
  obtain ⟨c, n, rfl, hlow, hhigh⟩ := numbered_deal hh
  refine ⟨fun hissued ↦ ?_, ⟨c, n, rfl, hhigh⟩⟩
  obtain ⟨c', n', he, hn'⟩ := hissued
  have := Handle.ofNumber_inj he
  omega

theorem sound_publish {b : Broker} (h : b.Sound) (m : Message) (stamp : Int) :
    (b.publish m stamp).2.Sound := by
  have hkeys : (b.publish m stamp).2.queues.map (·.1) = b.queues.map (·.1) := map_fst_deal ..
  have hperm : ((b.publish m stamp).2.ready ++ b.flying).Perm
      ((b.ready ++ b.flying) ++ (b.publish m stamp).1) :=
    ((ready_publish b m stamp).append_right _).trans (by
      simpa only [List.append_assoc] using (List.perm_append_comm).append_left b.ready)
  refine {
    sorted := sorted_congr hkeys h.sorted
    consumers := hkeys ▸ h.consumers
    once := ?_
    issued := fun x hx ↦ ?_ }
  · refine hperm.nodup_iff.2 (List.nodup_append.2 ⟨h.once, nodup_deal .., ?_⟩)
    rintro x hx y hy rfl
    exact (not_issued_of_publish hy).1 (h.issued x hx)
  · rcases List.mem_append.1 (hperm.subset hx) with hold | hnew
    · exact (h.issued x hold).mono (issued_le_publish b m stamp)
    · exact (not_issued_of_publish hnew).2

/-- To bind takes a planted fault away and nothing else. -/
theorem bind_eq (b : Broker) (x : Binding) :
    ∃ bindFaults, (b.bind x).2 = { b with bindFaults } := by
  rw [bind]
  split
  · exact ⟨_, rfl⟩
  · exact ⟨b.bindFaults, rfl⟩

/-- To begin a fetch is to count it and to take a planted fault away. -/
theorem beginFetch_eq (b : Broker) :
    ∃ fetchFaults, b.beginFetch.2 = { b with fetches := b.fetches + 1, fetchFaults } := by
  rw [beginFetch]
  split
  · exact ⟨_, rfl⟩
  · exact ⟨b.fetchFaults, rfl⟩

/-- A delivery that is taken waited before and is in flight afterwards. -/
theorem take?_eq_some {b b' : Broker} {c : ConsumerId} {d : Delivery}
    (hn : (b.queues.map (·.1)).Nodup) (h : b.take? c = .ok (some (d, b'))) :
    ∃ queues, b' = { b with queues, inFlight := b.inFlight ++ [⟨c, d⟩] } ∧
      queues.map (·.1) = b.queues.map (·.1) ∧ b.ready.Perm (d.handle :: b'.ready) := by
  rw [take?] at h
  split at h
  · exact absurd h (by simp)
  · next q hq =>
    split at h
    · exact absurd h (by simp)
    · next d' rest hrest =>
      obtain ⟨rfl, rfl⟩ : d' = d ∧ _ = b' := by simpa using h
      refine ⟨_, rfl, map_fst_changeQueue .., ?_⟩
      obtain ⟨others, hbefore, hafter⟩ :=
        ready_changeQueue (fun q ↦ { q with ready := rest }) hn hq
      rw [hrest] at hbefore
      exact hbefore.trans (hafter.symm.cons _)

/-- To take a delivery changes the queues and what is in flight, and nothing else. -/
theorem exists_queues_of_take? {b b' : Broker} {c : ConsumerId} {d : Delivery}
    (h : b.take? c = .ok (some (d, b'))) :
    ∃ queues, b' = { b with queues, inFlight := b.inFlight ++ [⟨c, d⟩] } := by
  rw [take?] at h
  split at h
  · exact absurd h (by simp)
  · split at h
    · exact absurd h (by simp)
    · obtain ⟨rfl, rfl⟩ : _ = d ∧ _ = b' := by simpa using h
      exact ⟨_, rfl⟩

theorem sound_take? {b b' : Broker} {c : ConsumerId} {d : Delivery} (hs : b.Sound)
    (h : b.take? c = .ok (some (d, b'))) : b'.Sound := by
  obtain ⟨queues, hb', hkeys, hready⟩ := take?_eq_some hs.consumers h
  have hflying : b'.flying = b.flying ++ [d.handle] := by simp [hb', flying]
  have hperm : (b.ready ++ b.flying).Perm (b'.ready ++ b'.flying) := by
    rw [hflying, ← List.append_assoc]
    exact (hready.append_right _).trans (List.perm_append_singleton _ _).symm
  refine hs.of_stock ?_ ?_ (hperm.nodup_iff.1 hs.once) fun x hx ↦ hperm.symm.subset hx
  · rw [hb']
    exact hkeys
  · rw [hb']

/-- A settlement that fails changes nothing. -/
theorem broker_settle_of_error {b : Broker} {h : Handle} {x : Settlement} {cause : BrokerError}
    (hr : (b.settle h x).result = .error cause) : (b.settle h x).broker = b := by
  rw [settle] at hr ⊢
  split
  · rfl
  · split
    · rfl
    · next hfault _ flight hfind =>
      rw [hfault, hfind] at hr
      cases x
      · exact absurd hr (by simp)
      · simp only at hr
        split at hr <;> exact absurd hr (by simp)

private theorem mem_flying_of_find? {b : Broker} {h : Handle} {flight : Flight}
    (hf : b.inFlight.find? (·.delivery.handle = h) = some flight) : h ∈ b.flying := by
  have hhandle : flight.delivery.handle = h := by simpa using List.find?_some hf
  exact List.mem_map.2 ⟨flight, List.mem_of_find?_eq_some hf, hhandle⟩

/-- A positive settlement that succeeds takes a delivery in flight out of the stock. -/
theorem settle_ack {b : Broker} {h : Handle} (hr : (b.settle h .ack).result = .ok ()) :
    h ∈ b.flying ∧ (b.settle h .ack).broker = { b with
      inFlight := b.inFlight.filter (·.delivery.handle ≠ h), acked := b.acked ++ [h] } := by
  rw [settle] at hr ⊢
  split
  · next hfault => exact absurd hr (by simp [hfault])
  · next hfault =>
    split
    · next hfind => exact absurd hr (by simp [hfault, hfind])
    · next flight hfind => exact ⟨mem_flying_of_find? hfind, rfl⟩

/-- A negative settlement that succeeds takes a delivery out of the flight. It waits again if the
broker redelivers and its consumer is there. -/
theorem settle_nack {b : Broker} {h : Handle} (hn : (b.queues.map (·.1)).Nodup)
    (hr : (b.settle h .nack).result = .ok ()) :
    h ∈ b.flying ∧ ∃ queues back, (b.settle h .nack).broker = { b with
      inFlight := b.inFlight.filter (·.delivery.handle ≠ h), nacked := b.nacked ++ [h], queues } ∧
      queues.map (·.1) = b.queues.map (·.1) ∧
      (b.settle h .nack).broker.ready.Perm (back ++ b.ready) ∧
      (back = [] ∨ back = [h] ∧ b.redelivers = true) := by
  rw [settle] at hr ⊢
  split
  · next hfault => exact absurd hr (by simp [hfault])
  · next hfault =>
    split
    · next hfind => exact absurd hr (by simp [hfault, hfind])
    · next flight hfind =>
      refine ⟨mem_flying_of_find? hfind, ?_⟩
      have hhandle : flight.delivery.handle = h := by simpa using List.find?_some hfind
      simp only
      split
      · next hback =>
        simp only [Bool.and_eq_true, queue?, Option.isSome_iff_exists] at hback
        obtain ⟨hredelivers, q, hq⟩ := hback
        obtain ⟨others, hbefore, hafter⟩ :=
          ready_changeQueue (Queue.push · flight.delivery) hn hq
        refine ⟨_, [h], rfl, map_fst_changeQueue .., ?_, Or.inr ⟨rfl, hredelivers⟩⟩
        refine hafter.trans (List.Perm.trans ?_ (hbefore.symm.cons h))
        rw [Queue.push, List.map_append, List.map_singleton, hhandle, List.append_assoc]
        exact List.perm_middle
      · exact ⟨b.queues, [], rfl, rfl, List.Perm.refl _, Or.inl rfl⟩

/-- A settlement that succeeds is entered into one of the two lists. -/
theorem settled_settle {b : Broker} {h : Handle} {x : Settlement}
    (hr : (b.settle h x).result = .ok ()) :
    (b.settle h x).broker.acked = (if x = .ack then b.acked ++ [h] else b.acked) ∧
      (b.settle h x).broker.nacked = if x = .nack then b.nacked ++ [h] else b.nacked := by
  rw [settle] at hr ⊢
  split
  · next hfault => exact absurd hr (by simp [hfault])
  · next hfault =>
    split
    · next hfind => exact absurd hr (by simp [hfault, hfind])
    · cases x with
      | ack => exact ⟨rfl, rfl⟩
      | nack =>
        simp only
        split <;> exact ⟨rfl, rfl⟩

theorem redelivers_settle (b : Broker) (h : Handle) (x : Settlement) :
    (b.settle h x).broker.redelivers = b.redelivers := by
  rw [settle]
  split
  · rfl
  · split
    · rfl
    · cases x with
      | ack => rfl
      | nack =>
        simp only
        split <;> rfl

theorem flying_filter (b : Broker) (h : Handle) :
    (b.inFlight.filter (·.delivery.handle ≠ h)).map (·.delivery.handle) =
      b.flying.filter (· ≠ h) := by
  rw [flying, List.filter_map]
  rfl

/-- What a settlement that succeeds does to the stock: a delivery goes out of the flight, and if it
was settled negatively it may wait again. -/
theorem stock_settle {b : Broker} {h : Handle} {x : Settlement} (hn : (b.queues.map (·.1)).Nodup)
    (hr : (b.settle h x).result = .ok ()) :
    h ∈ b.flying ∧ (b.settle h x).broker.flying = b.flying.filter (· ≠ h) ∧
      (b.settle h x).broker.queues.map (·.1) = b.queues.map (·.1) ∧
      (b.settle h x).broker.issued = b.issued ∧
      (b.settle h x).broker.redelivers = b.redelivers ∧
      ∃ back, (b.settle h x).broker.ready.Perm (back ++ b.ready) ∧
        (back = [] ∨ back = [h] ∧ x = .nack ∧ b.redelivers = true) := by
  cases x with
  | ack =>
    obtain ⟨hmem, hb⟩ := settle_ack hr
    rw [hb]
    exact ⟨hmem, flying_filter b h, rfl, rfl, rfl, [], List.Perm.refl _, Or.inl rfl⟩
  | nack =>
    obtain ⟨hmem, queues, back, hb, hkeys, hready, hback⟩ := settle_nack hn hr
    refine ⟨hmem, ?_, by rw [hb]; exact hkeys, by rw [hb], by rw [hb], back, hready, ?_⟩
    · rw [hb]
      exact flying_filter b h
    · exact hback.imp_right fun hreturned ↦ ⟨hreturned.1, rfl, hreturned.2⟩

/-- What stands in a list once is taken out of it as one entry. -/
theorem perm_cons_filter_ne {l : List Handle} {h : Handle} (hn : l.Nodup) (hmem : h ∈ l) :
    l.Perm (h :: l.filter (· ≠ h)) := by
  have hout := List.perm_cons_erase hmem
  rw [hn.erase_eq_filter] at hout
  exact hout.trans (List.Perm.of_eq (congrArg (h :: ·) (List.filter_congr fun x _ ↦ by
    rw [bne, beq_eq_decide, decide_not])))

theorem sound_settle {b : Broker} (hs : b.Sound) (h : Handle) (x : Settlement) :
    (b.settle h x).broker.Sound := by
  rcases hr : (b.settle h x).result with cause | ⟨⟩
  · rw [broker_settle_of_error hr]
    exact hs
  obtain ⟨hmem, hflying, hkeys, hissued, -, back, hready, hback⟩ := stock_settle hs.consumers hr
  obtain ⟨hnodup, hnodup', hdisjoint⟩ := List.nodup_append.1 hs.once
  have hout := perm_cons_filter_ne hnodup' hmem
  have hstock : ((b.settle h x).broker.ready ++ (b.settle h x).broker.flying).Perm
      (b.ready ++ (back ++ b.flying.filter (· ≠ h))) := by
    rw [hflying]
    exact (hready.append_right _).trans (by
      rw [List.append_assoc]
      exact List.perm_append_comm_assoc _ _ _)
  -- What comes back was taken out of the flight in the same step.
  have hsub : (back ++ b.flying.filter (· ≠ h)).Nodup ∧
      ∀ x ∈ back ++ b.flying.filter (· ≠ h), x ∈ b.flying := by
    rcases hback with rfl | ⟨rfl, -⟩
    · exact ⟨hnodup'.filter _, fun x hx ↦ (List.mem_filter.1 hx).1⟩
    · exact ⟨hout.nodup_iff.1 hnodup', fun x hx ↦ hout.symm.subset hx⟩
  refine hs.of_stock hkeys hissued.ge (hstock.nodup_iff.2 ?_) fun x hx ↦ ?_
  · exact List.nodup_append.2 ⟨hnodup, hsub.1, fun x hx y hy ↦ hdisjoint x hx y (hsub.2 y hy)⟩
  · rcases List.mem_append.1 (hstock.subset hx) with hx | hx
    · exact List.mem_append_left _ hx
    · exact List.mem_append_right _ (hsub.2 x hx)

end Broker

end PullConsumer
