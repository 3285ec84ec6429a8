import PullConsumer.Proofs.Broker.Lines

/-!
# Filters and what comes past them

A filter is asked when a message is published, and never again. A delivery gets into a queue in one
other way: it was fetched from there and is settled negatively. Since its declaration a consumer has
one filter, so that what is published and what comes back of it has been selected by that filter. But
a consumer may be declared again, with another filter, while some of its deliveries are in flight.
The declaration forgets what waits and not what is in flight, and when a delivery of the old filter
comes back it goes into the queue of the new one (`Stray`).

So a fetch returns what the filter of the moment selects, or a stray (`selected_or_stray`), and
strays there are (`not_always_selected`).
-/

namespace PullConsumer.Broker

/-! ### How a delivery comes to a consumer -/

/-- What waits after a use waited before it or was entered by it. -/
theorem mem_of_line {handed waits waited new : List Delivery} {d : Delivery}
    (hline : handed ++ waits = waited ++ new) (hd : d ∈ waits) : d ∈ waited ∨ d ∈ new :=
  List.mem_append.1 (hline ▸ List.mem_append_right _ hd)

/-- A delivery that is entered for a consumer is selected by its filter or was fetched for it. -/
theorem of_mem_entered {b : Broker} {c : ConsumerId} {filter : String} {op : Operation}
    {d : Delivery} (h : d ∈ entered c filter b op) :
    Subject.isSelected filter d.message.subject = true ∨
      b.redelivers = true ∧ ⟨c, d⟩ ∈ b.inFlight ∧ (d.handle, .nack) ∈ b.settled op := by
  cases op with
  | supply x =>
    cases x with
    | publish m stamp =>
      rw [entered] at h
      split at h
      · next hsel =>
        rw [List.mem_singleton.1 h]
        exact Or.inl hsel
      · exact absurd h List.not_mem_nil
    | _ => exact absurd h List.not_mem_nil
  | settle handle x =>
    cases x with
    | ack => exact absurd h List.not_mem_nil
    | nack =>
      rcases b.settle_cases handle .nack with ⟨flight, rfl, hfind, hresult, -⟩ | ⟨⟨cause, hr⟩, -⟩
      · simp only [entered, hresult, hfind] at h
        split at h
        · next hback =>
          obtain ⟨hredelivers, rfl⟩ := hback
          obtain rfl := List.mem_singleton.1 h
          refine Or.inr ⟨hredelivers, List.mem_of_find?_eq_some hfind, ?_⟩
          rw [settled, hresult]
          exact List.mem_singleton_self _
        · exact absurd h List.not_mem_nil
      · simp only [entered, hr] at h
        exact absurd h List.not_mem_nil
  | _ => exact absurd h List.not_mem_nil

/-- A delivery in flight was so before, or waited for the consumer that it was fetched for. -/
theorem mem_inFlight_operate {b : Broker} {op : Operation} {flight : Flight}
    (h : flight ∈ (b.operate op).inFlight) : flight ∈ b.inFlight ∨
      ∃ q, b.queue? flight.consumer = some q ∧ flight.delivery ∈ q.ready := by
  rcases b.outcome op with ⟨x, rfl⟩ | ⟨f, now, q, d, rest, -, hqueue, hready, -, hafter⟩ |
    ⟨other, x, -, -, -, hafter⟩ | ⟨-, -, -, _, _, _, hafter⟩
  · rw [operate, inFlight_supply] at h
    exact Or.inl h
  · rw [hafter, handOut] at h
    rcases List.mem_append.1 h with h | h
    · exact Or.inl h
    · rw [List.mem_singleton.1 h]
      exact Or.inr ⟨q, hqueue, hready ▸ List.mem_cons_self⟩
  · rw [hafter, inFlight_release] at h
    exact Or.inl (List.mem_filter.1 h).1
  · rw [hafter] at h
    exact Or.inl h

/-! ### Declarations -/

/-- A consumer that is there was declared with the filter that it has, and not again since. -/
theorem exists_declared {redelivers : Bool} {ops : List Operation} {c : ConsumerId} {q : Queue}
    (hq : (after { redelivers } ops).queue? c = some q) :
    ∃ before since, ops = before ++ .supply (.declare c q.filter) :: since ∧
      ∀ again, .supply (.declare c again) ∉ since := by
  induction ops using List.reverseRecOn generalizing q with
  | nil => exact absurd hq (by simp [after, queue?])
  | append_singleton ops op ih =>
    rw [after_concat] at hq
    rcases queue?_operate_cases hq with ⟨rfl, -⟩ | ⟨hop, old, hold, hfilter, -⟩
    · exact ⟨ops, [], rfl, fun again ↦ List.not_mem_nil⟩
    · obtain ⟨before, since, rfl, hsince⟩ := ih hold
      refine ⟨before, since ++ [op], by rw [hfilter]; simp, fun again hmem ↦ ?_⟩
      rcases List.mem_append.1 hmem with hmem | hmem
      · exact hsince again hmem
      · exact hop again (List.mem_singleton.1 hmem).symm

/-- **Whatever a consumer has or waits for was selected by a filter that it was declared with.** -/
theorem exists_selecting {redelivers : Bool} {ops : List Operation} {c : ConsumerId} {d : Delivery}
    (h : (∃ q, (after { redelivers } ops).queue? c = some q ∧ d ∈ q.ready) ∨
      ⟨c, d⟩ ∈ (after { redelivers } ops).inFlight) :
    ∃ filter, .supply (.declare c filter) ∈ ops ∧
      Subject.isSelected filter d.message.subject = true := by
  induction ops using List.reverseRecOn with
  | nil => exact absurd h (by simp [after, queue?])
  | append_singleton ops op ih =>
    have hlater : (∃ q, (after { redelivers } ops).queue? c = some q ∧ d ∈ q.ready) ∨
        ⟨c, d⟩ ∈ (after { redelivers } ops).inFlight →
        ∃ filter, .supply (.declare c filter) ∈ ops ++ [op] ∧
          Subject.isSelected filter d.message.subject = true := fun hbefore ↦ by
      obtain ⟨filter, hmem, hsel⟩ := ih hbefore
      exact ⟨filter, List.mem_append_left _ hmem, hsel⟩
    rw [after_concat] at h
    rcases h with ⟨q, hq, hd⟩ | h
    · rcases queue?_operate_cases hq with ⟨-, hempty⟩ | ⟨-, old, hold, -, hline⟩
      · exact absurd hd (hempty ▸ List.not_mem_nil)
      · rcases mem_of_line hline hd with hd | hd
        · exact hlater (Or.inl ⟨old, hold, hd⟩)
        · rcases of_mem_entered hd with hsel | ⟨-, hflying, -⟩
          · obtain ⟨before, since, hops, -⟩ := exists_declared hold
            exact ⟨old.filter, by rw [hops]; simp, hsel⟩
          · exact hlater (Or.inr hflying)
    · rcases mem_inFlight_operate h with h | h
      · exact hlater (Or.inr h)
      · exact hlater (Or.inl h)

/-! ### Since the declaration -/

/-- Since its declaration a consumer has waiting what its filter selects, or what was in flight then
and came back; and it has in flight what its filter selects, or what was in flight then. -/
theorem selected_since (b : Broker) (c : ConsumerId) (filter : String) (since : List Operation)
    (hsince : ∀ again, .supply (.declare c again) ∉ since) :
    (∀ q, ((b.declare c filter).after since).queue? c = some q → ∀ d ∈ q.ready,
      Subject.isSelected filter d.message.subject = true ∨
        b.redelivers = true ∧ ⟨c, d⟩ ∈ b.inFlight ∧
          (d.handle, .nack) ∈ along settled (b.declare c filter) since) ∧
    ∀ d, ⟨c, d⟩ ∈ ((b.declare c filter).after since).inFlight →
      Subject.isSelected filter d.message.subject = true ∨ ⟨c, d⟩ ∈ b.inFlight := by
  induction since using List.reverseRecOn with
  | nil =>
    refine ⟨fun q hq d hd ↦ ?_, fun d hd ↦ Or.inr hd⟩
    have hset : some { filter } = some q := (lookup_setQueue_self ..).symm.trans hq
    obtain rfl := Option.some.inj hset
    exact absurd hd List.not_mem_nil
  | append_singleton since op ih =>
    have hsince' : ∀ again, .supply (.declare c again) ∉ since := fun again hmem ↦
      hsince again (List.mem_append_left _ hmem)
    have hop : ∀ again, op ≠ .supply (.declare c again) := fun again he ↦
      hsince again (he ▸ List.mem_append_right _ List.mem_cons_self)
    obtain ⟨old, hold, hfilter, -⟩ := exists_queue?_after b c filter since hsince'
    obtain ⟨hready, hflying⟩ := ih hsince'
    have hredelivers : ((b.declare c filter).after since).redelivers = b.redelivers :=
      redelivers_after _ since
    rw [after_concat, along_concat]
    refine ⟨fun q hq d hd ↦ ?_, fun d hd ↦ ?_⟩
    · obtain ⟨q', hq', -, hline⟩ := queue?_operate hold hop
      obtain rfl : q' = q := Option.some.inj (hq'.symm.trans hq)
      rcases mem_of_line hline hd with hd' | hd'
      · exact (hready old hold d hd').imp_right fun hback ↦
          ⟨hback.1, hback.2.1, List.mem_append_left _ hback.2.2⟩
      · rw [hfilter] at hd'
        rcases of_mem_entered hd' with hsel | ⟨hb, hin, hnack⟩
        · exact Or.inl hsel
        · exact (hflying d hin).imp_right fun hin ↦
            ⟨hredelivers.symm.trans hb, hin, List.mem_append_right _ hnack⟩
    · rcases mem_inFlight_operate hd with hd | ⟨q, hq, hd⟩
      · exact hflying d hd
      · exact (hready q hq d hd).imp_right fun hback ↦ hback.2.1

/-! ### What a fetch returns -/

/-- A delivery that came past the filter of its consumer: one that an older filter of the consumer
selected, that was in flight when the consumer was declared with the filter of now, and that was
settled negatively since. -/
inductive Stray (start : Broker) (ops : List Operation) (c : ConsumerId) (filter : String)
    (d : Delivery) : Prop where
  | intro (redelivers : start.redelivers = true) (before since : List Operation) (older : String)
      (split : ops = before ++ .supply (.declare c filter) :: since)
      (last : ∀ again, .supply (.declare c again) ∉ since)
      (declared : .supply (.declare c older) ∈ before)
      (selected : Subject.isSelected older d.message.subject = true)
      (flying : ⟨c, d⟩ ∈ (start.after before).inFlight)
      (returned : (d.handle, .nack) ∈
        along settled ((start.after before).declare c filter) since)

/-- **A fetch returns what the filter of the moment selects**, unless it returns a delivery that was
in flight when its consumer was declared again and has come back since. -/
theorem selected_or_stray {redelivers : Bool} {ops : List Operation} {f : Fetch} {now : Nat}
    {c : ConsumerId} {d : Delivery}
    (h : ⟨c, d⟩ ∈ (after { redelivers } ops).handed (.look f now)) :
    ∃ q, (after { redelivers } ops).queue? c = some q ∧
      (Subject.isSelected q.filter d.message.subject = true ∨
        Stray { redelivers } ops c q.filter d) := by
  rcases (after { redelivers } ops).look_cases f now with
    ⟨q, d', rest, hq, hready, hlook⟩ | ⟨hnone, -⟩
  · rw [handed, hlook, List.mem_singleton, Flight.mk.injEq] at h
    obtain ⟨rfl, rfl⟩ := h
    obtain ⟨before, since, hops, hsince⟩ := exists_declared hq
    have hrun : after { redelivers } ops =
        ((after { redelivers } before).declare f.consumer q.filter).after since := by
      rw [hops, after_append]
      rfl
    refine ⟨q, hq, ?_⟩
    have hsplit := (selected_since (after { redelivers } before) f.consumer q.filter since
      hsince).1 q (hrun ▸ hq) d (hready ▸ List.mem_cons_self)
    refine hsplit.imp_right fun hback ↦ ?_
    obtain ⟨hb, hin, hnack⟩ := hback
    obtain ⟨older, hdeclared, hsel⟩ := exists_selecting (Or.inr hin)
    rw [redelivers_after] at hb
    exact .intro hb before since older hops hsince hdeclared hsel hin hnack
  · rw [handed] at h
    split at h
    · next d' hd' => exact absurd hd' (hnone d')
    · exact absurd h List.not_mem_nil

/-- The consumer `S/c` is declared again while a delivery is in flight, which then comes back. -/
def Operation.relabelling : List Operation :=
  [.supply (.declare ⟨"S", "c"⟩ "a"), .supply (.publish ⟨"a", [], []⟩ 0), .ask, .look .brief 0,
    .supply (.declare ⟨"S", "c"⟩ "b"), .settle ⟨"S.c.1"⟩ .nack, .ask]

/-- The delivery that comes back is a stray. -/
theorem selected_or_stray_relabelling :
    ⟨⟨"S", "c"⟩, ⟨⟨"S.c.1"⟩, ⟨"a", [], []⟩, 0⟩⟩ ∈
      (after {} Operation.relabelling).handed (.look .brief 0) ∧
    Stray {} Operation.relabelling ⟨"S", "c"⟩ "b" ⟨⟨"S.c.1"⟩, ⟨"a", [], []⟩, 0⟩ := by
  have hhanded : ⟨⟨"S", "c"⟩, ⟨⟨"S.c.1"⟩, ⟨"a", [], []⟩, 0⟩⟩ ∈
      (after {} Operation.relabelling).handed (.look .brief 0) := by decide +kernel
  obtain ⟨q, hq, hselected⟩ := selected_or_stray hhanded
  have hfilter : ((after {} Operation.relabelling).queue? ⟨"S", "c"⟩).map (·.filter) = some "b" := by
    decide +kernel
  rw [hq, Option.map_some, Option.some.injEq] at hfilter
  rw [hfilter] at hselected
  exact ⟨hhanded, hselected.resolve_left (by decide +kernel)⟩

/-- **A filter may be passed by**: what a fetch returns need not be selected by the filter that its
consumer has. -/
theorem not_always_selected :
    ¬ ∀ (redelivers : Bool) (ops : List Operation) (f : Fetch) (now : Nat) (c : ConsumerId)
      (d : Delivery), ⟨c, d⟩ ∈ (after { redelivers } ops).handed (.look f now) →
        ∃ q, (after { redelivers } ops).queue? c = some q ∧
          Subject.isSelected q.filter d.message.subject = true := by
  intro h
  obtain ⟨q, hq, hselected⟩ := h true Operation.relabelling .brief 0 ⟨"S", "c"⟩
    ⟨⟨"S.c.1"⟩, ⟨"a", [], []⟩, 0⟩ (by decide +kernel)
  have hfilter : ((after {} Operation.relabelling).queue? ⟨"S", "c"⟩).map (·.filter) = some "b" := by
    decide +kernel
  rw [hq, Option.map_some, Option.some.injEq] at hfilter
  rw [hfilter] at hselected
  exact absurd hselected (by decide +kernel)

end PullConsumer.Broker
