import PullConsumer.Proofs.Observer.Strokes

/-!
# The accounts of an observer

Every event that is offered to an observer finds room in its queue or is refused, and every refusal
and every panic is reported once. So what the observer was offered is accounted for at any moment:
the events that found room were handed to it or still wait, in the order in which they were offered,
and the others met a full queue. `Settles` says this of one observer. It is kept by whatever happens
at the observer (`Settles.see`), so that it holds of every observer of a set after any strokes
(`settles_strikes`). So the reports on an observer can be counted by what it was offered and by what
it has taken, and all reports observer by observer (`countP_bulletin_le`).
-/

namespace PullConsumer.Observer

/-- How many events may wait for an observer. -/
def room (o : Observer) : Nat := max o.capacity 1

/-- The events that found room, of those that were offered. -/
def accepted (o : Observer) (offers : List (Event × Nat)) : List Event :=
  (offers.filter fun x ↦ x.2 < o.room).map (·.1)

/-- The events that met a full queue, of those that were offered. -/
def refused (o : Observer) (offers : List (Event × Nat)) : List Event :=
  (offers.filter fun x ↦ x.2 = o.room).map (·.1)

/-- The report of a panic, if there was one. -/
def outcries (o : Observer) (x : Event × Option Panic) : List Event :=
  (x.2.map fun p ↦ Event.panicked o.name p.message).toList

/-- **The accounts of an observer**, after it was offered some events, was through with some, and
some reports were made about it. -/
structure Settles (o : Observer) (offers : List (Event × Nat)) (ended : List (Event × Option Panic))
    (said : List Event) (c : Channel) : Prop where
  observer : c.observer = o
  opened : c.closed = false
  /-- The events that the observer was handed, and after them those in its queue, are the events
  that found room, in the order in which they were offered. -/
  line : c.handed ++ c.queue = o.accepted offers
  /-- There were never more events in the queue than may wait, so that the others met a queue with
  exactly as many. -/
  met : ∀ x ∈ offers, x.2 ≤ o.room
  within : c.queue.length ≤ o.room
  /-- Every event that was refused is reported once, unless it was such a report itself. -/
  overflows : said.filter (·.isOverflow) =
    ((o.refused offers).filter (!·.isOverflow)).map fun _ ↦ Event.overflow o.name "full"
  /-- The observer is through with the events it was handed, except for the one it is busy with. -/
  through : ended.map (·.1) = (c.taken.map (·.2)).reverse
  /-- Every panic over an event is reported once, in the order in which the observer was through
  with the events. -/
  panics : said.filter (!·.isOverflow) = ended.flatMap o.outcries

theorem accepted_append (o : Observer) (offers more : List (Event × Nat)) :
    o.accepted (offers ++ more) = o.accepted offers ++ o.accepted more := by
  simp [accepted]

theorem refused_append (o : Observer) (offers more : List (Event × Nat)) :
    o.refused (offers ++ more) = o.refused offers ++ o.refused more := by
  simp [refused]

/-- The report of a panic is not the report of a refusal. -/
theorem isOverflow_of_outcries {o : Observer} {x : Event × Option Panic} {report : Event}
    (h : report ∈ o.outcries x) : report.isOverflow = false := by
  rw [outcries, Option.mem_toList] at h
  obtain ⟨_, -, rfl⟩ := Option.map_eq_some_iff.1 h
  rfl

/-- One refusal because of a full queue is reported once, unless a report of a refusal was
refused; and nothing else is reported. -/
theorem filter_refusals_full (o : Observer) (e : Event) :
    (refusals e [(o.name, .full)]).filter (·.isOverflow) =
        ([e].filter (!·.isOverflow)).map (fun _ ↦ Event.overflow o.name "full") ∧
      (refusals e [(o.name, .full)]).filter (!·.isOverflow) = [] := by
  cases he : e.isOverflow with
  | true => simp [refusals, he]
  | false =>
    have hreport : refusals e [(o.name, .full)] = [Event.overflow o.name "full"] := by
      rw [refusals, he]
      rfl
    have hkept : [e].filter (!·.isOverflow) = [e] := by simp [he]
    rw [hreport, hkept]
    exact ⟨rfl, rfl⟩

namespace Settles

variable {o : Observer} {offers : List (Event × Nat)} {ended : List (Event × Option Panic)}
  {said : List Event} {c : Channel}

theorem fresh (o : Observer) : Settles o [] [] [] { observer := o } where
  observer := rfl
  opened := rfl
  line := rfl
  met := fun _ hx ↦ absurd hx List.not_mem_nil
  within := Nat.zero_le _
  overflows := rfl
  through := rfl
  panics := rfl

/-- An event that finds room goes to the end of the queue. -/
theorem offer_of_lt (h : Settles o offers ended said c) (hroom : c.queue.length < o.room)
    (e : Event) : c.offer e = .ok { c with queue := c.queue ++ [e] } := by
  have hcapacity : c.queue.length < c.capacity := by
    rw [Channel.capacity, h.observer]
    exact hroom
  rw [Channel.offer, h.opened, if_pos hcapacity]
  rfl

/-- An event that meets a full queue is refused for that reason. -/
theorem offer_of_full (h : Settles o offers ended said c) (hfull : c.queue.length = o.room)
    (e : Event) : c.offer e = .error .full := by
  have hcapacity : ¬ c.queue.length < c.capacity := by
    rw [Channel.capacity, h.observer]
    exact Nat.not_lt.2 (Nat.le_of_eq hfull.symm)
  rw [Channel.offer, h.opened, if_neg hcapacity]
  rfl

theorem offered (h : Settles o offers ended said c) (e : Event) :
    Settles o (offers ++ [(e, c.queue.length)]) ended (said ++ c.refusal e) (c.receive e) := by
  have hmet : ∀ x ∈ offers ++ [(e, c.queue.length)], x.2 ≤ o.room := by
    intro x hx
    rcases List.mem_append.1 hx with hx | hx
    · exact h.met x hx
    · rw [List.mem_singleton.1 hx]
      exact h.within
  rcases Nat.lt_or_eq_of_le h.within with hlt | hfull
  · -- It finds room.
    have haccepted : o.accepted [(e, c.queue.length)] = [e] := by simp [accepted, hlt]
    have hrefused : o.refused [(e, c.queue.length)] = [] := by simp [refused, Nat.ne_of_lt hlt]
    rw [Channel.receive, Channel.refusal, h.offer_of_lt hlt]
    refine ⟨h.observer, h.opened, ?_, hmet, ?_, ?_, h.through, ?_⟩
    · show c.handed ++ (c.queue ++ [e]) = _
      rw [accepted_append, haccepted, ← h.line, List.append_assoc]
    · show (c.queue ++ [e]).length ≤ o.room
      rw [List.length_append, List.length_singleton]
      exact hlt
    · rw [refused_append, hrefused, List.append_nil, List.append_nil]
      exact h.overflows
    · rw [List.append_nil]
      exact h.panics
  · -- It is refused.
    have haccepted : o.accepted [(e, c.queue.length)] = [] := by simp [accepted, hfull]
    have hrefused : o.refused [(e, c.queue.length)] = [e] := by simp [refused, hfull]
    have hreceive : c.receive e = c := by rw [Channel.receive, h.offer_of_full hfull]
    have hrefusal : c.refusal e = refusals e [(o.name, .full)] := by
      rw [Channel.refusal, h.offer_of_full hfull, h.observer]
    rw [hreceive, hrefusal]
    refine ⟨h.observer, h.opened, ?_, hmet, h.within, ?_, h.through, ?_⟩
    · rw [accepted_append, haccepted, List.append_nil]
      exact h.line
    · rw [refused_append, hrefused, List.filter_append, List.filter_append, List.map_append,
        h.overflows, (filter_refusals_full o e).1]
    · rw [List.filter_append, (filter_refusals_full o e).2, List.append_nil]
      exact h.panics

theorem picked (h : Settles o offers ended said c) (tick : Nat) :
    Settles o offers ended said (c.pick tick) := by
  rw [Channel.pick]
  split
  · next e rest htaking hqueue =>
    have hline := h.line
    have hwithin := h.within
    rw [hqueue] at hline hwithin
    refine ⟨h.observer, h.opened, ?_, h.met, Nat.le_of_succ_le hwithin, h.overflows, h.through,
      h.panics⟩
    rw [← hline, Channel.handed, Channel.handed, htaking]
    simp
  · exact h

theorem done (h : Settles o offers ended said c) (tick : Nat) (panic : Option Panic) :
    Settles o offers (ended ++ c.ends (.done tick panic)) (said ++ c.outcry panic)
      (c.finish tick) := by
  rw [Channel.finish, Channel.outcry, Channel.ends]
  cases htaking : c.taking with
  | none =>
    rw [List.append_nil]
    exact (List.append_nil ended).symm ▸ h
  | some t =>
    have hline := h.line
    rw [Channel.handed, htaking] at hline
    have houtcry : (panic.map fun p ↦ Event.panicked c.observer.name p.message).toList =
        o.outcries (t.event, panic) := by
      rw [h.observer]
      rfl
    have hnone : (o.outcries (t.event, panic)).filter (·.isOverflow) = [] :=
      List.filter_eq_nil_iff.2 fun report hreport ↦ by simp [isOverflow_of_outcries hreport]
    have hall : (o.outcries (t.event, panic)).filter (!·.isOverflow) =
        o.outcries (t.event, panic) :=
      List.filter_eq_self.2 fun report hreport ↦ by simp [isOverflow_of_outcries hreport]
    dsimp only
    rw [houtcry]
    refine ⟨h.observer, h.opened, ?_, h.met, h.within, ?_, ?_, ?_⟩
    · rw [← hline]
      simp [Channel.handed]
    · rw [List.filter_append, hnone, List.append_nil]
      exact h.overflows
    · simp [h.through]
    · rw [List.filter_append, hall, h.panics]
      simp

/-- **Whatever happens at an observer keeps its accounts.** -/
theorem see (h : Settles o offers ended said c) (x : Sight) :
    Settles o (offers ++ c.meets x) (ended ++ c.ends x) (said ++ c.tells x) (c.see x) := by
  cases x with
  | offered e =>
    rw [show c.ends (.offered e) = [] from rfl, List.append_nil]
    exact h.offered e
  | picked tick =>
    rw [show c.meets (.picked tick) = [] from rfl, show c.ends (.picked tick) = [] from rfl,
      show c.tells (.picked tick) = [] from rfl, List.append_nil, List.append_nil, List.append_nil]
    exact h.picked tick
  | done tick panic =>
    rw [show c.meets (.done tick panic) = [] from rfl, List.append_nil]
    exact h.done tick panic

theorem watch (o : Observer) (xs : List Sight) :
    Settles o (Channel.gather Channel.meets { observer := o } xs)
      (Channel.gather Channel.ends { observer := o } xs)
      (Channel.gather Channel.tells { observer := o } xs)
      (Channel.watch { observer := o } xs) := by
  induction xs using List.reverseRecOn with
  | nil => exact fresh o
  | append_singleton xs x ih =>
    rw [Channel.gather_append, Channel.gather_append, Channel.gather_append, Channel.watch_append]
    simpa [Channel.gather, Channel.watch] using ih.see x

/-- What the observer was handed are events that it was offered, in their order. -/
theorem handed_sublist (h : Settles o offers ended said c) :
    c.handed.Sublist (offers.map (·.1)) := by
  refine (List.sublist_append_left c.handed c.queue).trans ?_
  rw [h.line]
  exact List.filter_sublist.map _

end Settles

/-- Every event that is emitted is offered to every observer, in the same order. -/
theorem map_offersTo {cs : List Channel} {k : Nat} {c : Channel} (hc : cs[k]? = some c)
    (strokes : List Stroke) : (offersTo k cs strokes).map (·.1) = emitted strokes := by
  induction strokes generalizing cs c with
  | nil => rfl
  | cons x rest ih =>
    have hnext : (strike cs x)[k]? = some ((x.seenBy k).elim c c.see) := by
      rw [getElem?_strike, hc]
      rfl
    have htimes : ((x.seenBy k).elim [] c.meets).map (·.1) = x.event?.toList := by
      cases x with
      | emit e => rfl
      | pick n tick =>
        by_cases hn : n = k <;> simp [Stroke.seenBy, Stroke.event?, hn, Channel.meets]
      | finish n tick panic =>
        by_cases hn : n = k <;> simp [Stroke.seenBy, Stroke.event?, hn, Channel.meets]
    have hrest : offersTo k cs (x :: rest) =
        (x.seenBy k).elim [] c.meets ++ offersTo k (strike cs x) rest := by
      rw [offersTo, gathered, hc]
      rfl
    rw [hrest, List.map_append, ih hnext]
    rw [htimes, emitted, emitted, List.filterMap_cons]
    cases x.event? <;> rfl

/-- **After any strokes the accounts of every observer are settled**, and it was offered what was
emitted. -/
theorem settles_strikes {os : List Observer} {k : Nat} {o : Observer} (ho : os[k]? = some o)
    (strokes : List Stroke) : ∃ c, (strikes (fresh os) strokes)[k]? = some c ∧
      Settles o (offersTo k (fresh os) strokes) (endsOf k (fresh os) strokes)
        (reportsOn k (fresh os) strokes) c ∧
      (offersTo k (fresh os) strokes).map (·.1) = emitted strokes := by
  have hfresh : (fresh os)[k]? = some { observer := o } := by
    rw [fresh, List.getElem?_map, ho]
    rfl
  refine ⟨_, by rw [getElem?_strikes, hfresh]; rfl, ?_, map_offersTo hfresh strokes⟩
  rw [offersTo, endsOf, gathered_eq, gathered_eq, reportsOn_eq, hfresh]
  exact Settles.watch o _

/-- **The account of a set of observers** that some strokes were made at: what became of the queues,
what was put on the bus, and the accounts of each observer. -/
structure Accounted (os : List Observer) (strokes : List Stroke) (cs : List Channel)
    (posted : List Event) : Prop where
  channels : cs = strikes (fresh os) strokes
  /-- What is put on the bus is what is reported, in the order of the strokes. -/
  posted : posted = (bulletin (fresh os) strokes).map (·.2)
  settled : ∀ k o, os[k]? = some o → ∃ c, cs[k]? = some c ∧
    Settles o (offersTo k (fresh os) strokes) (endsOf k (fresh os) strokes)
      (reportsOn k (fresh os) strokes) c ∧
    (offersTo k (fresh os) strokes).map (·.1) = emitted strokes

theorem Accounted.of_eq {os : List Observer} {strokes : List Stroke} {cs : List Channel}
    {posted : List Event} (hcs : cs = strikes (fresh os) strokes)
    (hposted : posted = (bulletin (fresh os) strokes).map (·.2)) :
    Accounted os strokes cs posted where
  channels := hcs
  posted := hposted
  settled _ _ ho := hcs ▸ settles_strikes ho strokes

/-! ### Counting reports -/

section Counting

variable {os : List Observer} {strokes : List Stroke}

theorem fst_lt_of_mem_bulletin {cs : List Channel} {x : Nat × Event}
    (hx : x ∈ bulletin cs strokes) : x.1 < cs.length := by
  induction strokes generalizing cs with
  | nil => exact absurd hx List.not_mem_nil
  | cons y rest ih =>
    rw [bulletin] at hx
    obtain hx | hx := List.mem_append.1 hx
    · obtain ⟨k, hk, hx⟩ := List.mem_flatMap.1 hx
      obtain ⟨report, -, rfl⟩ := List.mem_map.1 hx
      exact List.mem_range.1 hk
    · have hlt := ih hx
      have hlength : (strike cs y).length = cs.length := length_strikes cs [y]
      rwa [hlength] at hlt

theorem countP_add_countP_not {α : Type} (q : α → Bool) (xs : List α) :
    xs.countP q + xs.countP (fun x ↦ !q x) = xs.length := by
  rw [List.length_eq_countP_add_countP q]
  simp

/-- Items with numbers are counted number by number. -/
theorem countP_le_sum {α : Type} (q : α → Bool) {bounds : List Nat} {items : List (Nat × α)}
    (hlt : ∀ x ∈ items, x.1 < bounds.length)
    (hle : ∀ k n, bounds[k]? = some n → ((items.filter (·.1 = k)).map (·.2)).countP q ≤ n) :
    (items.map (·.2)).countP q ≤ bounds.sum := by
  induction bounds using List.reverseRecOn generalizing items with
  | nil =>
    have hnil : items = [] :=
      List.eq_nil_iff_forall_not_mem.2 fun x hx ↦ Nat.not_lt_zero _ (hlt x hx)
    rw [hnil]
    exact Nat.le_refl _
  | append_singleton bounds n ih =>
    have hlast := hle bounds.length n (by simp)
    have hearlier := @ih (items.filter (·.1 < bounds.length))
      (fun x hx ↦ of_decide_eq_true (List.mem_filter.1 hx).2)
      (fun k m hk ↦ by
        have hk' : k < bounds.length := (List.getElem?_eq_some_iff.1 hk).1
        have hfilter : (items.filter (·.1 < bounds.length)).filter (·.1 = k) =
            items.filter (·.1 = k) := by
          rw [List.filter_filter]
          refine List.filter_congr fun x _ ↦ ?_
          by_cases hx : x.1 = k <;> simp [hx, hk']
        rw [hfilter]
        exact hle k m (by rw [List.getElem?_append_left hk', hk]))
    have hrest : (items.filter fun x ↦ !decide (x.1 < bounds.length)) =
        items.filter (·.1 = bounds.length) := by
      refine List.filter_congr fun x hx ↦ ?_
      have hx := hlt x hx
      rw [List.length_append, List.length_singleton] at hx
      have hiff : ¬ x.1 < bounds.length ↔ x.1 = bounds.length := by omega
      rw [← decide_not]
      exact decide_eq_decide.2 hiff
    rw [List.countP_map, List.countP_eq_countP_filter_add _ _ (·.1 < bounds.length), hrest,
      ← List.countP_map, ← List.countP_map, List.sum_append, List.sum_singleton]
    exact Nat.add_le_add hearlier hlast

/-- What is put on the bus is counted observer by observer. -/
theorem countP_bulletin_le (q : Event → Bool) (f : Channel → Nat)
    (hle : ∀ k c, (strikes (fresh os) strokes)[k]? = some c →
      (reportsOn k (fresh os) strokes).countP q ≤ f c) :
    ((bulletin (fresh os) strokes).map (·.2)).countP q ≤
      ((strikes (fresh os) strokes).map f).sum := by
  refine countP_le_sum q (fun x hx ↦ ?_) (fun k n hk ↦ ?_)
  · rw [List.length_map, length_strikes]
    exact fst_lt_of_mem_bulletin hx
  · rw [List.getElem?_map] at hk
    obtain ⟨c, hc, rfl⟩ := Option.map_eq_some_iff.1 hk
    exact hle k c hc

namespace Settles

variable {o : Observer} {offers : List (Event × Nat)} {ended : List (Event × Option Panic)}
  {said : List Event} {c : Channel}

/-- Refusals are reported for events that are not such reports themselves. -/
theorem countP_overflow_le (h : Settles o offers ended said c) :
    said.countP (·.isOverflow) ≤ (offers.map (·.1)).countP (!·.isOverflow) := by
  rw [List.countP_eq_length_filter, h.overflows, List.length_map, ← List.countP_eq_length_filter]
  exact (List.filter_sublist.map _).countP_le

/-- Panics are reported for events over which the observer panics. -/
theorem countP_panics (h : Settles o offers ended said c)
    (hreacts : ∀ x ∈ ended, x.2 = (o.react x.1).panic) :
    said.countP (!·.isOverflow) = c.taken.countP fun x ↦ (o.react x.2).panic.isSome := by
  have hone (x : Event × Option Panic) (hx : x ∈ ended) :
      (o.outcries x).length = if (o.react x.1).panic.isSome then 1 else 0 := by
    rw [outcries, hreacts x hx]
    cases (o.react x.1).panic <;> rfl
  have hsum (xs : List (Event × Option Panic)) (hxs : ∀ x ∈ xs, x ∈ ended) :
      (xs.flatMap o.outcries).length = (xs.map (·.1)).countP fun e ↦ (o.react e).panic.isSome := by
    induction xs with
    | nil => rfl
    | cons x rest ih =>
      rw [List.forall_mem_cons] at hxs
      rw [List.flatMap_cons, List.length_append, hone x hxs.1, ih hxs.2, List.map_cons,
        List.countP_cons, Nat.add_comm]
  rw [List.countP_eq_length_filter, h.panics, hsum ended fun _ ↦ id, h.through, List.countP_reverse,
    List.countP_map]
  rfl

end Settles

end Counting

/-! ### Two small observers -/

/-- An observer with no room to speak of, who needs a tick for each event and panics over it. -/
def reluctant : Observer where
  name := "reluctant"
  capacity := 0
  react _ := { pause := 1, panic := some (.text "no") }

/-- An observer that panics over every event, and has room for plenty. -/
def jumpy : Observer where
  name := "jumpy"
  capacity := 8
  react _ := { panic := some (.text "boo") }

end PullConsumer.Observer
