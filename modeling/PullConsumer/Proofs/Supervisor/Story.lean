import PullConsumer.Proofs.Supervisor.Records

/-!
# The story of a delivery

A delivery may be fetched again and again, each time for a job of its own. Its story is what the
journal tells about all of these jobs (`story`). What a story may look like is said by `Course`:
some rounds that each end with a transient failure and a negative settlement that succeeds, and one
last round, of which any part may still be missing.

Everything that is claimed about the calls of a handler for one delivery follows from this shape
alone: what the results are, that nothing is called after a last result, and that calls do not
overlap.
-/

namespace PullConsumer

/-- A handler has failed and may fare better another time. -/
def HandlerResult.isTransient : HandlerResult → Bool
  | failed (.transient _) => true
  | _ => false

namespace Supervisor

/-! ### Stories -/

/-- A job is given a delivery. -/
def Entry.hands (k : Nat) (h : Handle) : Entry → Bool
  | fetched _ job handle => job = k && handle = h
  | _ => false

/-- The journal tells that a job was given a delivery. -/
def carried (h : Handle) (journal : List (Nat × Entry)) (k : Nat) : Bool :=
  journal.any fun x ↦ x.2.hands k h

/-- What a journal tells about the jobs of a delivery, the last first. -/
def story (h : Handle) (journal : List (Nat × Entry)) : List Entry :=
  (journal.map (·.2)).filter fun e ↦ e.job?.any (carried h journal)

theorem Entry.job?_of_hands {e : Entry} {k : Nat} {h : Handle} (he : e.hands k h = true) :
    e.job? = some k := by
  cases e with
  | fetched n job handle =>
    have hjob : job = k ∧ handle = h := by simpa [hands] using he
    rw [job?, hjob.1]
  | _ => exact absurd he (by simp [hands])

theorem carried_cons (h : Handle) (x : Nat × Entry) (journal : List (Nat × Entry)) (k : Nat) :
    carried h (x :: journal) k = (x.2.hands k h || carried h journal k) := by
  simp [carried]

/-- An entry is a part of the story if its job carries the delivery. -/
theorem story_cons_of_hands {h : Handle} {x : Nat × Entry} {journal : List (Nat × Entry)}
    (hx : ∀ k, x.2.hands k h = false) : story h (x :: journal) =
      if x.2.job?.any (carried h journal) then x.2 :: story h journal else story h journal := by
  have hcarried : carried h (x :: journal) = carried h journal := by
    funext k
    rw [carried_cons, hx, Bool.false_or]
  simp only [story, hcarried, List.map_cons, List.filter_cons]

/-- The delivery of a job that nothing was told about has one more part to its story. -/
theorem story_cons_of_fetched {k : Nat} {journal : List (Nat × Entry)} (hk : about k journal = [])
    (tick n : Nat) (h h' : Handle) : story h' ((tick, .fetched n k h) :: journal) =
      if h = h' then .fetched n k h :: story h' journal else story h' journal := by
  have hnew : ∀ e ∈ journal.map (·.2), e.job? ≠ some k := by
    intro e he hjob
    have hmem : e ∈ about k journal := List.mem_filter.2 ⟨he, decide_eq_true hjob⟩
    exact absurd hmem (by simp [hk])
  have hfree : carried h' journal k = false := by
    rw [carried, List.any_eq_false]
    intro x hx hhands
    exact hnew x.2 (List.mem_map_of_mem hx) (Entry.job?_of_hands hhands)
  -- The new job appears nowhere further back, so only the new entry has to be looked at.
  have hrest : (journal.map (·.2)).filter (fun e ↦
      e.job?.any (carried h' ((tick, .fetched n k h) :: journal))) = story h' journal := by
    refine List.filter_congr fun e he ↦ ?_
    cases hjob : e.job? with
    | none => rfl
    | some i =>
      have hne : k ≠ i := fun heq ↦ hnew e he (heq ▸ hjob)
      simp [carried_cons, Entry.hands, hne]
  have hhead : Option.any (carried h' ((tick, .fetched n k h) :: journal)) (some k) =
      decide (h = h') := by
    simp [carried_cons, Entry.hands, hfree]
  unfold story
  rw [List.map_cons, List.filter_cons, hrest]
  simp only [Entry.job?, hhead, decide_eq_true_eq]
  rfl

/-! ### Courses -/

namespace Entry

/-- The result of a handler. -/
def result? : Entry → Option HandlerResult
  | ended _ _ _ _ r => some r
  | _ => none

/-- A handler is called. -/
def isStart : Entry → Bool
  | started .. => true
  | _ => false

/-- A handler ends. -/
def isEnd : Entry → Bool
  | ended .. => true
  | _ => false

/-- A negative settlement succeeds. -/
def isNack : Entry → Bool
  | settled _ _ .nack none => true
  | _ => false

/-- A handler ends in any way but with a transient failure, or a settlement fails. -/
def isLast : Entry → Bool
  | ended _ _ _ _ r => !r.isTransient
  | settled _ _ _ failure => failure.isSome
  | _ => false

end Entry

/-- The story of a delivery from its beginning: rounds that end with a transient failure and with a
negative settlement that succeeds, and then as much of one more round as there is already. -/
inductive Course (h : Handle) : List Entry → Prop
  | last {j : Job} {r : HandlerResult} {failure : Option String} {entries : List Entry}
      (hj : j.delivery.handle = h) (hpart : entries <+: (j.life r failure).reverse) :
      Course h entries
  | again {j : Job} {reason : String} {entries : List Entry} (hj : j.delivery.handle = h)
      (hrest : Course h entries) :
      Course h ((j.life (.failed (.transient reason)) none).reverse ++ entries)

namespace Course

variable {h : Handle} {entries : List Entry}

/-- **Only transient failures are followed by another result**, and each of them was answered by a
negative settlement that succeeded. -/
theorem results (hc : Course h entries) : ∃ (reasons : List String) (last : List HandlerResult),
    entries.filterMap Entry.result? = reasons.map (fun x ↦ .failed (.transient x)) ++ last ∧
      reasons.length ≤ entries.countP Entry.isNack ∧ last.length ≤ 1 := by
  induction hc with
  | @last j r failure entries _ hpart =>
    refine ⟨[], entries.filterMap Entry.result?, rfl, Nat.zero_le _, ?_⟩
    exact (hpart.filterMap Entry.result?).length_le
  | @again j reason entries _ _ ih =>
    obtain ⟨reasons, last, hresults, hnacks, hlast⟩ := ih
    refine ⟨reason :: reasons, last, ?_, ?_, hlast⟩
    · rw [List.filterMap_append, hresults]
      rfl
    · rw [List.countP_append, List.length_cons, Nat.add_comm]
      exact Nat.add_le_add_left hnacks 1

/-- **Nothing is called after a last result or a failed settlement.** -/
theorem nothing_after (hc : Course h entries) :
    entries.Pairwise fun e x ↦ e.isLast = true → x.isStart = false := by
  induction hc with
  | @last j r failure entries _ hpart =>
    refine List.Pairwise.sublist hpart.sublist ?_
    simp [Job.life, Entry.isStart, Entry.isLast]
  | @again j reason entries _ _ ih =>
    have hnot : ∀ e ∈ (j.life (.failed (.transient reason)) none).reverse, e.isLast = false := by
      simp [Job.life, Entry.isLast, HandlerResult.isTransient]
    refine List.pairwise_append.2 ⟨?_, ih, fun e he x _ hlast ↦ ?_⟩
    · exact List.pairwise_of_forall_mem_list fun e he x _ hlast ↦
        absurd hlast (by simp [hnot e he])
    · exact absurd hlast (by simp [hnot e he])

/-- **Calls do not overlap.** At any time at most one of those that were begun has not ended. -/
theorem apart (hc : Course h entries) {l : List Entry} (hl : l <+: entries) :
    l.countP Entry.isStart ≤ l.countP Entry.isEnd + 1 := by
  have hround (j : Job) (r : HandlerResult) (failure : Option String) {l : List Entry}
      (hl : l <+: (j.life r failure).reverse) : l.countP Entry.isStart ≤ 1 :=
    hl.sublist.countP_le
  induction hc generalizing l with
  | @last j r failure entries _ hpart =>
    exact (hround j r failure (hl.trans hpart)).trans (Nat.le_add_left ..)
  | @again j reason entries _ _ ih =>
    -- The prefix ends within the first round or contains all of it.
    rcases List.prefix_or_prefix_of_prefix hl (List.prefix_append ..) with hpart | ⟨rest, rfl⟩
    · exact (hround _ _ _ hpart).trans (Nat.le_add_left ..)
    · have hrest : rest <+: entries := (List.prefix_append_right_inj _).1 hl
      have hle := ih hrest
      have hends : (j.life (.failed (.transient reason)) none).reverse.countP Entry.isEnd = 1 := rfl
      have hstarts : (j.life (.failed (.transient reason)) none).reverse.countP Entry.isStart = 1 :=
        rfl
      rw [List.countP_append, List.countP_append, hends]
      omega

end Course

end Supervisor

end PullConsumer
