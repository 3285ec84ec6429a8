import PullConsumer.Proofs.Broker.Waiting

/-!
# Fetches that end with a timeout

What a fetch has done is read off the course of its desk: when it began, what it found in each of its
turns, and with what it ended. A fetch keeps the deadline that its timeout gave it when it began, so
that one which ends with a timeout ends at that deadline or later, unless the timeout was planted;
and since it ends without a delivery, none of its turns has taken anything from the broker
(`Harmless`). It is stated of every turn that the course gives a number, also before there is a
fetch with that number, which makes it an invariant that holds from the beginning.

Together with what is true of those who wait, this is all that a caller of a fetch may rely on
(`Attended`).
-/

namespace PullConsumer.Broker.Desk

open Tasked (Happening unfold happen Unfolds)

variable {b : Broker} {course : List (Happening Act Nat)} {n : Nat}

/-- The desk of a broker after a course. -/
def reached (b : Broker) (course : List (Happening Act Nat)) : Desk :=
  unfold act { broker := b } course

theorem reached_concat (b : Broker) (course : List (Happening Act Nat)) (h : Happening Act Nat) :
    reached b (course ++ [h]) = happen act (reached b course) h :=
  Tasked.unfold_concat course h

/-! ### What a course tells of a fetch -/

/-- None of the turns of a fetch has changed what waits or what is in flight. -/
def Harmless (b : Broker) (course : List (Happening Act Nat)) (n : Nat) : Prop :=
  ∀ before after, course = before ++ .turn n :: after →
    SameStock (reached b before).broker (reached b (before ++ [.turn n])).broker

/-- A fetch with a timeout `t` had its first turn at the tick `begun`. -/
def Begins (b : Broker) (course : List (Happening Act Nat)) (n : Nat) (c : ConsumerId) (t : Duration)
    (begun : Nat) : Prop :=
  ∃ before after, course = before ++ .turn n :: after ∧
    (reached b before).errands[n]? = some (.fresh c t) ∧ (reached b before).scheduler.now = begun

/-- A fetch has met a planted fault in its first turn. -/
def Planted (b : Broker) (course : List (Happening Act Nat)) (n : Nat) (fault : BrokerError) : Prop :=
  ∃ before after c t rest, course = before ++ .turn n :: after ∧
    (reached b before).errands[n]? = some (.fresh c t) ∧
    (reached b before).broker.fetchFaults = fault :: rest

/-- A fetch has the deadline that its timeout gave it when it began. -/
def Due (b : Broker) (course : List (Happening Act Nat)) (n : Nat) (c : ConsumerId) (t : Duration)
    (deadline : Nat) : Prop :=
  ∃ begun, Begins b course n c t begun ∧ t.limit? begun = some deadline

theorem Due.concat {c : ConsumerId} {t : Duration} {deadline : Nat}
    (h : Due b course n c t deadline) (x : Happening Act Nat) :
    Due b (course ++ [x]) n c t deadline := by
  obtain ⟨begun, ⟨before, after, rfl, herrand, hnow⟩, hlimit⟩ := h
  exact ⟨begun, ⟨before, after ++ [x], by simp, herrand, hnow⟩, hlimit⟩

theorem Planted.concat {fault : BrokerError} (h : Planted b course n fault) (x : Happening Act Nat) :
    Planted b (course ++ [x]) n fault := by
  obtain ⟨before, after, c, t, rest, rfl, herrand, hfault⟩ := h
  exact ⟨before, after ++ [x], c, t, rest, by simp, herrand, hfault⟩

/-- One more happening does no harm unless it is a turn of the fetch that does. -/
theorem Harmless.concat (h : Harmless b course n) {x : Happening Act Nat}
    (hx : x = .turn n → SameStock (reached b course).broker (reached b (course ++ [x])).broker) :
    Harmless b (course ++ [x]) n := by
  intro before after hsplit
  rcases after.eq_nil_or_concat with rfl | ⟨after, y, rfl⟩
  · obtain ⟨rfl, hturn⟩ := List.append_inj' hsplit rfl
    obtain rfl : x = .turn n := List.singleton_injective hturn
    exact hx rfl
  · rw [List.concat_eq_append, ← List.cons_append, ← List.append_assoc] at hsplit
    exact h before after (List.append_inj_left' hsplit rfl)

/-! ### What has become of a fetch -/

/-- What is true of the past of a fetch, by where it stands now. -/
inductive Past (b : Broker) (course : List (Happening Act Nat)) (n : Nat) : Option Errand → Prop
  | none (h : Harmless b course n) : Past b course n none
  | fresh {c : ConsumerId} {t : Duration} (h : Harmless b course n) :
      Past b course n (some (.fresh c t))
  | waiting {f : Fetch} (h : Harmless b course n)
      (hdue : Due b course n f.consumer f.timeout f.deadline) : Past b course n (some (.waiting f))
  | refused {tick : Nat} {cause : BrokerError} (h : Harmless b course n)
      (hplanted : Planted b course n cause) : Past b course n (some (.finished tick (.error cause)))
  | missing {tick : Nat} {cause : BrokerError} (h : Harmless b course n)
      (hcause : cause.isTimeout = false) : Past b course n (some (.finished tick (.error cause)))
  | late {f : Fetch} {tick : Nat} (h : Harmless b course n)
      (hdue : Due b course n f.consumer f.timeout f.deadline) (htick : f.deadline ≤ tick) :
      Past b course n (some (.finished tick (.error (.timeout f.timeout))))
  | received {tick : Nat} {d : Delivery} : Past b course n (some (.finished tick (.ok d)))
  | crashed {cause : Crash} : Past b course n (some (.crashed cause))

namespace Past

variable {old : Option Errand} {x : Happening Act Nat}

/-- The fetch has stayed where it was. -/
theorem concat (h : Past b course n old)
    (hx : x = .turn n → SameStock (reached b course).broker (reached b (course ++ [x])).broker) :
    Past b (course ++ [x]) n old := by
  cases h with
  | none h => exact .none (h.concat hx)
  | fresh h => exact .fresh (h.concat hx)
  | waiting h hdue => exact .waiting (h.concat hx) (hdue.concat x)
  | refused h hplanted => exact .refused (h.concat hx) (hplanted.concat x)
  | missing h hcause => exact .missing (h.concat hx) hcause
  | late h hdue htick => exact .late (h.concat hx) (hdue.concat x) htick
  | received => exact .received
  | crashed => exact .crashed

/-- A fetch that is not over has done no harm. -/
theorem harmless {e : Errand} (h : Past b course n (some e)) (he : e.isOver = false) :
    Harmless b course n := by
  cases h with
  | fresh h => exact h
  | waiting h hdue => exact h
  | _ => exact absurd he (by simp [Errand.isOver])

end Past

/-- What a caller does leaves the fetches where they are; at most there is one more. -/
theorem errands_act (a : Act) (d : Desk) :
    (act a d).errands = d.errands ∨ ∃ c t, (act a d).errands = d.errands ++ [.fresh c t] := by
  cases a with
  | hear => exact Or.inl rfl
  | request r =>
    cases r with
    | fetch c t => exact Or.inr ⟨c, t, rfl⟩
    | fetchAside name c t => exact Or.inr ⟨c, t, rfl⟩
    | settle handle s =>
      refine Or.inl ?_
      show (if (d.broker.settle handle s).requeued then
        announce { d with broker := (d.broker.settle handle s).broker } else
        { d with broker := (d.broker.settle handle s).broker }).errands = d.errands
      split <;> rfl
    | _ => exact Or.inl rfl

/-- The desk as the turn of a fetch finds it: the fetch is neither ready nor waits. -/
def yielded (d : Desk) (n : Nat) : Desk :=
  { d with scheduler := (d.scheduler.take n).forget n }

/-- A turn that the course gives is one that a fetch has, or nobody is there to have it. -/
theorem turned_happen (d : Desk) (n : Nat) :
    happen act d (.turn n) = d ∨ Turned (d.yielded n) n (happen act d (.turn n)) := by
  rw [happen]
  split
  · exact Or.inr (turned_turn n { d with scheduler := d.scheduler.take n })
  · exact Or.inl rfl

/-- A turn concerns no other fetch. -/
theorem Turned.errands_of_ne {d e : Desk} {k : Nat} (h : Turned d k e) (hne : n ≠ k) :
    e.errands[n]? = d.errands[n]? := by
  cases h with
  | ended hover => rfl
  | crashed herrand cause => exact List.getElem?_set_ne (Ne.symm hne)
  | answered h => rw [errands_finish, List.getElem?_set_ne (Ne.symm hne)]
  | waits hpursues hsame hempty hdue => exact List.getElem?_set_ne (Ne.symm hne)

/-- A fetch that begins or goes on has the deadline that it began with. -/
theorem Pursues.due {f : Fetch} (h : Pursues ((reached b course).yielded n) n f)
    (hpast : Past b course n (reached b course).errands[n]?) :
    Due b (course ++ [.turn n]) n f.consumer f.timeout f.deadline := by
  rcases h with hwaiting | ⟨hfresh, hlimit⟩
  · have hwaiting : (reached b course).errands[n]? = some (.waiting f) := hwaiting
    rw [hwaiting] at hpast
    cases hpast with
    | waiting h hdue => exact hdue.concat _
  · exact ⟨_, ⟨course, [], rfl, hfresh, rfl⟩, hlimit⟩

theorem Pursues.exists_errand {d : Desk} {f : Fetch} (h : Pursues d n f) :
    ∃ e, d.errands[n]? = some e ∧ e.isOver = false := by
  rcases h with hwaiting | ⟨hfresh, -⟩
  · exact ⟨_, hwaiting, rfl⟩
  · exact ⟨_, hfresh, rfl⟩

/-- **The turn of a fetch adds to its past what it has found.** -/
theorem Past.turn (hpast : Past b course n (reached b course).errands[n]?)
    (hturned : Turned ((reached b course).yielded n) n (reached b (course ++ [.turn n]))) :
    Past b (course ++ [.turn n]) n (reached b (course ++ [.turn n])).errands[n]? := by
  -- A turn that leaves the stock as it is does no harm.
  have hharmless : ∀ e, (reached b course).errands[n]? = some e → e.isOver = false →
      SameStock (reached b course).broker (reached b (course ++ [.turn n])).broker →
        Harmless b (course ++ [.turn n]) n := by
    intro e he hlives hsame
    rw [he] at hpast
    exact (hpast.harmless hlives).concat fun _ ↦ hsame
  -- There is such a fetch, so that its entry is the one that is put.
  have hput : ∀ e new, (reached b course).errands[n]? = some e →
      ((reached b course).errands.set n new)[n]? = some new := fun e new he ↦
    List.getElem?_set_self (List.getElem?_eq_some_iff.1 he).1
  generalize hnew : reached b (course ++ [.turn n]) = e at hturned hharmless ⊢
  cases hturned with
  | ended hover =>
    refine hpast.concat fun _ ↦ ?_
    rw [hnew]
    exact ⟨rfl, rfl⟩
  | crashed herrand cause =>
    show Past b _ n ((reached b course).errands.set n (.crashed cause))[n]?
    rw [hput _ _ herrand]
    exact .crashed
  | @answered answer x hanswers =>
    rw [broker_finish] at hharmless
    rw [errands_finish]
    show Past b _ n ((reached b course).errands.set n
      (.finished (reached b course).scheduler.now answer))[n]?
    cases hanswers with
    | planted herrand hfault hsame =>
      rw [hput _ _ herrand]
      exact .refused (hharmless _ herrand rfl hsame) ⟨course, [], _, _, _, rfl, herrand, hfault⟩
    | missing hpursues hcause hsame =>
      obtain ⟨old, herrand, hlives⟩ := hpursues.exists_errand
      rw [hput _ _ herrand]
      exact .missing (hharmless _ herrand hlives hsame) hcause
    | oldest hpursues hsame htake =>
      obtain ⟨old, herrand, hlives⟩ := hpursues.exists_errand
      rw [hput _ _ herrand]
      exact .received
    | late hpursues hdue hsame =>
      obtain ⟨old, herrand, hlives⟩ := hpursues.exists_errand
      rw [hput _ _ herrand]
      exact .late (hharmless _ herrand hlives hsame) (hpursues.due hpast) hdue
  | waits hpursues hsame hempty hdue =>
    obtain ⟨old, herrand, hlives⟩ := hpursues.exists_errand
    show Past b _ n ((reached b course).errands.set n (.waiting _))[n]?
    rw [hput _ _ herrand]
    exact .waiting (hharmless _ herrand hlives hsame) (hpursues.due hpast)

/-- **The past of every fetch**, after every course. -/
theorem past (b : Broker) (course : List (Happening Act Nat)) (n : Nat) :
    Past b course n (reached b course).errands[n]? := by
  induction course using List.reverseRecOn with
  | nil =>
    refine .none fun before after hsplit ↦ ?_
    exact absurd hsplit (by simp)
  | append_singleton course x ih =>
    cases x with
    | act a =>
      have hstays := ih.concat (x := .act a) (by simp)
      have hact : reached b (course ++ [.act a]) = act a (reached b course) := reached_concat ..
      rw [hact]
      rcases errands_act a (reached b course) with hsame | ⟨c, t, hmore⟩
      · rwa [hsame]
      · rw [hmore]
        rcases Nat.lt_trichotomy n (reached b course).errands.length with hlt | rfl | hgt
        · rwa [List.getElem?_append_left hlt]
        · rw [List.getElem?_eq_none (Nat.le_refl _)] at hstays
          rw [List.getElem?_concat_length]
          cases hstays with
          | none h => exact .fresh h
        · rw [List.getElem?_eq_none (Nat.le_of_lt hgt)] at hstays
          rw [List.getElem?_eq_none (by rw [List.length_append]; exact hgt)]
          exact hstays
    | turn k =>
      have hturn : reached b (course ++ [.turn k]) = happen act (reached b course) (.turn k) :=
        reached_concat ..
      rcases turned_happen (reached b course) k with hsame | hturned
      · have hstays := ih.concat (x := .turn k) fun _ ↦ by
          rw [hturn, hsame]
          exact ⟨rfl, rfl⟩
        rwa [hturn, hsame]
      · rw [← hturn] at hturned
        by_cases hne : n = k
        · subst hne
          exact ih.turn hturned
        · have herrand : (reached b (course ++ [.turn k])).errands[n]? =
              (reached b course).errands[n]? := hturned.errands_of_ne hne
          rw [herrand]
          refine ih.concat fun hk ↦ ?_
          exact absurd (Happening.turn.inj hk).symm hne
    | pass tick =>
      have hpass : reached b (course ++ [.pass tick]) = happen act (reached b course) (.pass tick) :=
        reached_concat ..
      rw [hpass]
      exact ih.concat (by simp)

/-! ### What a caller may rely on -/

/-- What holds of the fetches of a desk. -/
structure Attended (b : Broker) (course : List (Happening Act Nat)) : Prop where
  /-- When nobody is ready, each fetch that is not over waits for a consumer that is there and has
  nothing, and its deadline is yet to come. -/
  quiet : (reached b course).scheduler.ready = [] →
    ∀ (n : Nat) (e : Errand), (reached b course).errands[n]? = some e → e.isOver = false →
      ∃ f : Fetch, e = .waiting f ∧ (reached b course).broker.Empty f.consumer ∧
        (reached b course).scheduler.now < f.deadline
  /-- A fetch that waits has the deadline that its timeout gave it when it began. -/
  due : ∀ (n : Nat) (f : Fetch), (reached b course).errands[n]? = some (.waiting f) →
    Due b course n f.consumer f.timeout f.deadline
  /-- A timeout that was not planted is told at the deadline or later. -/
  timeouts : ∀ (n tick : Nat) (t : Duration),
    (reached b course).errands[n]? = some (.finished tick (.error (.timeout t))) →
      Planted b course n (.timeout t) ∨ ∃ c deadline, Due b course n c t deadline ∧ deadline ≤ tick
  /-- Who ends without a delivery has taken none. -/
  harmless : ∀ (n tick : Nat) (cause : BrokerError),
    (reached b course).errands[n]? = some (.finished tick (.error cause)) → Harmless b course n

theorem quiet_of_sound {d : Desk} (h : Sound d) (hready : d.scheduler.ready = []) {e : Errand}
    (he : d.errands[n]? = some e) (hlives : e.isOver = false) :
    ∃ f, e = .waiting f ∧ d.broker.Empty f.consumer ∧ d.scheduler.now < f.deadline := by
  cases h n e he with
  | ended hover => exact absurd hover (by simp [hlives])
  | ready hmem =>
    rw [hready] at hmem
    exact absurd hmem List.not_mem_nil
  | waiting hlistens halarm hdue hempty => exact ⟨_, rfl, hempty, hdue⟩

theorem unfolds_perform (d : Desk) (r : Request) : Unfolds act d (d.perform r).2 := by
  have hact : Unfolds act d (act (.request r) d) := .single (.act (Act.request r))
  cases r with
  | fetch c t =>
    have hrun : Unfolds act d (Tasked.runUntil (isOver (d.start c t).1) Tasked.patience
      (d.start c t).2) := hact.trans (.runUntil _ _ _)
    rw [perform]
    dsimp only
    split <;> exact hrun
  | advance ticks =>
    exact .runTo (fun _ _ ↦ rfl) now_turn _ d (Nat.le_add_right _ _)
  | _ => exact hact

theorem unfolds_serve (d : Desk) (r : Request) : Unfolds act d (d.serve r).2 :=
  ((unfolds_perform d r).trans (.settle _ _)).trans (.single (.act Act.hear))

theorem unfolds_foldl_serve (d : Desk) (requests : List Request) :
    Unfolds act d (requests.foldl (fun d r ↦ (d.serve r).2) d) := by
  induction requests generalizing d with
  | nil => exact .refl d
  | cons r rest ih => exact (unfolds_serve d r).trans (ih _)

/-- **The desk of the program**: after each list of requests, when nobody is ready, each fetch that
is not over waits for a consumer that is there and has nothing, and its deadline is yet to come. -/
theorem quiet_serve (b : Broker) (requests : List Request) {d : Desk}
    (hd : d = requests.foldl (fun d r ↦ (d.serve r).2) { broker := b })
    (hready : d.scheduler.ready = []) {e : Errand} (he : d.errands[n]? = some e)
    (hlives : e.isOver = false) :
    ∃ f, e = .waiting f ∧ d.broker.Empty f.consumer ∧ d.scheduler.now < f.deadline := by
  obtain ⟨course, hcourse⟩ := unfolds_foldl_serve { broker := b } requests
  rw [← hd] at hcourse
  subst hcourse
  exact quiet_of_sound (sound_unfold b course) hready he hlives

end PullConsumer.Broker.Desk
