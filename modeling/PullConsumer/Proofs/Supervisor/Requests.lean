import PullConsumer.Proofs.Supervisor.Silence
import PullConsumer.Proofs.Supervisor.Turns

/-!
# When a puller begins a fetch

A puller that has found a slot sets out for the broker (`reaching`), and there it begins its fetch.
That is one thing only if nothing can come in between. This is said here in two parts.

* Only a puller that has set out begins a fetch (`State.askers_move`): nobody else writes into the
  journal that a fetch has begun, and the puller itself writes it in no other phase.
* Where requests need no time on their way, a puller that sets out is expected at once
  (`State.Instant`). At the end of a turn everyone rests (`Runs.rests`), and who has set out rests
  only if he is expected later. So no puller is on its way to the broker between two of its turns
  (`Runs.not_reaching`).
-/

namespace PullConsumer.Supervisor

/-! ### Who begins fetches -/

namespace State

variable {s t : State} {n : Nat} {p : Puller}

@[simp] theorem askers_measure (s : State) (sub : Nat) (m : Measurement) :
    askers (s.measure sub m).journal = askers s.journal :=
  congrArg (fun b : Books ↦ askers b.journal) (books_measure s sub m)

@[simp] theorem askers_publishFor (s : State) (sub : Nat) (e : Event) :
    askers (s.publishFor sub e).journal = askers s.journal :=
  congrArg (fun b : Books ↦ askers b.journal) (books_publishFor s sub e)

@[simp] theorem askers_giveBackSlot (s : State) (sub : Nat) :
    askers (s.giveBackSlot sub).journal = askers s.journal :=
  congrArg (fun b : Books ↦ askers b.journal) (books_giveBackSlot s sub)

@[simp] theorem askers_reportFatal (s : State) (n : Nat) (p : Puller) (cause : BrokerError) :
    askers (s.reportFatal n p cause).journal = askers s.journal :=
  congrArg (fun b : Books ↦ askers b.journal) (books_reportFatal s n p cause)

@[simp] theorem askers_goTo (s : State) (n : Nat) (phase : Puller.Phase) :
    askers (s.goTo n phase).1.journal = askers s.journal := rfl

theorem askers_bindStep (errors : List String) :
    askers (s.bindStep n p errors).1.journal = askers s.journal := by
  obtain ⟨answer, x, htry⟩ : ∃ answer x, s.tryBind p = (answer, { s with broker := x }) := by
    rw [tryBind]
    split <;> exact ⟨_, _, rfl⟩
  rw [bindStep]
  simp only [htry]
  cases answer with
  | ok _ => rfl
  | error cause =>
    dsimp only
    split
    · split
      · rfl
      · split <;> rfl
    · split
      · rfl
      · simp

theorem askers_headStep : askers (s.headStep n p).1.journal = askers s.journal := by
  rw [headStep]
  split
  · rfl
  · set t := (s.note (.gauge p.sub (s.inUse p.sub))).measure p.sub (.concurrency (s.inUse p.sub))
      with ht
    have hsame : askers t.journal = askers s.journal := by
      rw [ht, askers_measure]
      rfl
    dsimp only
    split
    · next u htake =>
      obtain ⟨pool, pool', -, -, rfl⟩ := takeSlot?_eq_some htake
      exact hsame
    · exact hsame

theorem askers_fetchStep (f : Broker.Fetch) (found : Broker.Fetch.Progress × Broker) :
    askers (s.fetchStep n p f found).1.journal = askers s.journal := by
  obtain ⟨progress, x⟩ := found
  rw [fetchStep]
  cases progress with
  | waiting => rfl
  | finished answer =>
    cases answer with
    | ok d => rfl
    | error cause =>
      cases cause with
      | timeout d => rfl
      | _ => simp

/-- A puller that has set out and is expected at the broker may begin a fetch; in no other step does
it begin one. -/
theorem askers_pullerStep (n : Nat) (p : Puller) :
    askers (s.pullerStep n p).1.journal = askers s.journal ∨
      (∃ due, p.phase = .reaching due) ∧
        askers (s.pullerStep n p).1.journal = n :: askers s.journal := by
  rw [pullerStep]
  cases hphase : p.phase with
  | fresh => exact Or.inl rfl
  | binding errors => exact Or.inl (askers_bindStep errors)
  | rebinding errors due =>
    refine Or.inl ?_
    dsimp only
    split
    · rfl
    · split <;> rfl
  | head => exact Or.inl askers_headStep
  | crowded due =>
    refine Or.inl ?_
    dsimp only
    split
    · rfl
    · split <;> rfl
  | reaching due =>
    dsimp only
    split
    · rcases s.reachStep_cases n p with ⟨f, hstep⟩ | ⟨cause, hstep⟩
      · rw [hstep]
        exact Or.inr ⟨⟨due, rfl⟩, askers_fetchStep (s := s.note (.fetchBegun n)) ..⟩
      · rw [hstep]
        exact Or.inl rfl
    · exact Or.inl rfl
  | fetching f => exact Or.inl (askers_fetchStep ..)
  | leaving =>
    refine Or.inl ?_
    dsimp only
    split <;> rfl
  | finished => exact Or.inl rfl
  | crashed cause => exact Or.inl rfl

/-- A puller has set out for the broker and has not begun its fetch. -/
def IsReaching (s : State) (n : Nat) : Prop :=
  ∃ p due, s.pullers[n]? = some p ∧ p.phase = .reaching due

/-- **A fetch begins in a step of a puller that has set out**, and in no other move. -/
theorem askers_move (s : State) (m : Move) :
    askers (s.move m).journal = askers s.journal ∨
      ∃ n, m = .pull n ∧ s.IsReaching n ∧
        askers (s.move m).journal = n :: askers s.journal := by
  have huser (hm : m.isOfUser = true) : askers (s.move m).journal = askers s.journal :=
    congrArg (fun b : Books ↦ askers b.journal) (s.books_of_user hm).1
  cases m with
  | pull n =>
    cases hp : s.pullers[n]? with
    | none =>
      rw [move, hp]
      exact Or.inl rfl
    | some p =>
      rw [move_pull hp]
      refine (s.askers_pullerStep n p).imp id ?_
      rintro ⟨⟨due, hphase⟩, hasks⟩
      exact ⟨n, rfl, ⟨p, due, hp, hphase⟩, hasks⟩
  | work n =>
    rcases jobTurn_cases s n with ⟨hturn, -⟩ | ⟨j, -, -, hworks⟩
    · exact Or.inl ((congrArg (fun t : State ↦ askers t.journal) hturn).trans rfl)
    · exact Or.inl hworks.askers
  | listen => exact Or.inl (watches_listenerTurn s).askers
  | observe n => exact Or.inl (watches_observerTurn s n).askers
  | pursue n =>
    cases hc : s.calls[n]? with
    | none =>
      rw [move, hc]
      exact Or.inl rfl
    | some c =>
      obtain ⟨c', taken, left, entries, -, hpursued⟩ := pursues_move hc
      exact Or.inl hpursued.askers
  | _ => exact Or.inl (huser rfl)

/-! ### Requests that need no time -/

/-- Who has set out for the broker is expected there by now. -/
def Instant (s : State) : Prop :=
  ∀ (n : Nat) (p : Puller) (due : Nat), s.pullers[n]? = some p → p.phase = .reaching due →
    due ≤ s.now

theorem Instant.move (h : s.Instant) (hticks : s.setup.client.fetchTicks = 0) (m : Move) :
    (s.move m).Instant := by
  have hnow := s.now_le_move m
  intro k q due hq hphase
  by_cases hm : m = .pull k
  · subst hm
    cases hp : s.pullers[k]? with
    | none =>
      rw [State.move, hp] at hq
      exact absurd (hp.symm.trans hq) (by simp)
    | some p =>
      obtain ⟨⟨phase, entries, hstride, hstrode, -⟩, -⟩ := strides_move hp
      obtain rfl := Option.some.inj ((hstrode.puller hp).symm.trans hq)
      obtain rfl : phase = .reaching due := hphase
      generalize s.bindAnswer? p = bind, s.fetchAnswer? p = fetch at hstride
      generalize hreaching : Puller.Phase.reaching due = phase at hstride
      cases hstride with
      | wait => exact (h k p due hp hreaching.symm).trans hnow
      | retry _ hretry =>
        rcases hretry with hretry | ⟨due', hretry⟩ <;> exact absurd (hreaching.trans hretry) (by simp)
      | round _ _ hreach =>
        obtain ⟨-, rfl⟩ := hreach due hreaching.symm
        rw [hticks, Nat.add_zero]
        exact hnow
      | _ => exact absurd hreaching (by simp)
  · rcases s.puller_of_move hm with hsame | ⟨-, q', hq', hfresh⟩
    · exact (h k q due (hsame ▸ hq) hphase).trans hnow
    · obtain rfl := Option.some.inj (hq.symm.trans hq')
      exact absurd (hphase.symm.trans hfresh) (by simp)

end State

/-- Where requests need no time, nobody who has set out is still expected. -/
theorem Runs.instant {allowed : State → Move → Prop} {plan : Plan} {s t : State}
    (hbuild : plan.build = .ok s) (hticks : plan.client.fetchTicks = 0) (hrun : Runs allowed s t) :
    t.Instant := by
  obtain ⟨setup, slots, -, -, hclient, -, hbooks, -⟩ := Plan.of_build hbuild
  have hinstant : s.setup.client.fetchTicks = 0 := by
    rw [show s.setup = setup from congrArg Books.setup hbooks, hclient, hticks]
  induction hrun with
  | refl =>
    intro n p due hp
    rw [show s.pullers = [] from congrArg Books.pullers hbooks] at hp
    exact absurd hp (by simp)
  | @tail u _ hrun hlast ih =>
    obtain ⟨m, -, rfl⟩ := hlast
    exact ih.move (by rwa [Runs.setup_eq hrun]) m

/-- **Between two of its turns no puller is on its way to the broker** where requests need no time. -/
theorem Runs.not_reaching {allowed : State → Move → Prop} {plan : Plan} {s t : State}
    (hbuild : plan.build = .ok s)
    (hchecked : ∀ x ∈ plan.subscriptions, ∃ d : Subscription.Draft, d.build = .ok x)
    (hticks : plan.client.fetchTicks = 0) (hrun : Runs allowed s t) {n : Nat} {p : Puller}
    (hp : t.pullers[n]? = some p) : ¬ (State.pullerTurn n t).IsReaching n := by
  rintro ⟨q, due, hq, hphase⟩
  obtain ⟨phase, hq', hrests⟩ := Runs.rests hbuild hchecked hrun hp
  obtain rfl := Option.some.inj (hq.symm.trans hq')
  have hturn : Runs anything s (State.pullerTurn n t) :=
    (hrun.mono fun _ _ _ ↦ trivial).trans ((t.runs_turn (.puller n)).mono fun _ _ _ ↦ trivial)
  have hdue := hturn.instant hbuild hticks n _ due hq hphase
  rw [State.Rests, hphase] at hrests
  exact absurd hrests (Nat.not_lt.2 hdue)

end PullConsumer.Supervisor
