import PullConsumer.Proofs.Supervisor.Launches

/-!
# How calls are answered

A call is answered in a step of its own, when it has found everything idle or its grace period is
over (`State.Concludes`); a run may also be refused when it is made. What the step tells the world
and what the call answers go together, unless the call is a run that a failure has ended: then the
failure is the answer.

The failures that a call has heard of are failures of subscriptions, and no others
(`Runs.hearsay`). So whoever is told of a grace period that was exceeded is told of its own.
-/

namespace PullConsumer.Supervisor

/-! ### What calls hear of -/

/-- All that a call has heard of are failures of subscriptions. -/
def Call.Hearsay (c : Call) : Prop :=
  ∀ r, r ∈ c.reports ∨ c.failure = some r → ∃ name cause, r = .subscriptionFailed name cause

namespace Call.Hearsay

variable {c c' : Call}

theorem of_isNew (h : c.IsNew) : c.Hearsay := by
  intro r hr
  rw [h.reports, h.failure] at hr
  exact absurd hr (by simp)

theorem hears (h : c.Hearsay) (hc : c.Hears c') : c'.Hearsay := by
  obtain ⟨reports, interrupt, hreports, rfl⟩ := hc
  rintro r (hr | hr)
  · exact (List.mem_append.1 hr).elim (fun hr ↦ h r (Or.inl hr)) (hreports r)
  · exact h r (Or.inr hr)

theorem pursuit (h : c.Hearsay) {s : State} {i : Nat} {taken : Option Running}
    {left : List Nat} {entries : List Entry} (hc : Pursuit s i c c' taken left entries) :
    c'.Hearsay := by
  cases hc with
  | line _ hfailure =>
    rintro r (hr | hr)
    · exact h r (Or.inl hr)
    · exact h r (hfailure r hr)
  | _ => exact h

theorem fares (h : c.Hearsay) {s : State} {m : Move} {i : Nat} (hc : State.Fares s m i c c') :
    c'.Hearsay := by
  cases hc with
  | hears hc => exact h.hears hc
  | pursues _ hc _ => exact h.pursuit hc
  | dropped _ _ hc => exact hc ▸ h

end Call.Hearsay

/-- What was true of all calls stays true if it is true of new calls and of what becomes of old
ones. -/
theorem State.forall_calls_move {s : State} {P : Call → Prop} (h : ∀ c ∈ s.calls, P c)
    (hnew : ∀ c, c.IsNew → P c) (m : Move)
    (hfares : ∀ i c c', Fares s m i c c' → P c → P c') : ∀ c ∈ (s.move m).calls, P c := by
  intro c' hc'
  obtain ⟨i, hi⟩ := List.mem_iff_getElem?.1 hc'
  cases hc : s.calls[i]? with
  | none => exact hnew c' (s.call_new hc hi)
  | some c =>
    obtain ⟨d, hd, hfare⟩ := s.call_of_move hc m
    obtain rfl : d = c' := Option.some.inj (hd.symm.trans hi)
    exact hfares i c d hfare (h c (List.mem_of_getElem? hc))

/-- **Calls hear of failures of subscriptions only**, all along a run. -/
theorem Runs.hearsay {allowed : State → Move → Prop} {plan : Plan} {s t : State}
    (hbuild : plan.build = .ok s) (h : Runs allowed s t) : ∀ c ∈ t.calls, c.Hearsay := by
  induction h with
  | refl =>
    obtain ⟨setup, slots, -, -, -, -, -, hcalls, -⟩ := Plan.of_build hbuild
    rw [hcalls]
    exact fun c hc ↦ absurd hc List.not_mem_nil
  | tail _ hlast ih =>
    obtain ⟨m, -, rfl⟩ := hlast
    exact State.forall_calls_move ih (fun _ ↦ .of_isNew) m fun _ _ _ hfare hc ↦ hc.fares hfare

/-! ### Answers -/

namespace State

variable {s : State} {m : Move} {i tick : Nat} {r : Except RuntimeError Unit}

/-- A call comes to be answered in a move. -/
def Answers (s : State) (m : Move) (i tick : Nat) (r : Except RuntimeError Unit) : Prop :=
  (s.calls[i]?).bind Call.answer? = none ∧
    ((s.move m).calls[i]?).bind Call.answer? = some (tick, r)

/-- **How a drain ends** that has come to a phase, and what the world is told of it. -/
inductive Concludes (s : State) (phase : Call.Phase) : Except RuntimeError Unit → List Entry → Prop
  | drained {sub : Nat} (hphase : phase = .emptying sub) :
      Concludes s phase (.ok ()) [.published (.of .drained)]
  | exceeded (h : s.Lingers phase) : Concludes s phase
      (.error (.graceExceeded s.setup.settings.grace s.busy))
      [.published (((Event.of .graceExceeded).withTimeout s.setup.settings.grace).withReason
        (Text.joined ", " s.busy))]

theorem answer?_eq_some {c : Call} (h : c.answer? = some (tick, r)) :
    c.phase = .returned tick r := by
  rw [Call.answer?] at h
  split at h
  · next hphase =>
    cases h
    exact hphase
  · exact absurd h (by simp)

/-- **A call is refused when it is made, or it is answered in its own step, when it has drained or
its grace period is over.** -/
theorem answers_cases (h : s.Answers m i tick r) :
    (s.calls[i]? = none ∧ r = .error .alreadyStarted) ∨
    ∃ c result, m = .pursue i ∧ s.calls[i]? = some c ∧ tick = s.now ∧ r = c.answer result ∧
      s.Concludes c.phase result (s.tells m) ∧ (s.move m).stopping = s.stopping := by
  obtain ⟨hbefore, hafter⟩ := h
  obtain ⟨c', hc', hanswer⟩ := Option.bind_eq_some_iff.1 hafter
  have hreturned := answer?_eq_some hanswer
  cases hc : s.calls[i]? with
  | none => exact Or.inl ⟨rfl, (s.call_new hc hc').answer tick r hreturned⟩
  | some c =>
    refine Or.inr ⟨c, ?_⟩
    have hopen : ∀ tick r, c.phase ≠ .returned tick r := by
      intro tick r hphase
      rw [hc, Option.bind_some, Call.answer?, hphase] at hbefore
      exact absurd hbefore (by simp)
    obtain ⟨d, hd, hfares⟩ := s.call_of_move hc m
    obtain rfl : d = c' := Option.some.inj (hd.symm.trans hc')
    cases hfares with
    | hears hears =>
      obtain ⟨reports, interrupt, -, rfl⟩ := hears
      exact absurd hreturned (hopen tick r)
    | dropped _ _ hdropped =>
      rw [hdropped] at hreturned
      exact absurd hreturned (by simp)
    | pursues hm hpursuit hpursued =>
      have htells := State.tells_eq hpursued.told
      subst hm
      cases hpursuit with
      | rest _ => exact absurd hreturned (hopen tick r)
      | line _ _ => exact absurd hreturned (by simp)
      | take _ _ => exact absurd hreturned (by simp)
      | join _ _ _ => exact absurd hreturned (hopen tick r)
      | onward _ => exact absurd hreturned (by simp)
      | finish hphase _ =>
        obtain ⟨rfl, rfl⟩ := Call.Phase.returned.inj hreturned
        exact ⟨.ok (), rfl, rfl, rfl, rfl, htells ▸ .drained hphase, hpursued.stopping⟩
      | expire hwait _ _ =>
        obtain ⟨rfl, rfl⟩ := Call.Phase.returned.inj hreturned
        exact ⟨_, rfl, rfl, rfl, rfl, htells ▸ .exceeded hwait, hpursued.stopping⟩

end State

end PullConsumer.Supervisor
