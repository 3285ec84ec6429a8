import PullConsumer.Proofs.Supervisor.Records

/-!
# Who has to stop whom

Calls and starts share three things: what was started and not taken over yet, the pullers that were
told to stop, and the line of the calls that drain or wait to do so. Together with the phases of the
calls this is the `Control` of a state. Everything that can become of it, short of a start, is an
`Order`. No puller, no job and no observer gives one (`State.order_move`).

## What is kept

No puller that is still at work is forgotten: it belongs to what was started, or is among those that
were told to stop. And only the first call in the line drains (`Led`). Both hold all along a run
(`Runs.led`), whatever calls are made and given up.
-/

namespace PullConsumer.Supervisor

/-- A call that is draining. -/
def Call.Phase.isDraining : Call.Phase → Bool
  | joining => true
  | emptying _ => true
  | _ => false

/-- A call that is draining or has drained. -/
def Call.Phase.isDrain : Call.Phase → Bool
  | joining => true
  | emptying _ => true
  | returned _ (.ok _) => true
  | _ => false

theorem Call.Phase.isDrain_of_isDraining {phase : Call.Phase} (h : phase.isDraining = true) :
    phase.isDrain = true := by
  cases phase <;> first | rfl | exact absurd h (by simp [isDraining])

/-- A call whose phase was set has the phase that was set. -/
theorem Call.phase_of_set {phases : List Call.Phase} {n : Nat} {x y : Call.Phase}
    (h : (phases.set n x)[n]? = some y) : x = y := by
  have hlt : n < phases.length := by simpa using (List.getElem?_eq_some_iff.1 h).1
  rw [List.getElem?_set_self hlt] at h
  exact Option.some.inj h

/-- **Everything that calls do to the control.** Starts that succeed are treated apart. -/
inductive Order (b : Books) (c : Control) : Control → Prop
  | rest : Order b c c
  /-- Calls are made; none of them drains yet. -/
  | enter {phases : List Call.Phase} (line : List Nat) (h : ∀ x ∈ phases, x.isDrain = false) :
      Order b c { c with phases := c.phases ++ phases, draining := c.draining ++ line }
  /-- A run has what ends it and stands in line. -/
  | line {n : Nat} : Order b c { c with
      phases := c.phases.set n .queued, draining := c.draining ++ [n] }
  /-- The first call in line takes over what was started. -/
  | take {n : Nat} (hhead : c.draining.head? = some n) : Order b c { c with
      phases := c.phases.set n .joining
      running := none
      stopping := c.stopping ++ (c.running.map Running.pullers).getD [] }
  /-- A puller that was waited for is over. -/
  | pop {i : Nat} (hlast : c.stopping.getLast? = some i)
      (hover : ∀ p, b.pullers[i]? = some p → p.isOver = true) :
      Order b c { c with stopping := c.stopping.dropLast }
  /-- All pullers are over. -/
  | joined {n : Nat} (hphase : c.phases[n]? = some .joining) (hstopping : c.stopping = []) :
      Order b c { c with phases := c.phases.set n (.emptying 0) }
  /-- A subscription is found idle. -/
  | idle {n sub : Nat} (hphase : c.phases[n]? = some (.emptying sub)) (hidle : b.inUse sub = 0) :
      Order b c { c with phases := c.phases.set n (.emptying (sub + 1)) }
  /-- All subscriptions were found idle and the call returns. -/
  | finish {n sub tick : Nat} {result : Except RuntimeError Unit}
      (hphase : c.phases[n]? = some (.emptying sub))
      (hsub : b.setup.subscriptions.length ≤ sub) : Order b c { c with
        phases := c.phases.set n (.returned tick result), draining := c.draining.erase n }
  /-- A call is given up or fails. -/
  | leave {n : Nat} {phase : Call.Phase} (h : phase.isDrain = false) : Order b c { c with
      phases := c.phases.set n phase, draining := c.draining.erase n }

namespace State

variable {s : State} {n : Nat}

/-! ### What leaves the control alone -/

@[simp] theorem control_note (s : State) (e : Entry) : (s.note e).control = s.control := rfl

@[simp] theorem control_notify (s : State) (x : Signal) : (s.notify x).control = s.control := rfl

@[simp] theorem control_publish (s : State) (e : Event) : (s.publish e).control = s.control := rfl

@[simp] theorem control_publishFor (s : State) (sub : Nat) (e : Event) :
    (s.publishFor sub e).control = s.control := rfl

@[simp] theorem control_measure (s : State) (sub : Nat) (m : Measurement) :
    (s.measure sub m).control = s.control := by
  rw [measure]
  split <;> rfl

@[simp] theorem control_goTo (s : State) (n : Nat) (phase : Puller.Phase) :
    (s.goTo n phase).1.control = s.control := rfl

@[simp] theorem control_finishJob (s : State) (j : Job) : (s.finishJob j).control = s.control := rfl

theorem control_cancel (s : State) (token : Nat) : (s.cancel token).control = s.control := by
  have key : ∀ (ns : List Nat) (s : State),
      (ns.foldl (fun s n ↦ { s with tokens := s.tokens.modify n fun t ↦
        { t with cancelled := true } }.notify (.cancelled n)) s).control = s.control := by
    intro ns
    induction ns with
    | nil => exact fun s ↦ rfl
    | cons n rest ih => exact fun s ↦ ih _
  exact key _ s

/-- Of a call that is changed only the phase matters. -/
theorem phases_modify {calls : List Call} {c : Call} (hc : calls[n]? = some c) (f : Call → Call) :
    (calls.modify n f).map Call.phase = (calls.map Call.phase).set n (f c).phase := by
  have hset : calls.modify n f = calls.set n (f c) := by
    rw [List.modify_eq_set_getElem?, hc]
    rfl
  rw [hset, List.map_set]

theorem phases_modify_of_phase {f : Call → Call} (hf : ∀ c, (f c).phase = c.phase)
    (calls : List Call) (n : Nat) : (calls.modify n f).map Call.phase = calls.map Call.phase := by
  refine List.ext_getElem? fun i ↦ ?_
  rw [List.getElem?_map, List.getElem?_modify, List.getElem?_map]
  by_cases hi : n = i <;> simp [hi, Option.map_map, Function.comp_def, hf]

@[simp] theorem control_reportFatal (s : State) (n : Nat) (p : Puller) (cause : BrokerError) :
    (s.reportFatal n p cause).control = s.control := by
  rw [reportFatal]
  split
  · rfl
  · next call _ =>
    rw [control_notify]
    simp only [control, Control.mk.injEq]
    exact ⟨phases_modify_of_phase (fun _ ↦ by rfl) _ call, rfl, rfl, rfl⟩

theorem control_bindStep (s : State) (n : Nat) (p : Puller) (errors : List String) :
    (s.bindStep n p errors).1.control = s.control := by
  have htry : (s.tryBind p).2.control = s.control := by
    rw [tryBind]
    split <;> rfl
  rw [bindStep]
  dsimp only
  split
  · exact htry
  · split
    · split
      · exact htry
      · split <;> exact htry
    · split
      · exact htry
      · rw [control_goTo, control_reportFatal, control_publishFor, control_measure]
        exact htry

theorem control_headStep (s : State) (n : Nat) (p : Puller) :
    (s.headStep n p).1.control = s.control := by
  rw [headStep]
  split
  · rfl
  · dsimp only
    split
    · next t htake =>
      obtain ⟨pool, pool', -, -, rfl⟩ := takeSlot?_eq_some htake
      exact control_measure ..
    · exact control_measure ..

theorem control_fetchStep (s : State) (n : Nat) (p : Puller) (f : Broker.Fetch)
    (found : Broker.Fetch.Progress × Broker) : (s.fetchStep n p f found).1.control = s.control := by
  rw [fetchStep]
  dsimp only
  split
  · rfl
  · rfl
  · rfl
  · rw [control_goTo, control_reportFatal, control_publishFor, control_measure]
    rfl

theorem control_pullerStep (s : State) (n : Nat) (p : Puller) :
    (s.pullerStep n p).1.control = s.control := by
  rw [pullerStep]
  split
  · rfl
  · exact control_bindStep ..
  · split
    · rfl
    · split <;> rfl
  · exact control_headStep ..
  · split
    · rfl
    · split <;> rfl
  · split
    · rcases reachStep_cases s n p with ⟨f, hstep⟩ | ⟨cause, hstep⟩
      · rw [hstep]
        exact control_fetchStep ..
      · rw [hstep]
        rfl
    · rfl
  · exact control_fetchStep ..
  · split <;> rfl
  · rfl
  · rfl

theorem control_settlementFailed (s : State) (j : Job) (x : Settlement) (reason : String) :
    (s.settlementFailed j x reason).control = s.control := by
  rw [settlementFailed]
  simp only [control_publishFor, control_measure, control_note]

theorem control_settleStep (s : State) (j : Job) (outcome : Outcome) (answerDue : Nat)
    (giveUpDue : Option Nat) :
    (s.settleStep j outcome answerDue giveUpDue).control = s.control := by
  have hnow : (s.settleNow j outcome).control = s.control := by
    rw [settleNow]
    dsimp only
    split
    · rw [control_settlementFailed]
      split <;> rfl
    · split
      · rw [control_note]
        split <;> rfl
      · rw [control_publishFor, control_note]
        split <;> rfl
  rw [settleStep]
  split
  · rw [control_finishJob, hnow]
  · split
    · rw [control_finishJob, control_settlementFailed]
    · rfl

theorem control_actOn (s : State) (j : Job) (plan : List Handler.Act) :
    (s.actOn j plan).control = s.control := by
  rw [actOn]
  split
  · unfold handled
    dsimp only
    rw [control_settleStep]
    split
    · simp only [control_publishFor, control_measure, control_note]
    · simp only [control_measure, control_note]
  · rfl
  · rfl

theorem control_callHandler (s : State) (j : Job) : (s.callHandler j).control = s.control := by
  have hlag : (s.recordLag j).control = s.control := by
    unfold recordLag
    dsimp only
    split
    · split <;> exact control_measure ..
    · exact control_measure ..
  rw [callHandler]
  dsimp only
  rw [control_actOn]
  exact hlag

theorem control_jobTurn (s : State) (n : Nat) : (s.jobTurn n).control = s.control := by
  unfold jobTurn
  dsimp only
  split
  · rfl
  · split
    · exact control_callHandler ..
    · split
      · exact control_actOn ..
      · rfl
    · split
      · exact control_actOn ..
      · rfl
    · exact control_settleStep ..

theorem control_publishAll (es : List Event) (s : State) :
    (s.publishAll es).control = s.control := by
  induction es generalizing s with
  | nil => rfl
  | cons e rest ih => exact ih _

theorem control_foldl_queued (ks : List Nat) (s : State) :
    (ks.foldl (fun s k ↦ s.notify (.queued k)) s).control = s.control := by
  induction ks generalizing s with
  | nil => rfl
  | cons k rest ih => exact ih _

theorem control_readRing (budget position : Nat) (s : State) :
    (readRing budget position s).control = s.control := by
  induction budget generalizing position s with
  | zero => rfl
  | succ budget ih =>
    rw [readRing]
    split
    · rw [ih]
      rw [emit]
      dsimp only
      rw [control_publishAll, control_foldl_queued]
      rfl
    · exact ih ..
    · dsimp only
      split
      · rw [stopListening]
        rw [control_foldl_queued]
        rfl
      · rfl

theorem control_listenerTurn (s : State) : s.listenerTurn.control = s.control := by
  unfold listenerTurn
  dsimp only
  split
  · exact control_readRing ..
  · rfl

theorem control_observerTurn (s : State) (n : Nat) : (s.observerTurn n).control = s.control := by
  rw [observerTurn]
  dsimp only
  split
  · rfl
  · split
    · exact control_publishAll ..
    · exact control_publishAll ..

/-! ### What calls do -/

theorem control_changeCall {c : Call} (hc : s.calls[n]? = some c) (f : Call → Call) :
    (s.changeCall n f).control =
      { s.control with phases := s.control.phases.set n (f c).phase } := by
  simp only [control, changeCall, Control.mk.injEq, and_true]
  exact phases_modify hc f

theorem control_leaveLine (s : State) (n : Nat) : (s.leaveLine n).hangUp.control =
    { s.control with draining := s.control.draining.erase n } := by
  rw [leaveLine]
  dsimp only
  split <;> rfl

theorem control_answerCall {c : Call} (hc : s.calls[n]? = some c)
    (result : Except RuntimeError Unit) : ∃ r, (s.answerCall n result).control = { s.control with
      phases := s.control.phases.set n (.returned s.now r)
      draining := s.control.draining.erase n } ∧
      (result.isOk = false → r.isOk = false) := by
  rw [answerCall]
  rw [control_leaveLine, control_changeCall hc]
  refine ⟨_, rfl, fun hresult ↦ ?_⟩
  split
  · rfl
  · exact hresult

theorem order_dropCall {c : Call} (hc : s.calls[n]? = some c) :
    Order s.books s.control (s.dropCall n).control := by
  rw [dropCall]
  rw [control_leaveLine, control_changeCall hc]
  exact .leave rfl

theorem control_takeOver (s : State) (reason : Option String) :
    (s.takeOver reason).control = { s.control with
      running := none
      stopping := s.stopping ++ (s.running.map Running.pullers).getD [] } := by
  have key (t : State) (ns : List Nat) :
      State.control { t with running := none, stopping := t.stopping ++ ns } =
        { t.control with running := none, stopping := t.control.stopping ++ ns } := rfl
  rw [takeOver]
  split
  · next hnone => simp [control, hnone]
  · next r hr =>
    dsimp only
    rw [key, control_cancel, control_publish, hr]
    rfl

theorem order_waitDraining {c : Call} (hc : s.calls[n]? = some c) (x : Signal) :
    Order s.books s.control (s.waitDraining n c x).1.control := by
  rw [waitDraining]
  dsimp only
  split
  · exact .rest
  · split
    · obtain ⟨r, hanswer, hfailed⟩ := control_answerCall (s := (s.listen x .user).publish
        (((Event.of .graceExceeded).withTimeout s.setup.settings.grace).withReason
          (Text.joined ", " (s.listen x .user).busy))) hc
        (.error (.graceExceeded s.setup.settings.grace (s.listen x .user).busy))
      have hdrain (tick : Nat) : (Call.Phase.returned tick r).isDrain = false := by
        cases r with
        | ok _ => exact absurd (hfailed rfl) (by simp [Except.isOk, Except.toBool])
        | error _ => rfl
      exact hanswer.symm ▸ .leave (hdrain _)
    · exact .rest

/-- **A step of a call gives at most one order.** -/
theorem order_callStep {c : Call} (hc : s.calls[n]? = some c) :
    Order s.books s.control (s.callStep n c).1.control := by
  have hphase {phase : Call.Phase} (h : c.phase = phase) : s.control.phases[n]? = some phase := by
    simp [control, hc, h]
  have hline (f : Call → Call) : Order s.books s.control (s.joinLine n f).1.control := by
    have hchange := control_changeCall hc fun c ↦ { f c with phase := .queued }
    have hjoin : (s.joinLine n f).1.control = { s.control with
        phases := s.control.phases.set n .queued, draining := s.control.draining ++ [n] } :=
      congrArg (fun x : Control ↦ { x with draining := s.draining ++ [n] }) hchange
    exact hjoin ▸ .line
  rw [callStep]
  split
  · split
    · exact hline _
    · exact hline _
    · exact .rest
  · split
    · next hhead =>
      have hphases : (s.takeOver c.reason).calls.map Call.phase = s.calls.map Call.phase :=
        congrArg Control.phases (control_takeOver s c.reason)
      obtain ⟨c', hc', -⟩ : ∃ c', (s.takeOver c.reason).calls[n]? = some c' ∧
          c'.phase = c.phase := by
        rw [← Option.map_eq_some_iff, ← List.getElem?_map, hphases, List.getElem?_map, hc]
        rfl
      rw [control_changeCall hc', control_takeOver]
      exact .take hhead
    · exact .rest
  · next hjoining =>
    split
    · next hlast =>
      rw [control_changeCall hc]
      exact .joined (hphase hjoining) (List.getLast?_eq_none_iff.1 hlast)
    · next i hlast =>
      split
      · next hover =>
        refine .pop hlast fun p hp ↦ ?_
        change s.pullers[i]? = some p at hp
        simpa [hp] using hover
      · exact order_waitDraining hc _
  · next sub hemptying =>
    split
    · split
      · next hidle =>
        rw [control_changeCall hc]
        exact .idle (hphase hemptying) (of_decide_eq_true hidle)
      · exact order_waitDraining hc _
    · next hsub =>
      obtain ⟨r, hanswer, -⟩ := control_answerCall (s := s.publish (Event.of .drained)) hc (.ok ())
      exact hanswer.symm ▸ .finish (hphase hemptying) (Nat.le_of_not_lt hsub)
  · exact .rest
  · exact .rest

/-- An interrupt marks the calls that watch for one, and they go on watching. -/
theorem control_interrupt (s : State) (name : String) : (s.interrupt name).control = s.control := by
  have hphases : (s.interrupt name).calls.map Call.phase = s.calls.map Call.phase := by
    rw [interrupt, notify]
    rw [List.map_map]
    refine List.map_congr_left fun c _ ↦ ?_
    rw [Function.comp_apply]
    split <;> rfl
  exact congrArg (fun x ↦ { s.control with phases := x }) hphases

/-! ### Moves -/

theorem order_enter (s : State) {c : Call} (h : c.phase.isDrain = false) :
    Order s.books s.control (s.enter c).control := by
  have hnew : ∀ x ∈ [c.phase], x.isDrain = false := by simpa using h
  have hphases : (s.calls ++ [c]).map Call.phase = s.control.phases ++ [c.phase] := by
    simp [control]
  rw [enter]
  cases hphase : c.phase with
  | queued =>
    have henter := Order.enter (b := s.books) (c := s.control) [s.calls.length] hnew
    rw [← hphases] at henter
    exact henter
  | _ =>
    have henter := Order.enter (b := s.books) (c := s.control) [] hnew
    rw [← hphases, List.append_nil] at henter
    exact henter

/-- **A move gives at most one order**, unless it is a start that succeeds. -/
theorem order_move (s : State) (m : Move) :
    Order s.books s.control (s.move m).control ∧
      (Deeds s.books (s.move m).books ∨ ∃ x, m = .meddle x) ∨
    m.isStart = true ∧ ∃ phases, Starts s (s.move m) phases := by
  have hdeeds (h : m.isStart = false) :
      Deeds s.books (s.move m).books ∨ ∃ x, m = .meddle x := by
    rcases s.move_cases m with hdeeds | ⟨hstart, -⟩ | ⟨x, hm, -⟩
    · exact Or.inl hdeeds
    · exact absurd hstart (by simp [h])
    · exact Or.inr ⟨x, hm⟩
  have hsame (h : m.isStart = false) (hcontrol : (s.move m).control = s.control) :
      Order s.books s.control (s.move m).control ∧
        (Deeds s.books (s.move m).books ∨ ∃ x, m = .meddle x) :=
    ⟨hcontrol ▸ .rest, hdeeds h⟩
  cases m with
  | pull n =>
    refine Or.inl (hsame rfl ?_)
    unfold move
    dsimp only
    split
    · exact control_pullerStep ..
    · rfl
  | work n => exact Or.inl (hsame rfl (control_jobTurn ..))
  | listen => exact Or.inl (hsame rfl (control_listenerTurn ..))
  | observe n => exact Or.inl (hsame rfl (control_observerTurn ..))
  | pursue n =>
    refine Or.inl ⟨?_, hdeeds rfl⟩
    unfold move
    dsimp only
    split
    · next c hc => exact order_callStep hc
    · exact .rest
  | giveUp n =>
    refine Or.inl ⟨?_, hdeeds rfl⟩
    unfold move
    dsimp only
    split
    · exact .rest
    · next hover =>
      cases hc : s.calls[n]? with
      | none => exact absurd (by simp [isOver, hc]) hover
      | some c => exact order_dropCall hc
  | start parent =>
    rcases s.start_cases parent .callback with ⟨e, hstart⟩ | ⟨t, hstart, hstarts⟩
    · have hmove : s.move (.start parent) = s := congrArg Prod.snd hstart
      rw [hmove]
      exact Or.inl ⟨.rest, Or.inl .refl⟩
    · have hmove : s.move (.start parent) = t := congrArg Prod.snd hstart
      rw [hmove]
      exact Or.inr ⟨rfl, [], hstarts⟩
  | callRun patience =>
    have hmove : s.move (.callRun patience) = s.enterRun patience := rfl
    rw [hmove]
    rcases s.enterRun_cases patience with ⟨e, henter⟩ | hstarts
    · rw [henter]
      exact Or.inl ⟨order_enter s rfl, Or.inl .refl⟩
    · exact Or.inr ⟨rfl, [.watching], hstarts⟩
  | callStop patience => exact Or.inl ⟨order_enter s rfl, hdeeds rfl⟩
  | interrupt name => exact Or.inl (hsame rfl (control_interrupt s name))
  | newToken parent => exact Or.inl (hsame rfl rfl)
  | cancel token => exact Or.inl (hsame rfl (control_cancel ..))
  | abandon => exact Or.inl (hsame rfl rfl)
  | supply x => exact Or.inl (hsame rfl rfl)
  | meddle x => exact Or.inl (hsame rfl rfl)
  | pass x looks roused => exact Or.inl (hsame rfl rfl)

end State

/-! ### Pullers that are over -/

/-- Nobody puts pullers away, and one that is over stays as it is. -/
theorem Deed.exists_puller {b b' : Books} (h : Deed b b') {i : Nat} {p' : Puller}
    (hp' : b'.pullers[i]? = some p') :
    ∃ p, b.pullers[i]? = some p ∧ (p.isOver = true → p' = p) := by
  have hsame (hpullers : b'.pullers = b.pullers) :
      ∃ p, b.pullers[i]? = some p ∧ (p.isOver = true → p' = p) :=
    ⟨p', hpullers ▸ hp', fun _ ↦ rfl⟩
  have hphase {n : Nat} {p : Puller} {phase : Puller.Phase} (hp : b.pullers[n]? = some p)
      (hover : p.isOver = false)
      (hpullers : b'.pullers = b.pullers.modify n fun p ↦ { p with phase }) :
      ∃ p, b.pullers[i]? = some p ∧ (p.isOver = true → p' = p) := by
    rw [hpullers, List.getElem?_modify] at hp'
    by_cases hi : n = i
    · subst hi
      exact ⟨p, hp, fun h ↦ absurd h (by simp [hover])⟩
    · exact ⟨p', by simpa [hi] using hp', fun _ ↦ rfl⟩
  have hwork {p : Puller} (hslot : p.phase.holdsSlot = true) : p.isOver = false := by
    rw [Puller.isOver]
    split
    · next hphase => exact absurd hslot (by simp [hphase, Puller.Phase.holdsSlot])
    · next hphase => exact absurd hslot (by simp [hphase, Puller.Phase.holdsSlot])
    · rfl
  cases h with
  | turn hp hover _ _ => exact hphase hp hover rfl
  | reserve hp hhead _ _ => exact hphase hp (by simp [Puller.isOver, hhead]) rfl
  | expect hp hslot _ => exact hphase hp (hwork hslot) rfl
  | receive hp hslot _ => exact hphase hp (hwork hslot) rfl
  | release hp hslot _ => exact hphase hp (hwork hslot) rfl
  | finish _ _ =>
    exact hsame (by simp [Books.setJobPhase, Books.changeJob, Books.measure, Books.note])
  | settle _ _ _ => exact hsame (by simp [Books.giveBack, Books.dropJob, Books.note])
  | _ => exact hsame rfl

theorem Deeds.exists_puller {b b' : Books} (h : Deeds b b') {i : Nat} {p' : Puller}
    (hp' : b'.pullers[i]? = some p') :
    ∃ p, b.pullers[i]? = some p ∧ (p.isOver = true → p' = p) := by
  induction h generalizing p' with
  | refl => exact ⟨p', hp', fun _ ↦ rfl⟩
  | tail _ hlast ih =>
    obtain ⟨q, hq, hstays⟩ := hlast.exists_puller hp'
    obtain ⟨p, hp, hstays'⟩ := ih hq
    refine ⟨p, hp, fun hover ↦ ?_⟩
    obtain rfl := hstays' hover
    exact hstays hover

/-- No deed puts a puller to work or away. -/
theorem Deed.length_pullers {b b' : Books} (h : Deed b b') :
    b'.pullers.length = b.pullers.length := by
  cases h with
  | turn _ _ _ _ => exact List.length_modify ..
  | reserve _ _ _ _ => exact List.length_modify ..
  | expect _ _ _ => exact List.length_modify ..
  | receive _ _ _ => exact List.length_modify ..
  | release _ _ _ => exact List.length_modify ..
  | finish _ _ => simp [Books.setJobPhase, Books.changeJob, Books.measure, Books.note]
  | settle _ _ _ => simp [Books.giveBack, Books.dropJob, Books.note]
  | _ => rfl

theorem Deeds.length_pullers {b b' : Books} (h : Deeds b b') :
    b'.pullers.length = b.pullers.length := by
  induction h with
  | refl => rfl
  | tail _ hlast ih => exact hlast.length_pullers.trans ih

/-! ### The invariant -/

/-- Pullers that are not over are known to those who have to stop them, and only the first call in
the line drains. -/
structure Led (b : Books) (c : Control) : Prop where
  known : ∀ i p, b.pullers[i]? = some p → p.isOver = false →
    (∃ r, c.running = some r ∧ i ∈ r.pullers) ∨ i ∈ c.stopping
  first : ∀ n phase, c.phases[n]? = some phase → phase.isDraining = true →
    c.draining.head? = some n

namespace Led

variable {b b' : Books} {c c' : Control}

/-- Where nothing runs and nobody has to be stopped, all pullers are over. -/
theorem isOver (h : Led b c) (hrunning : c.running = none) (hstopping : c.stopping = []) :
    ∀ p ∈ b.pullers, p.isOver = true := by
  intro p hp
  obtain ⟨i, hi⟩ := List.mem_iff_getElem?.1 hp
  by_contra hover
  rcases h.known i p hi (by simpa using hover) with ⟨r, hr, -⟩ | hmem
  · exact absurd hr (by simp [hrunning])
  · exact absurd hmem (by simp [hstopping])

theorem deeds (h : Led b c) (hdeeds : Deeds b b') : Led b' c where
  known i p' hp' hover := by
    obtain ⟨p, hp, hstays⟩ := hdeeds.exists_puller hp'
    refine h.known i p hp (Bool.eq_false_iff.2 fun hp ↦ ?_)
    rw [hstays hp, hp] at hover
    exact absurd hover (by decide)
  first := h.first

/-- A call whose phase is changed drains only if it is the first one. -/
theorem first_set (h : Led b c) {n : Nat} {phase : Call.Phase} {line : List Nat}
    (hself : phase.isDraining = true → line.head? = some n)
    (hline : ∀ m ≠ n, c.draining.head? = some m → line.head? = some m) :
    ∀ m x, (c.phases.set n phase)[m]? = some x → x.isDraining = true → line.head? = some m := by
  intro m x hx hdraining
  by_cases hm : m = n
  · subst hm
    obtain rfl := Call.phase_of_set hx
    exact hself hdraining
  · rw [List.getElem?_set_ne (Ne.symm hm)] at hx
    exact hline m hm (h.first m x hx hdraining)

/-- **Every order keeps the lead.** -/
theorem order (h : Led b c) (ho : Order b c c') : Led b c' := by
  have happend {line : List Nat} (m : Nat) (hm : c.draining.head? = some m) :
      (c.draining ++ line).head? = some m := by
    rw [List.head?_append, hm, Option.some_or]
  have herase {n : Nat} (m : Nat) (hne : m ≠ n) (hm : c.draining.head? = some m) :
      (c.draining.erase n).head? = some m := by
    obtain ⟨rest, hrest⟩ := List.head?_eq_some_iff.1 hm
    rw [hrest, List.erase_cons_tail (by simpa using hne)]
    rfl
  cases ho with
  | rest => exact h
  | @enter phases line hnew =>
    refine ⟨h.known, fun n phase hphase hdraining ↦ ?_⟩
    rw [List.getElem?_append] at hphase
    split at hphase
    · exact happend n (h.first n phase hphase hdraining)
    · have hfresh := hnew phase (List.mem_of_getElem? hphase)
      exact absurd (Call.Phase.isDrain_of_isDraining hdraining) (by simp [hfresh])
  | line => exact ⟨h.known, h.first_set (fun hself ↦ absurd hself (by simp [Call.Phase.isDraining]))
      fun m _ ↦ happend m⟩
  | take hhead =>
    refine ⟨fun i p hp hover ↦ Or.inr ?_, h.first_set (fun _ ↦ hhead) fun _ _ hm ↦ hm⟩
    rcases h.known i p hp hover with ⟨r, hr, hmem⟩ | hmem
    · simp [hr, hmem]
    · exact List.mem_append_left _ hmem
  | @pop i hlast hover =>
    refine ⟨fun k p hp hwork ↦ ?_, h.first⟩
    refine (h.known k p hp hwork).imp_right fun hmem ↦ ?_
    have hne : k ≠ i := by
      rintro rfl
      exact absurd (hover p hp) (by simp [hwork])
    -- The puller that is struck out is over, and this one is not.
    rw [← List.dropLast_append_getLast? i hlast] at hmem
    exact (List.mem_append.1 hmem).resolve_right (by simpa using hne)
  | @joined n hphase _ =>
    exact ⟨h.known, h.first_set (fun _ ↦ h.first n _ hphase rfl) fun _ _ hm ↦ hm⟩
  | @idle n sub hphase _ =>
    exact ⟨h.known, h.first_set (fun _ ↦ h.first n _ hphase rfl) fun _ _ hm ↦ hm⟩
  | finish _ _ =>
    exact ⟨h.known, h.first_set (fun hself ↦ absurd hself (by simp [Call.Phase.isDraining])) herase⟩
  | @leave n phase hnot =>
    refine ⟨h.known, h.first_set (fun hself ↦ ?_) herase⟩
    exact absurd (Call.Phase.isDrain_of_isDraining hself) (by simp [hnot])

/-- **A start knows the pullers that it puts to work.** Nothing was running before, so that all
others that are not over had to be stopped already. -/
theorem start {s t : State} {phases : List Call.Phase} (h : Led s.books s.control)
    (hstarts : Starts s t phases) : Led t.books t.control := by
  obtain ⟨token, reporter, hbooks⟩ := hstarts.spawned
  obtain ⟨r, hcontrol, hknown⟩ := hstarts.known
  have hphases : ∀ x ∈ phases, x.isDrain = false := by
    rintro x hx
    rw [hstarts.watching x hx]
    rfl
  have hfirst := (h.order (.enter [] hphases)).first
  rw [List.append_nil] at hfirst
  rw [hcontrol]
  refine ⟨fun i p hp hover ↦ ?_, hfirst⟩
  by_cases hi : i < s.pullers.length
  · have hold : s.books.pullers[i]? = some p := by
      rw [hbooks] at hp
      exact (List.getElem?_append_left hi).symm.trans hp
    rcases h.known i p hold hover with ⟨r, hr, -⟩ | hmem
    · exact absurd hr (by simp [State.control, hstarts.stopped])
    · exact Or.inr hmem
  · exact Or.inl ⟨r, rfl, hknown i (List.getElem?_eq_some_iff.1 hp).1 (Nat.le_of_not_lt hi)⟩

theorem move {s : State} (h : Led s.books s.control) (m : Move) :
    Led (s.move m).books (s.move m).control := by
  rcases s.order_move m with ⟨horder, hdeeds | ⟨x, rfl⟩⟩ | ⟨-, phases, hstarts⟩
  · exact (h.order horder).deeds hdeeds
  · exact ⟨h.known, h.first⟩
  · exact h.start hstarts

end Led

/-- **No puller at work is forgotten**, all along a run. -/
theorem Runs.led {allowed : State → Move → Prop} {p : Plan} {s t : State}
    (hbuild : p.build = .ok s) (h : Runs allowed s t) : Led t.books t.control := by
  induction h with
  | refl =>
    obtain ⟨setup, slots, -, -, -, -, hbooks, hcalls, -⟩ := Plan.of_build hbuild
    refine ⟨fun i p hp _ ↦ ?_, fun n phase hphase _ ↦ ?_⟩
    · rw [hbooks] at hp
      exact absurd hp (by simp)
    · simp [State.control, hcalls] at hphase
  | tail _ hlast ih =>
    obtain ⟨m, -, rfl⟩ := hlast
    exact ih.move m

end PullConsumer.Supervisor
