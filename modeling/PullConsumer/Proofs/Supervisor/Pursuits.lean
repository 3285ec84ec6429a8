import PullConsumer.Proofs.Supervisor.Bystanders
import PullConsumer.Proofs.Supervisor.Control

/-!
# What a call does in one step

A call that stops a supervisor waits for its turn, takes over what was started, waits for the
pullers and then for the slots, and returns; on the way it may run out of its grace period. A
`Pursuit` says what becomes of the call in a step, what it takes over, and what it tells the world.
What else a step changes is said by `Pursued`.

Between its own steps a call is told of subscriptions that have failed, and it may be given up;
nothing else becomes of it, whoever moves (`State.call_of_move`).
-/

namespace PullConsumer.Supervisor

/-- The answer of a call: the failure that ended a run outweighs what came after it. -/
def Call.answer (c : Call) (result : Except RuntimeError Unit) : Except RuntimeError Unit :=
  match c.failure with
  | some f => .error f
  | none => result

def Call.returns (c : Call) (tick : Nat) (result : Except RuntimeError Unit) : Call :=
  { c with phase := .returned tick (c.answer result) }

/-- The announcement of a shutdown. -/
def Call.shutdown (c : Call) : Event :=
  match c.reason with
  | some text => (Event.of .shutdownRequested).withReason text
  | none => Event.of .shutdownRequested

/-- **What a call that drains waits for**: the last of the pullers that were told to stop is not
over, or a subscription holds slots. -/
inductive State.Lingers (s : State) : Call.Phase → Prop
  | joining {k : Nat} {p : Puller} (hlast : s.stopping.getLast? = some k)
      (hp : s.pullers[k]? = some p) (hover : p.isOver = false) : s.Lingers .joining
  | emptying {sub : Nat} (hsub : sub < s.setup.subscriptions.length) (hinUse : s.inUse sub ≠ 0) :
      s.Lingers (.emptying sub)

/-- **What a call does in one step**: what becomes of it, what it takes over, the pullers that are
left to be waited for, and what it tells the world. -/
inductive Pursuit (s : State) (n : Nat) (c : Call) :
    Call → Option Running → List Nat → List Entry → Prop
  | rest (h : c.phase = .joining → s.Lingers .joining) : Pursuit s n c c none s.stopping []
  /-- A run has what ends it. -/
  | line {reason : Option String} {failure : Option RuntimeError} (h : c.phase = .watching)
      (hfailure : ∀ f, failure = some f → f ∈ c.reports ∨ c.failure = some f) :
      Pursuit s n c { c with phase := .queued, reason, failure } none s.stopping []
  | take {graceDue : Option Nat} (h : c.phase = .queued) (hhead : s.draining.head? = some n) :
      Pursuit s n c { c with phase := .joining, graceDue } s.running
        (s.stopping ++ (s.running.map Running.pullers).getD [])
        (s.running.toList.map fun _ ↦ .published c.shutdown)
  /-- The puller that was waited for is over. -/
  | join {k : Nat} (h : c.phase = .joining) (hlast : s.stopping.getLast? = some k)
      (hover : ∀ p, s.pullers[k]? = some p → p.isOver = true) :
      Pursuit s n c c none s.stopping.dropLast []
  /-- It goes on to the slots of a subscription. -/
  | onward {sub : Nat}
      (h : c.phase = .joining ∧ s.stopping = [] ∨ ∃ before, c.phase = .emptying before) :
      Pursuit s n c { c with phase := .emptying sub } none s.stopping []
  | finish {sub : Nat} (h : c.phase = .emptying sub)
      (hsub : s.setup.subscriptions.length ≤ sub) :
      Pursuit s n c (c.returns s.now (.ok ())) none s.stopping [.published (.of .drained)]
  /-- The grace period is over. -/
  | expire {due : Nat} (h : s.Lingers c.phase) (hgrace : c.graceDue = some due)
      (hdue : due ≤ s.now) : Pursuit s n c
        (c.returns s.now (.error (.graceExceeded s.setup.settings.grace s.busy))) none s.stopping
        [.published (((Event.of .graceExceeded).withTimeout s.setup.settings.grace).withReason
          (Text.joined ", " s.busy))]

/-- **What else becomes of a state in such a step.** Of the tokens only the one that is taken over
is cancelled. -/
structure Pursued (s : State) (n : Nat) (c' : Call) (taken : Option Running) (left : List Nat)
    (entries : List Entry) (t : State) : Prop where
  books : t.books = { s.books with journal := t.journal }
  told : told t.journal = told s.journal ++ entries
  askers : askers t.journal = askers s.journal
  calls : t.calls = s.calls.set n c'
  running : t.running = if taken.isSome then none else s.running
  stopping : t.stopping = left
  tokens : t.tokens = taken.elim s.tokens fun r ↦ (s.cancel r.token).tokens

namespace State

variable {s t : State} {n : Nat} {c : Call}

/-- What a step of a call makes of a state. -/
def Pursues (s : State) (n : Nat) (c : Call) (t : State) : Prop :=
  ∃ c' taken left entries, Pursuit s n c c' taken left entries ∧ Pursued s n c' taken left entries t

/-- What was in a list at some place may be put there. -/
theorem set_self {calls : List Call} (hc : calls[n]? = some c) : calls.set n c = calls := by
  refine List.ext_getElem? fun i ↦ ?_
  rw [List.getElem?_set]
  by_cases h : n = i
  · subst h
    rw [if_pos rfl, if_pos (List.getElem?_eq_some_iff.1 hc).1, hc]
  · rw [if_neg h]

theorem modify_eq_set {calls : List Call} (hc : calls[n]? = some c) (f : Call → Call) :
    calls.modify n f = calls.set n (f c) := by
  rw [List.modify_eq_set_getElem?, hc]
  rfl

/-! ### Tokens -/

/-- To cancel changes the tokens, and what becomes of them depends on nothing else. -/
theorem tokens_cancel (s : State) (token : Nat) : (s.cancel token).tokens =
    (s.reachedBy token).foldl (fun ts i ↦ ts.modify i fun t ↦ { t with cancelled := true })
      s.tokens := by
  have key : ∀ (ns : List Nat) (s : State),
      (ns.foldl (fun s n ↦ { s with tokens := s.tokens.modify n fun t ↦
        { t with cancelled := true } }.notify (.cancelled n)) s).tokens =
        ns.foldl (fun ts i ↦ ts.modify i fun t ↦ { t with cancelled := true }) s.tokens := by
    intro ns
    induction ns with
    | nil => exact fun s ↦ rfl
    | cons n rest ih => exact fun s ↦ ih _
  exact key _ s

theorem calls_cancel (s : State) (token : Nat) : (s.cancel token).calls = s.calls := by
  have key : ∀ (ns : List Nat) (s : State),
      (ns.foldl (fun s n ↦ { s with tokens := s.tokens.modify n fun t ↦
        { t with cancelled := true } }.notify (.cancelled n)) s).calls = s.calls := by
    intro ns
    induction ns with
    | nil => exact fun s ↦ rfl
    | cons n rest ih => exact fun s ↦ ih _
  exact key _ s

/-! ### The steps of the program -/

/-- What a call changes of itself, and of nothing but who waits, who is in line and who is waited
for. -/
theorem pursues_changeCall (hc : s.calls[n]? = some c) {f : Call → Call}
    (h : Pursuit s n c (f c) none t.stopping []) (hbooks : t.books = s.books)
    (hcalls : t.calls = s.calls.modify n f) (hrunning : t.running = s.running)
    (htokens : t.tokens = s.tokens) : Pursues s n c t := by
  have hjournal : t.journal = s.journal := congrArg Books.journal hbooks
  refine ⟨f c, none, t.stopping, [], h, ?_, ?_, by rw [hjournal],
    hcalls.trans (modify_eq_set hc f), hrunning, rfl, htokens⟩
  · rw [hbooks, hjournal]
    rfl
  · rw [hjournal, List.append_nil]

/-- A call that waits, or has struck a puller off, is as it was. -/
theorem pursues_same (hc : s.calls[n]? = some c) (h : Pursuit s n c c none t.stopping [])
    (hbooks : t.books = s.books) (hcalls : t.calls = s.calls) (hrunning : t.running = s.running)
    (htokens : t.tokens = s.tokens) : Pursues s n c t :=
  pursues_changeCall hc (f := id) h hbooks
    (hcalls.trans ((set_self hc).symm.trans (modify_eq_set hc id).symm)) hrunning htokens

/-- A call that returns publishes an event and answers. -/
theorem pursues_answerCall (hc : s.calls[n]? = some c) {e : Event}
    {result : Except RuntimeError Unit}
    (h : Pursuit s n c (c.returns s.now result) none t.stopping [.published e])
    (hbooks : t.books = s.books) (hcalls : t.calls = s.calls) (hrunning : t.running = s.running)
    (htokens : t.tokens = s.tokens) : Pursues s n c ((t.publish e).answerCall n result) := by
  have hanswer (u : State) : (u.answerCall n result).calls =
      u.calls.modify n (·.returns u.now result) ∧ (u.answerCall n result).running = u.running ∧
        (u.answerCall n result).stopping = u.stopping ∧
        (u.answerCall n result).tokens = u.tokens := by
    rw [answerCall]
    rw [leaveLine]
    dsimp only
    split
    · exact ⟨rfl, rfl, rfl, rfl⟩
    · exact ⟨rfl, rfl, rfl, rfl⟩
  obtain ⟨hcalls', hrunning', hstopping', htokens'⟩ := hanswer (t.publish e)
  have hnow : (t.publish e).now = s.now :=
    (congrArg Books.now (t.books_publish e)).trans (congrArg Books.now hbooks)
  have hbooks' : ((t.publish e).answerCall n result).books = s.books.note (.published e) := by
    rw [books_answerCall, books_publish, hbooks]
  have hjournal : ((t.publish e).answerCall n result).journal = _ := congrArg Books.journal hbooks'
  refine ⟨c.returns s.now result, none, t.stopping, [.published e], h, ?_, ?_, ?_, ?_, ?_, ?_, ?_⟩
  · rw [hbooks', hjournal]
    rfl
  · rw [hjournal]
    exact Books.told_note s.books _
  · rw [hjournal]
    rfl
  · rw [hcalls', hnow, ← modify_eq_set hc (·.returns s.now result)]
    exact congrArg (List.modify · n _) hcalls
  · exact hrunning'.trans hrunning
  · exact hstopping'
  · exact htokens'.trans htokens

theorem pursues_waitDraining (hc : s.calls[n]? = some c) (hwait : s.Lingers c.phase) (x : Signal) :
    Pursues s n c (s.waitDraining n c x).1 := by
  have hrest : Pursuit s n c c none s.stopping [] := .rest fun hphase ↦ hphase ▸ hwait
  rw [waitDraining]
  dsimp only
  split
  · exact pursues_same hc hrest (books_listen ..) rfl rfl rfl
  · next due hgrace =>
    split
    · next hdue =>
      have hnow : (s.listen x .user).now = s.now := congrArg Books.now (books_listen ..)
      exact pursues_answerCall hc (.expire hwait hgrace (hnow ▸ hdue)) (books_listen ..) rfl rfl rfl
    · refine pursues_same hc hrest ?_ rfl rfl rfl
      simp only [books, now, Scheduler.now_armOnce]
      exact books_listen s x .user

/-- What was started is taken over: the shutdown is announced and the token cancelled. -/
theorem pursued_takeOver (hc : s.calls[n]? = some c) : Pursued s n c s.running
    (s.stopping ++ (s.running.map Running.pullers).getD [])
    (s.running.toList.map fun _ ↦ .published c.shutdown) (s.takeOver c.reason) := by
  have hself : s.calls = s.calls.set n c := (set_self hc).symm
  rw [takeOver]
  cases hrunning : s.running with
  | none => exact ⟨rfl, (List.append_nil _).symm, rfl, hself, rfl, (List.append_nil _).symm, rfl⟩
  | some r =>
    have hbooks : ((s.publish c.shutdown).cancel r.token).books =
        s.books.note (.published c.shutdown) := by rw [books_cancel, books_publish]
    have hjournal : ((s.publish c.shutdown).cancel r.token).journal = _ :=
      congrArg Books.journal hbooks
    have hstopping : ((s.publish c.shutdown).cancel r.token).stopping = s.stopping :=
      congrArg Control.stopping (control_cancel ..)
    have htokens : ((s.publish c.shutdown).cancel r.token).tokens = (s.cancel r.token).tokens := by
      rw [tokens_cancel, tokens_cancel]
      rfl
    -- How the reason is told makes no difference to the rest.
    suffices Pursued s n c (some r) (s.stopping ++ r.pullers) [.published c.shutdown]
        { (s.publish c.shutdown).cancel r.token with
          running := none
          stopping := ((s.publish c.shutdown).cancel r.token).stopping ++ r.pullers } from this
    refine ⟨?_, ?_, ?_, (calls_cancel ..).trans hself, rfl, congrArg (· ++ r.pullers) hstopping,
      htokens⟩
    · show ((s.publish c.shutdown).cancel r.token).books = _
      rw [hbooks]
      show s.books.note _ = { s.books with
        journal := ((s.publish c.shutdown).cancel r.token).journal }
      rw [hjournal]
      rfl
    · show Supervisor.told ((s.publish c.shutdown).cancel r.token).journal = _
      rw [hjournal]
      exact Books.told_note s.books _
    · show Supervisor.askers ((s.publish c.shutdown).cancel r.token).journal = _
      rw [hjournal]
      rfl

/-- **Every step of a call is a pursuit.** -/
theorem pursues_callStep (hc : s.calls[n]? = some c) : Pursues s n c (s.callStep n c).1 := by
  have hline {f : Call → Call} {reason : Option String} {failure : Option RuntimeError}
      (h : c.phase = .watching) (hf : f c = { c with reason, failure })
      (hfailure : ∀ f, failure = some f → f ∈ c.reports ∨ c.failure = some f) :
      Pursues s n c (s.joinLine n f).1 := by
    refine pursues_changeCall hc (f := fun c ↦ { f c with phase := .queued }) ?_ rfl rfl rfl rfl
    rw [hf]
    exact .line h hfailure
  have hrest {phase : Call.Phase} (h : c.phase = phase) (hnot : phase ≠ .joining) :
      Pursuit s n c c none s.stopping [] := .rest fun hphase ↦ absurd (h.symm.trans hphase) hnot
  rw [callStep]
  split
  · next hwatching =>
    split
    · exact hline hwatching rfl fun f hf ↦ Or.inr hf
    · next failure rest _ hreports =>
      refine hline hwatching rfl fun f hf ↦ Or.inl ?_
      rw [hreports, ← Option.some.inj hf]
      exact List.mem_cons_self
    · exact pursues_same hc (hrest hwatching (by simp)) (by rw [books_listen, books_listen]) rfl rfl
        rfl
  · next hqueued =>
    split
    · next hhead =>
      obtain ⟨hbooks, htold, haskers, hcalls, hrunning, hstopping, htokens⟩ := pursued_takeOver hc
      let graceDue := (s.takeOver c.reason).setup.settings.graceLimit.bind
        ((s.takeOver c.reason).setup.clock.expires · (s.takeOver c.reason).now)
      refine ⟨{ c with phase := .joining, graceDue }, s.running, _, _, .take hqueued hhead, hbooks,
        htold, haskers, ?_, hrunning, hstopping, htokens⟩
      show (s.takeOver c.reason).calls.modify n (fun c ↦ { c with phase := .joining, graceDue }) = _
      rw [hcalls, set_self hc]
      exact modify_eq_set hc _
    · exact pursues_same hc (hrest hqueued (by simp)) rfl rfl rfl rfl
  · next hjoining =>
    split
    · next hnone =>
      have hempty : s.stopping = [] := List.getLast?_eq_none_iff.1 hnone
      exact pursues_changeCall hc (.onward (Or.inl ⟨hjoining, hempty⟩)) rfl rfl rfl rfl
    · next k hlast =>
      split
      · next hover =>
        refine pursues_same hc (.join hjoining hlast fun p hp ↦ ?_) rfl rfl rfl rfl
        simpa [hp] using hover
      · next hover =>
        refine pursues_waitDraining hc ?_ _
        rw [hjoining]
        cases hp : s.pullers[k]? with
        | none => exact absurd (by rw [hp]; rfl) hover
        | some p => exact .joining hlast hp (by simpa [hp] using hover)
  · next sub hemptying =>
    split
    · next hsub =>
      split
      · exact pursues_changeCall hc (.onward (Or.inr ⟨sub, hemptying⟩)) rfl rfl rfl rfl
      · next hidle =>
        refine pursues_waitDraining hc ?_ _
        rw [hemptying]
        exact .emptying hsub (by simpa [isIdle] using hidle)
    · next hsub =>
      exact pursues_answerCall hc (.finish hemptying (Nat.le_of_not_lt hsub)) rfl rfl rfl rfl
  · next hreturned => exact pursues_same hc (hrest hreturned (by simp)) rfl rfl rfl rfl
  · next hdropped => exact pursues_same hc (hrest hdropped (by simp)) rfl rfl rfl rfl

end State

end PullConsumer.Supervisor
