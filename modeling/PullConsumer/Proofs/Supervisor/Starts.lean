import PullConsumer.Proofs.Supervisor.Books

/-!
# What a start does

A start is the one move that puts pullers to work. It is refused while something runs that was not
taken over yet; if it succeeds it does everything at once: a puller for each subscription, and what
runs now knows them all (`Starts`). A run that is called for begins with a start as well, and fails
at once if the start is refused (`State.enterRun_cases`).

What calls and starts share is the `Control` of a state. A start has its effect on the books and on
the control in the same moment, which is why it is looked at before either of them is followed along
a run.
-/

namespace PullConsumer.Supervisor

/-- What calls and starts share, with the phases of the calls. -/
structure Control where
  phases : List Call.Phase
  running : Option Running
  stopping : List Nat
  draining : List Nat

def State.control (s : State) : Control where
  phases := s.calls.map Call.phase
  running := s.running
  stopping := s.stopping
  draining := s.draining

/-- A start that succeeds puts a puller to work for each subscription, and knows them all. The call
that made it, if any, watches for what ends its run. -/
structure Starts (s t : State) (phases : List Call.Phase) : Prop where
  stopped : s.running = none
  watching : ∀ phase ∈ phases, phase = .watching
  spawned : ∃ token reporter,
    t.books = s.books.spawn token reporter 0 s.setup.subscriptions.length
  known : ∃ r, t.control =
      { s.control with phases := s.control.phases ++ phases, running := some r } ∧
    ∀ i < t.pullers.length, s.pullers.length ≤ i → i ∈ r.pullers

namespace State

theorem books_spawnPullers (s : State) (token : Nat) (reporter : Reporter) (first left : Nat) :
    (s.spawnPullers token reporter first left).books =
      s.books.spawn token reporter first left := by
  induction left generalizing s first with
  | zero => simp [spawnPullers, Books.spawn]
  | succ left ih =>
    rw [spawnPullers, ih, books_wake]
    simp [Books.spawn, books, now, List.range'_succ]

theorem control_spawnPullers (s : State) (token : Nat) (reporter : Reporter) (first left : Nat) :
    (s.spawnPullers token reporter first left).control = s.control := by
  induction left generalizing s first with
  | zero => rfl
  | succ left ih => exact ih _ _

/-- A start is refused and changes nothing, or it succeeds. -/
theorem start_cases (s : State) (parent : Nat) (reporter : Reporter) :
    (∃ e, s.start parent reporter = (.error e, s)) ∨
      ∃ t, s.start parent reporter = (.ok (), t) ∧ Starts s t [] := by
  rw [start]
  split
  · exact Or.inl ⟨_, rfl⟩
  · next hrunning =>
    let t := (s.newToken (some parent)).2.spawnPullers s.tokens.length reporter 0
      s.setup.subscriptions.length
    let r : Running := ⟨s.tokens.length,
      (List.range (t.pullers.length - s.pullers.length)).map (s.pullers.length + ·)⟩
    have hbooks : t.books = s.books.spawn s.tokens.length reporter 0 s.setup.subscriptions.length :=
      books_spawnPullers ..
    have hcontrol : t.control = s.control := control_spawnPullers ..
    refine Or.inr ⟨{ t with running := some r }, rfl, hrunning,
      fun _ hphase ↦ absurd hphase List.not_mem_nil, ⟨_, _, hbooks⟩, r, ?_, fun i hi hle ↦ ?_⟩
    · rw [List.append_nil]
      exact congrArg (fun x : Control ↦ { x with running := some r }) hcontrol
    · -- What runs now lists the numbers from the old count of pullers up to the new one.
      refine List.mem_map.2 ⟨i - s.pullers.length, List.mem_range.2 ?_, Nat.add_sub_cancel' hle⟩
      exact Nat.sub_lt_sub_right hle hi

/-- A run that is called for is over at once, or it starts. -/
theorem enterRun_cases (s : State) (patience : Option Nat) :
    (∃ e, s.enterRun patience = s.enter { phase := .returned s.now (.error e) }) ∨
      Starts s (s.enterRun patience) [.watching] := by
  rw [enterRun]
  dsimp only
  rcases start_cases (s.newToken none).2 (s.newToken none).1 (.call s.calls.length) with
    ⟨e, hstart⟩ | ⟨t, hstart, hstarts⟩
  · rw [hstart]
    exact Or.inl ⟨e, rfl⟩
  · rw [hstart]
    obtain ⟨r, hcontrol, hknown⟩ := hstarts.known
    refine Or.inr ⟨hstarts.stopped, fun _ ↦ List.mem_singleton.1, hstarts.spawned, r, ?_, hknown⟩
    rw [List.append_nil] at hcontrol
    have henter (due : Option Nat) : (t.enter { phase := .watching, patienceDue := due }).control =
        { t.control with phases := t.control.phases ++ [.watching] } := by
      simp [enter, control]
    rw [hcontrol] at henter
    exact henter _

end State

end PullConsumer.Supervisor
