import PullConsumer.Proofs.Supervisor.Answers

/-!
# What a grace period that was exceeded tells

A stop that runs out of its grace period names the subscriptions that hold slots. Each of them is
named once, and they stand in the order of the plan. A slot is held by a job, whose message has come
and is not settled; but a slot is also held by a puller that waits for a message. So the names are
those of the subscriptions with a message in hand only where no puller waits in a fetch
(`busy_of_graceExceeded`). A puller that waits longer than the grace period is enough for a stop to
fail although no message was ever there (`Plan.graceExceeded_hasty`).
-/

namespace PullConsumer.Supervisor

/-- The settings of a plan are those of its supervisor. -/
theorem Plan.settings_of_build {p : Plan} {s : State} (h : p.build = .ok s) :
    s.setup.settings = p.settings := by
  rw [Plan.build] at h
  split at h
  · exact absurd h (by simp)
  · exact absurd h (by simp)
  · split at h
    · exact absurd h (by simp)
    · cases h
      rfl

/-- A slot of a subscription is in use when a job has it or a puller that fetches. -/
theorem Books.Counted.inUse_ne_zero_iff {b : Books} (hcounted : b.Counted) {sub : Nat}
    (hsub : sub < b.setup.subscriptions.length) : b.inUse sub ≠ 0 ↔
      (∃ j ∈ b.jobs, j.sub = sub) ∨ ∃ p ∈ b.pullers, p.sub = sub ∧ p.holdsSlot = true := by
  have hinUse := (hcounted.inUse (List.getElem?_eq_getElem hsub)).1
  have hworking : 0 < b.working sub ↔ ∃ j ∈ b.jobs, j.sub = sub := by
    rw [Books.working, List.countP_pos_iff]
    simp
  have hfetching : 0 < b.fetching sub ↔ ∃ p ∈ b.pullers, p.sub = sub ∧ p.holdsSlot = true := by
    rw [Books.fetching, List.countP_pos_iff]
    simp
  rw [← hworking, ← hfetching]
  omega

/-- **What a call is told whose grace period is exceeded.** The names are those of the subscriptions
with a job that is not over, or a puller in a fetch, in the order of the plan and each once. Where
no puller is in a fetch they are those of the subscriptions with a message that is not settled yet.
There may be none of them: then the call has waited for a puller that is not over. -/
theorem busy_of_graceExceeded {plan : Plan} {s u : State} (hbuild : plan.build = .ok s)
    (hrun : Runs anything s u) {m : Move} {i tick : Nat} {grace : Duration} {busy : List String}
    (h : u.Answers m i tick (.error (.graceExceeded grace busy))) :
    grace = plan.settings.grace ∧ ∃ subs : List Nat, busy = subs.map u.name ∧
      subs.Sublist (List.range plan.subscriptions.length) ∧
      (∀ sub, sub ∈ subs ↔
        (∃ j ∈ u.jobs, j.sub = sub) ∨ ∃ p ∈ u.pullers, p.sub = sub ∧ p.holdsSlot = true) ∧
      ((∀ p ∈ u.pullers, p.holdsSlot = false) → ∀ sub, sub ∈ subs ↔ ∃ j ∈ u.jobs, j.sub = sub) ∧
      (subs = [] → ∃ k p, k ∈ u.stopping ∧ u.pullers[k]? = some p ∧ p.isOver = false) := by
  obtain ⟨hsubs, -, -⟩ := hrun.setup_of_build hbuild
  have hsettings : u.setup.settings = plan.settings := by
    rw [hrun.setup_eq, Plan.settings_of_build hbuild]
  obtain ⟨hcounted, -⟩ := hrun.counted hbuild
  have hrecorded := hrun.recorded hbuild
  obtain ⟨⟨phase, hwait⟩, rfl, rfl⟩ : (∃ phase, u.Lingers phase) ∧
      grace = u.setup.settings.grace ∧ busy = u.busy := by
    rcases State.answers_cases h with
      ⟨-, hrefused⟩ | ⟨c, result, -, hc, -, hanswer, hconcludes, -⟩
    · exact absurd hrefused (by simp)
    · rw [Call.answer] at hanswer
      split at hanswer
      · next f hfailure =>
        -- The failure that ended a run is not that of a grace period.
        obtain ⟨name, cause, rfl⟩ :=
          hrun.hearsay hbuild c (List.mem_of_getElem? hc) f (Or.inr hfailure)
        exact absurd hanswer (by simp)
      · subst hanswer
        generalize u.tells m = entries at hconcludes
        cases hconcludes with
        | exceeded hwait => exact ⟨⟨_, hwait⟩, rfl, rfl⟩
  have hmem (sub : Nat) : sub ∈ (List.range u.setup.subscriptions.length).filter (!u.isIdle ·) ↔
      sub < u.setup.subscriptions.length ∧ u.inUse sub ≠ 0 := by
    simp [State.isIdle]
  have hholds (sub : Nat) : sub ∈ (List.range u.setup.subscriptions.length).filter (!u.isIdle ·) ↔
      (∃ j ∈ u.jobs, j.sub = sub) ∨ ∃ p ∈ u.pullers, p.sub = sub ∧ p.holdsSlot = true := by
    rw [hmem]
    constructor
    · rintro ⟨hlt, hinUse⟩
      exact (hcounted.inUse_ne_zero_iff hlt).1 hinUse
    · intro hheld
      have hlt : sub < u.setup.subscriptions.length := by
        rcases hheld with ⟨j, hj, rfl⟩ | ⟨p, hp, rfl, -⟩
        · obtain ⟨x, hx⟩ := hrecorded.subscription_of_job hj
          exact (List.getElem?_eq_some_iff.1 hx).1
        · exact hrecorded.seated p.sub (List.mem_map_of_mem hp)
      exact ⟨hlt, (hcounted.inUse_ne_zero_iff hlt).2 hheld⟩
  refine ⟨congrArg Settings.grace hsettings, _, rfl, hsubs ▸ List.filter_sublist, hholds, ?_, ?_⟩
  · intro hfree sub
    rw [hholds]
    refine or_iff_left ?_
    rintro ⟨p, hp, -, hslot⟩
    exact absurd ((hfree p hp).symm.trans hslot) (by decide)
  · intro hnone
    cases hwait with
    | joining hlast hp hover => exact ⟨_, _, List.mem_of_getLast? hlast, hp, hover⟩
    | emptying hlt hinUse => exact absurd ((hmem _).2 ⟨hlt, hinUse⟩) (by simp [hnone])

/-- The small supervisor, stopped with a grace period of ten ticks. -/
def Plan.hasty : Plan := { Plan.lone with settings := { grace := .ofMillis 10 } }

/-- A stop is called for, and its grace period passes. -/
def Move.waiting : List Move := [.callStop none, .pursue 0, .pass { now := 10 } 0 false]

/-- While the handler of the small supervisor is at work the grace period passes. -/
theorem busy_of_graceExceeded_hasty : ∃ s u : State, Plan.hasty.build = .ok s ∧
    u = s.after (Move.fetching ++ Move.waiting) ∧
    u.Answers (.pursue 0) 0 10 (.error (.graceExceeded (.ofMillis 10) ["s/c"])) ∧
    ∃ subs : List Nat, ["s/c"] = subs.map u.name ∧ ∀ sub, sub ∈ subs ↔
      (∃ j ∈ u.jobs, j.sub = sub) ∨ ∃ p ∈ u.pullers, p.sub = sub ∧ p.holdsSlot = true := by
  obtain ⟨s, hbuild, hanswers⟩ : ∃ s, Plan.hasty.build = .ok s ∧
      (s.after (Move.fetching ++ Move.waiting)).Answers (.pursue 0) 0 10
        (.error (.graceExceeded (.ofMillis 10) ["s/c"])) := ⟨_, rfl, rfl, rfl⟩
  obtain ⟨-, subs, hnames, -, hholds, -⟩ :=
    busy_of_graceExceeded hbuild (Runs.of_moves s _) hanswers
  exact ⟨s, _, hbuild, rfl, hanswers, subs, hnames, hholds⟩

/-- **A stop may fail although no message was ever there.** The puller waits for a message, holds a
slot meanwhile, and is called busy. -/
theorem Plan.graceExceeded_hasty : ∃ s u : State,
    Plan.build { Plan.hasty with broker := Broker.declare {} ⟨"s", "c"⟩ "a" } = .ok s ∧
    u = s.after ([.start 0, .pull 0, .pull 0, .pull 0, .pull 0] ++ Move.waiting) ∧
    u.Answers (.pursue 0) 0 10 (.error (.graceExceeded (.ofMillis 10) ["s/c"])) ∧
    u.jobs = [] ∧ u.jobsBegun = 0 :=
  ⟨_, _, rfl, rfl, ⟨rfl, rfl⟩, rfl, rfl⟩

end PullConsumer.Supervisor
