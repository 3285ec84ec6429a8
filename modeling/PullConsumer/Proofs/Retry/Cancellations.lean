import PullConsumer.Proofs.Retry.Runs

/-!
# Runs that are cancelled

The two ways in which a run looks for its cancellation, at a glance where there is no delay and
while it waits where there is one, come to one law (`pauseAfter_some_eq_ok_iff`): the next attempt
is made if and only if the cancellation does not come before it is due (`Cancellation.ComesBefore`).

A run that heeds a cancellation is compared with the run of the same operation that nothing cuts
short. They agree call by call as long as both go on (`runFrom_prefix`), and altogether if the
cancellation never comes while another attempt is due (`runFrom_eq`); everything else is what holds
of a trial that follows its policy.
-/

namespace PullConsumer.Retry

namespace Cancellation

/-- A cancellation comes before or during attempt number `i`, or before the tick `due`. -/
def ComesBefore (c : Cancellation) (i due : Nat) : Prop :=
  c.before = true ∨ (∃ tick, c.atTick = some tick ∧ tick < due) ∨
    ∃ k, c.byAttempt = some k ∧ 1 ≤ k ∧ k ≤ i

theorem ComesBefore.mono {c : Cancellation} {i due due' : Nat} (h : c.ComesBefore i due)
    (hdue : due ≤ due') : c.ComesBefore i due' :=
  h.imp_right <| .imp_left fun ⟨tick, htick, hlt⟩ ↦ ⟨tick, htick, hlt.trans_le hdue⟩

/-- What comes before the end of a pause comes before its beginning, or the clock brings it. -/
theorem ComesBefore.within {c : Cancellation} {i ended due : Nat} (h : c.ComesBefore i due) :
    c.ComesBefore i ended ∨ ∃ tick, c.atTick = some tick ∧ tick < due := by
  obtain hbefore | htick | hattempt := h
  · exact .inl (.inl hbefore)
  · exact .inr htick
  · exact .inl (.inr (.inr hattempt))

/-- What is seen at the end of an attempt. -/
theorem seenAfter_iff {c : Cancellation} {i ended : Nat} :
    c.seenAfter i ended = true ↔ c.ComesBefore i ended := by
  simp [seenAfter, ComesBefore, Option.any_eq_true, or_assoc]

/-- What is seen while a run waits. -/
theorem cuts_eq_some_iff {c : Cancellation} {i ended due t : Nat} :
    c.cuts i ended due = some t ↔ (c.ComesBefore i ended ∧ t = ended) ∨
      (¬ c.ComesBefore i ended ∧ c.atTick = some t ∧ t < due) := by
  rw [cuts]
  split
  · next hseen => simp [seenAfter_iff.1 hseen, eq_comm]
  · next hseen => simp [seenAfter_iff.not.1 hseen, Option.filter_eq_some_iff]

theorem cuts_eq_none_iff {c : Cancellation} {i ended due : Nat} (hdue : ended ≤ due) :
    c.cuts i ended due = none ↔ ¬ c.ComesBefore i due := by
  constructor
  · intro hnone hcomes
    by_cases hended : c.ComesBefore i ended
    · have hcut : c.cuts i ended due = some ended := cuts_eq_some_iff.2 (.inl ⟨hended, rfl⟩)
      exact Option.some_ne_none _ (hcut.symm.trans hnone)
    · obtain ⟨tick, htick, hlt⟩ := hcomes.within.resolve_left hended
      have hcut : c.cuts i ended due = some tick := cuts_eq_some_iff.2 (.inr ⟨hended, htick, hlt⟩)
      exact Option.some_ne_none _ (hcut.symm.trans hnone)
  · intro hnot
    by_contra hsome
    obtain ⟨t, hcut⟩ := Option.ne_none_iff_exists'.1 hsome
    obtain ⟨hcomes, -⟩ | ⟨-, htick, hlt⟩ := cuts_eq_some_iff.1 hcut
    · exact hnot (hcomes.mono hdue)
    · exact hnot (.inr (.inl ⟨t, htick, hlt⟩))

end Cancellation

/-! ### One law for both ways of looking -/

namespace Policy

variable {ε τ : Type} (p : Policy ε) (k : Clock)

/-- **The next attempt is due when the delay is over, unless the cancellation comes before.** -/
theorem pauseAfter_some_eq_ok_iff {c : Cancellation} {i ended next : Nat} :
    p.pauseAfter k (some c) i ended = .ok next ↔
      next = k.resumes p.delay ended ∧ ¬ c.ComesBefore i (k.resumes p.delay ended) := by
  rw [pauseAfter]
  cases hzero : p.delay.isZero with
  | true =>
    rw [if_pos rfl, k.resumes_of_isZero hzero, ← Cancellation.seenAfter_iff]
    cases hseen : c.seenAfter i ended <;> simp [hseen, eq_comm]
  | false =>
    have hwakes : k.resumes p.delay ended = k.wakes p.delay ended := k.resumes_of_not_isZero hzero
    rw [if_neg Bool.false_ne_true, ← Cancellation.cuts_eq_none_iff k.le_resumes, ← hwakes]
    cases hcut : c.cuts i ended (k.resumes p.delay ended) <;> simp [hcut, eq_comm]

/-- Otherwise the run ends when the cancellation comes, or at once if it came before. -/
theorem pauseAfter_some_eq_error_iff {c : Cancellation} {i ended t : Nat} :
    p.pauseAfter k (some c) i ended = .error t ↔
      (c.ComesBefore i ended ∧ t = ended) ∨
        (¬ c.ComesBefore i ended ∧ c.atTick = some t ∧ t < k.resumes p.delay ended) := by
  rw [pauseAfter]
  cases hzero : p.delay.isZero with
  | true =>
    rw [if_pos rfl, k.resumes_of_isZero hzero]
    cases hseen : c.seenAfter i ended with
    | true => simp [Cancellation.seenAfter_iff.1 hseen, hseen, eq_comm]
    | false =>
      have hnot : ¬ c.ComesBefore i ended := by simp [← Cancellation.seenAfter_iff, hseen]
      simpa [hseen, hnot] using fun htick ↦
        Nat.not_lt.1 fun hlt ↦ hnot (.inr (.inl ⟨t, htick, hlt⟩))
  | false =>
    have hwakes : k.resumes p.delay ended = k.wakes p.delay ended := k.resumes_of_not_isZero hzero
    rw [if_neg Bool.false_ne_true, ← Cancellation.cuts_eq_some_iff, ← hwakes]
    cases hcut : c.cuts i ended (k.resumes p.delay ended) <;> simp [hcut]

end Policy

/-! ### Beside a run that nothing cuts short -/

section Beside

variable {ε τ : Type} [Categorized ε] (p : Policy ε) (op : Operation ε τ) (c : Cancellation)

namespace Policy

/-- A call is followed by another one if the policy wants it and the cancellation does not come
before that is due. -/
theorem after_some_eq_ok_iff {call : Call} {next : Nat} :
    p.after op (some c) call = .ok next ↔
      p.after op none call = .ok next ∧ ¬ c.ComesBefore call.index next := by
  rw [after_none_eq_ok_iff]
  by_cases hgoes : p.GoesOn op call.index
  · rw [p.after_of_goesOn op (some c) hgoes, pauseAfter_some_eq_ok_iff]
    constructor
    · rintro ⟨rfl, hnot⟩
      exact ⟨⟨hgoes, rfl⟩, hnot⟩
    · rintro ⟨⟨-, rfl⟩, hnot⟩
      exact ⟨rfl, hnot⟩
  · simp [p.after_of_not_goesOn op (some c) hgoes, hgoes]

/-- A run that heeds a cancellation makes the first calls of the run that does not. -/
theorem runFrom_prefix (left index began : Nat) :
    (p.runFrom op (some c) left index began).calls <+:
      (p.runFrom op none left index began).calls := by
  induction left generalizing index began with
  | zero => simp only [runFrom_zero, List.prefix_rfl]
  | succ left ih =>
    rw [runFrom_succ, runFrom_succ]
    cases hcut : p.after op (some c) (op.call index began) with
    | ok next =>
      rw [((p.after_some_eq_ok_iff op c).1 hcut).1]
      exact List.prefix_cons_inj _ |>.2 (ih (index + 1) next)
    | error t =>
      cases p.after op none (op.call index began) <;> simp [Trial.precede]

theorem calls_runFrom_ne_nil (left index began : Nat) :
    (p.runFrom op none left index began).calls ≠ [] := by
  cases left with
  | zero => simp [runFrom_zero]
  | succ left =>
    rw [runFrom_succ]
    cases p.after op none (op.call index began) <;> simp [Trial.precede]

/-- It is the same run if the cancellation does not come while another attempt is due. -/
theorem runFrom_eq {left index began : Nat}
    (h : ∀ call ∈ (p.runFrom op none left index began).calls.dropLast,
      ¬ c.ComesBefore call.index (op.clock.resumes p.delay call.ended)) :
    p.runFrom op (some c) left index began = p.runFrom op none left index began := by
  induction left generalizing index began with
  | zero => rw [runFrom_zero, runFrom_zero]
  | succ left ih =>
    rw [runFrom_succ] at h
    rw [runFrom_succ, runFrom_succ]
    cases hplain : p.after op none (op.call index began) with
    | error t =>
      obtain ⟨hstop, rfl⟩ := (p.after_none_eq_error_iff op).1 hplain
      rw [p.after_of_not_goesOn op (some c) hstop]
    | ok next =>
      simp only [hplain, Trial.precede,
        List.dropLast_cons_of_ne_nil (p.calls_runFrom_ne_nil op left (index + 1) next),
        List.forall_mem_cons] at h
      obtain ⟨-, hdue⟩ := (p.after_none_eq_ok_iff op).1 hplain
      rw [(p.after_some_eq_ok_iff op c).2 ⟨hplain, hdue ▸ h.1⟩]
      simp only [ih h.2]

end Policy

namespace Trial.Follows

variable {p op c} {first : Call} {t : Trial ε τ}

/-- A call that succeeded is the last one. -/
theorem result_of_ok {c : Option Cancellation} (h : Trial.Follows p op c first t) {call : Call}
    (hcall : call ∈ t.calls) {v : τ} (hok : op.answer call.index = .ok v) : t.result = .ok v := by
  obtain ⟨k, hk, rfl⟩ := List.getElem_of_mem hcall
  obtain ⟨last, hlast, hresult, -⟩ := h.closed
  obtain hlt | heq := Nat.lt_or_eq_of_le hk
  · have hgoes : p.GoesOn op t.calls[k].index := by
      by_contra hstop
      exact absurd ((h.after_getElem hlt).symm.trans (p.after_of_not_goesOn op c hstop)) (by simp)
    obtain ⟨-, e, herror, -⟩ := hgoes
    exact absurd (hok.symm.trans herror) (by simp)
  · rw [List.getLast?_eq_getElem?, ← heq, Nat.succ_sub_one, List.getElem?_eq_getElem hk] at hlast
    rw [hresult, ← Option.some.inj hlast, hok]

/-- After every call but the last one, the cancellation did not come before the next was due. -/
theorem not_comesBefore (h : Trial.Follows p op (some c) first t) {k : Nat} {call : Call}
    (hk : k + 1 < t.calls.length) (hcall : t.calls[k]? = some call) :
    ¬ c.ComesBefore call.index (op.clock.resumes p.delay call.ended) := by
  obtain ⟨_, rfl⟩ := List.getElem?_eq_some_iff.1 hcall
  obtain ⟨hplain, hnot⟩ := (p.after_some_eq_ok_iff op c).1 (h.after_getElem hk)
  rwa [← ((p.after_none_eq_ok_iff op).1 hplain).2]

/-- A run that heeds a cancellation ends with its last call or, while it waits, with the
cancellation. -/
theorem ended_of_cancellation (h : Trial.Follows p op (some c) first t) {last : Call}
    (hlast : t.calls.getLast? = some last) :
    t.ended = last.ended ∨ (¬ c.ComesBefore last.index last.ended ∧ c.atTick = some t.ended ∧
      t.ended < op.clock.resumes p.delay last.ended) := by
  obtain ⟨last', hlast', -, hclosed⟩ := h.closed
  obtain rfl := Option.some.inj (hlast.symm.trans hlast')
  by_cases hgoes : p.GoesOn op last.index
  · rw [p.after_of_goesOn op (some c) hgoes, Policy.pauseAfter_some_eq_error_iff] at hclosed
    exact hclosed.imp_left And.right
  · rw [p.after_of_not_goesOn op (some c) hgoes] at hclosed
    exact .inl (Except.error.inj hclosed).symm

end Trial.Follows

/-- What becomes of a run that heeds a cancellation, beside the same run that nothing cuts short. The
delay after a call is over at the tick at which the clock lets the run go on. -/
structure Heeded (plain cut : Trial ε τ) : Prop where
  /-- A cancellation that never comes changes nothing, neither does one that comes when no other
  attempt is due. -/
  never : (∀ i due, ¬ c.ComesBefore i due) → cut = plain
  untouched : (∀ call ∈ plain.calls.dropLast,
    ¬ c.ComesBefore call.index (op.clock.resumes p.delay call.ended)) → cut = plain
  /-- The first attempt is always made, and then the attempts of the plain run up to some point,
  each at its time and in full. -/
  first : cut.calls.head? = some (op.call 1 0)
  calls : cut.calls <+: plain.calls
  attempts : (cut.report p).attempts <+: (plain.report p).attempts
  whole : ∀ call ∈ cut.calls, call = op.call call.index call.began
  /-- No attempt is made after one that the cancellation came during or before, nor where it came
  before the delay after that was over. -/
  stops : ∀ call ∈ plain.calls, c.ComesBefore call.index (op.clock.resumes p.delay call.ended) →
    ∀ later ∈ cut.calls, later.index ≤ call.index
  /-- The result is that of the last attempt, a success is kept, and the report lists the
  attempts. -/
  result : ∀ last, cut.calls.getLast? = some last → cut.result = op.answer last.index
  success : ∀ call ∈ cut.calls, ∀ v, op.answer call.index = .ok v →
    cut.result = .ok v ∧ (cut.report p).succeeded = true
  listed : (cut.report p).attempts = cut.calls.map fun call ↦ op.attempt call.index
  /-- The run returns when its last attempt ends, or when the cancellation comes in the delay after
  it, which is then not waited for. -/
  prompt : ∀ last, cut.calls.getLast? = some last → cut.ended = last.ended ∨
    (¬ c.ComesBefore last.index last.ended ∧ c.atTick = some cut.ended ∧
      last.ended ≤ cut.ended ∧ cut.ended < op.clock.resumes p.delay last.ended)
  /-- A delay is over when it says so: on the exact clock however long it is, on any clock if it is
  no longer than thirty years. -/
  kept : op.clock = .exact ∨ p.delay.nanos ≤ Duration.thirtyYears.nanos →
    ∀ ended due, p.delay.limit? ended = some due → op.clock.resumes p.delay ended = due

/-- **A run heeds its cancellation.** -/
theorem Policy.runCancellable_heeded : Heeded p op c (p.run op) (p.runCancellable op c) := by
  have hplain := p.run_follows op
  have hcut := p.runCancellable_follows op c
  have hcalls : (p.runCancellable op c).calls <+: (p.run op).calls := p.runFrom_prefix op c _ 1 0
  exact {
    never := fun h ↦ p.runFrom_eq op c fun _ _ ↦ h _ _
    untouched := p.runFrom_eq op c
    first := hcut.begun
    calls := hcalls
    attempts := by
      rw [Trial.report, Trial.report, hcut.attempts, hplain.attempts]
      exact hcalls.map _
    whole := hcut.whole
    stops := by
      intro call hcall hcomes later hlater
      by_contra! hlt
      obtain ⟨k, hk, rfl⟩ := List.getElem_of_mem hlater
      obtain ⟨j, hj, rfl⟩ := List.getElem_of_mem hcall
      rw [hplain.index_getElem, hcut.index_getElem] at hlt
      have hj : j < (p.runCancellable op c).calls.length := by omega
      refine hcut.not_comesBefore (by omega) (List.getElem?_eq_getElem hj) ?_
      rwa [hcalls.getElem]
    result := by
      intro last hlast
      obtain ⟨last', hlast', hresult, -⟩ := hcut.closed
      rwa [Option.some.inj (hlast.symm.trans hlast')]
    success := by
      intro call hcall v hok
      have hresult := hcut.result_of_ok hcall hok
      refine ⟨hresult, ?_⟩
      rw [Trial.report, hresult]
      rfl
    listed := hcut.attempts
    prompt := by
      intro last hlast
      obtain hended | ⟨hnot, htick, hlt⟩ := hcut.ended_of_cancellation hlast
      · exact .inl hended
      · exact .inr ⟨hnot, htick, Nat.not_lt.1 fun hlt ↦ hnot (.inr (.inl ⟨_, htick, hlt⟩)), hlt⟩
    kept := by
      rintro (hexact | hle) ended due hlimit
      · exact hexact ▸ Clock.resumes_exact hlimit
      · exact op.clock.resumes_eq hle hlimit }

/-- A delay of a hundred years that is cancelled after fifty has no other attempt after it. -/
example :
    let p : Policy Fault := { maxAttempts := 2, delay := .ofSeconds (100 * 365 * 86400) }
    let t := p.runCancellable (.scripted [some ⟨"busy", "later"⟩] 0) { atTick := some 1576800000000 }
    t.calls.length = 1 ∧ t.ended = 1576800000000 := by
  decide

end Beside

end PullConsumer.Retry
