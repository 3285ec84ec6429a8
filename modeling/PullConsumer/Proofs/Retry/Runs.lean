import Mathlib.Algebra.BigOperators.Group.List.Basic
import Mathlib.Algebra.GroupWithZero.Nat
import Mathlib.Data.List.Chain
import Mathlib.Order.Bounds.Basic
import PullConsumer.Proofs.Retry.Adjustments
import PullConsumer.Retry.Timeline

/-!
# How a run goes

What a run does after a call of its operation is said once (`Policy.after`): another call begins at
some tick, or the run ends at some tick. A trial that follows this from a call on is described by
`Trial.Follows`, and every run is such a trial (`runFrom_follows`), whether it heeds a cancellation
or not.

For a run that nothing cuts short this comes to a reference without a loop (`Reference`): the number
of calls is the least one at which there is nothing left to try, and the delay lies between each
call and the next one and nowhere else.
-/

namespace PullConsumer.Retry

variable {ε τ : Type} [Categorized ε]

/-- The text of the error that an attempt ended with, if it did. -/
def failure? : Except ε τ → Option String
  | .ok _ => none
  | .error e => some (Categorized.text e)

/-- Call number `index` of an operation, made at a tick. -/
def Operation.call (op : Operation ε τ) (index began : Nat) : Call :=
  ⟨index, began, began + op.ticks index⟩

omit [Categorized ε] in
@[simp]
theorem Operation.call_index (op : Operation ε τ) (index began : Nat) :
    (op.call index began).index = index :=
  rfl

omit [Categorized ε] in
@[simp]
theorem Operation.call_began (op : Operation ε τ) (index began : Nat) :
    (op.call index began).began = began :=
  rfl

/-- What a report says of attempt number `index`. -/
def Operation.attempt (op : Operation ε τ) (index : Nat) : Attempt :=
  ⟨index, failure? (op.answer index)⟩

namespace Policy

/-- What follows a call: the tick at which the next one begins, or the tick at which the run
ends. -/
def after (p : Policy ε) (op : Operation ε τ) (c : Option Cancellation) (call : Call) :
    Except Nat Nat :=
  match op.answer call.index with
  | .ok _ => .error call.ended
  | .error e =>
    match p.verdict call.index e with
    | .giveUp => .error call.ended
    | .again => p.pauseAfter op.clock c call.index call.ended

end Policy

/-! ### Trials that follow a policy -/

/-- A trial does what a policy says, from one of its calls on. -/
structure Trial.Follows (p : Policy ε) (op : Operation ε τ) (c : Option Cancellation) (first : Call)
    (t : Trial ε τ) : Prop where
  begun : t.calls.head? = some first
  numbered : t.calls.map Call.index = List.range' first.index t.calls.length
  whole : ∀ call ∈ t.calls, call = op.call call.index call.began
  chained : t.calls.IsChain fun earlier later ↦ p.after op c earlier = .ok later.began
  attempts : t.attempts = t.calls.map fun call ↦ op.attempt call.index
  closed : ∃ last, t.calls.getLast? = some last ∧ t.result = op.answer last.index ∧
    p.after op c last = .error t.ended

namespace Trial.Follows

/-- A run that ends with the call that it begins with. -/
theorem once {p : Policy ε} {op : Operation ε τ} {c : Option Cancellation}
    {index began ended : Nat} (h : p.after op c (op.call index began) = .error ended) :
    Trial.Follows p op c (op.call index began)
      ⟨[op.call index began], [op.attempt index], op.answer index, ended⟩ where
  begun := rfl
  numbered := rfl
  whole := by simp [Operation.call]
  chained := List.isChain_singleton _
  attempts := rfl
  closed := ⟨_, rfl, rfl, h⟩

/-- A run that goes on after the call that it begins with. -/
theorem precede {p : Policy ε} {op : Operation ε τ} {c : Option Cancellation}
    {index began next : Nat} {t : Trial ε τ}
    (ht : Trial.Follows p op c (op.call (index + 1) next) t)
    (h : p.after op c (op.call index began) = .ok next) :
    Trial.Follows p op c (op.call index began)
      (t.precede (op.call index began) (op.attempt index)) := by
  obtain ⟨calls, attempts, result, ended⟩ := t
  obtain ⟨hbegun, hnumbered, hwhole, hchained, hattempts, last, hlast, hclosed⟩ := ht
  obtain ⟨rest, rfl⟩ : ∃ rest, calls = op.call (index + 1) next :: rest :=
    List.head?_eq_some_iff.1 hbegun
  refine ⟨rfl, ?_, ?_, ?_, ?_, last, ?_, hclosed⟩
  · simpa [Trial.precede, List.range'_succ, Operation.call] using hnumbered
  · intro call hmem
    obtain rfl | hmem := List.mem_cons.1 hmem
    · rfl
    · exact hwhole call hmem
  · exact List.isChain_cons_cons.2 ⟨h, hchained⟩
  · exact congrArg (op.attempt index :: ·) hattempts
  · rw [Trial.precede, List.getLast?_cons_cons]
    exact hlast

end Trial.Follows

namespace Policy

variable (p : Policy ε) (op : Operation ε τ) (c : Option Cancellation)

/-- The last attempt that is allowed ends a run. -/
theorem runFrom_zero (index began : Nat) :
    p.runFrom op c 0 index began =
      ⟨[op.call index began], [op.attempt index], op.answer index, began + op.ticks index⟩ := by
  rw [runFrom]
  cases hanswer : op.answer index <;> simp [Operation.call, Operation.attempt, hanswer, failure?]

/-- What becomes of a run after any other attempt. -/
theorem runFrom_succ (left index began : Nat) :
    p.runFrom op c (left + 1) index began =
      match p.after op c (op.call index began) with
      | .error t => ⟨[op.call index began], [op.attempt index], op.answer index, t⟩
      | .ok next => (p.runFrom op c left (index + 1) next).precede (op.call index began)
          (op.attempt index) := by
  rw [runFrom, after]
  simp only [Operation.call, Operation.attempt]
  cases hanswer : op.answer index with
  | ok v => rfl
  | error e =>
    cases hverdict : p.verdict index e with
    | giveUp => simp [failure?, hverdict]
    | again =>
      cases hpause : p.pauseAfter op.clock c index (began + op.ticks index) <;>
        simp [failure?, hverdict]

/-- A policy wants another attempt after number `i`: that one failed with an error that it lets
pass, and was not the last one it allows. -/
def GoesOn (i : Nat) : Prop :=
  i < p.maxAttempts ∧ ∃ e, op.answer i = .error e ∧ p.isRetryable e = true

/-- Where a policy wants another attempt, a pause comes next. -/
theorem after_of_goesOn {call : Call} (h : p.GoesOn op call.index) :
    p.after op c call = p.pauseAfter op.clock c call.index call.ended := by
  obtain ⟨hlt, e, hanswer, hretry⟩ := h
  simp [after, hanswer, verdict, hretry, Nat.not_le.2 hlt]

/-- Where it wants none, the run ends with the call. -/
theorem after_of_not_goesOn {call : Call} (h : ¬ p.GoesOn op call.index) :
    p.after op c call = .error call.ended := by
  rw [after]
  cases hanswer : op.answer call.index with
  | ok v => rfl
  | error e =>
    have hgiveUp : p.verdict call.index e = .giveUp := by
      rw [verdict]
      split
      · rfl
      · next hlt => exact if_neg fun hretry ↦ h ⟨Nat.not_le.1 hlt, e, hanswer, hretry⟩
    simp only [hgiveUp]

/-- **A run does what its policy says**, as long as it may make all the attempts of the policy. -/
theorem runFrom_follows {left index : Nat} (began : Nat) (hleft : p.maxAttempts ≤ index + left) :
    Trial.Follows p op c (op.call index began) (p.runFrom op c left index began) := by
  induction left generalizing index began with
  | zero =>
    rw [runFrom_zero]
    exact .once (p.after_of_not_goesOn op c fun hgoes ↦ Nat.not_lt.2 hleft hgoes.1)
  | succ left ih =>
    rw [runFrom_succ]
    cases hafter : p.after op c (op.call index began) with
    | error t => exact .once hafter
    | ok next => exact (ih next (by omega)).precede hafter

theorem run_follows : Trial.Follows p op none (op.call 1 0) (p.run op) :=
  p.runFrom_follows op none 0 (by omega)

theorem runCancellable_follows (c : Cancellation) :
    Trial.Follows p op (some c) (op.call 1 0) (p.runCancellable op c) :=
  p.runFrom_follows op (some c) 0 (by omega)

end Policy

namespace Trial.Follows

variable {p : Policy ε} {op : Operation ε τ} {c : Option Cancellation} {first : Call}
  {t : Trial ε τ}

/-- The calls are numbered one after another. -/
theorem index_getElem (h : Trial.Follows p op c first t) {k : Nat} (hk : k < t.calls.length) :
    t.calls[k].index = first.index + k := by
  have hnumber : (t.calls.map Call.index)[k]? = some (first.index + k) := by
    rw [h.numbered, List.getElem?_range' hk, Nat.one_mul]
  simpa [List.getElem?_eq_getElem hk] using hnumber

/-- So the last one has the number of the calls before it, counted on from the first. -/
theorem index_getLast (h : Trial.Follows p op c first t) {last : Call}
    (hlast : t.calls.getLast? = some last) : last.index + 1 = first.index + t.calls.length := by
  obtain ⟨hk, rfl⟩ := List.getElem?_eq_some_iff.1 (List.getLast?_eq_getElem? ▸ hlast)
  rw [h.index_getElem]
  omega

/-- What was said to follow a call is the call after it. -/
theorem after_getElem (h : Trial.Follows p op c first t) {k : Nat} (hk : k + 1 < t.calls.length) :
    p.after op c t.calls[k] = .ok t.calls[k + 1].began :=
  List.isChain_iff_getElem.1 h.chained k hk

end Trial.Follows

/-! ### Runs that nothing cuts short -/

namespace Policy

variable (p : Policy ε) (op : Operation ε τ)

omit [Categorized ε] in
/-- Without a cancellation a pause is over when the delay is, which may be none. -/
@[simp]
theorem pauseAfter_none (k : Clock) (attempt ended : Nat) :
    p.pauseAfter k none attempt ended = .ok (k.resumes p.delay ended) := by
  rw [pauseAfter, Clock.resumes]
  split <;> rfl

/-- Nothing but the policy decides what follows a call. -/
theorem after_none_eq_ok_iff {call : Call} {next : Nat} :
    p.after op none call = .ok next ↔
      p.GoesOn op call.index ∧ next = op.clock.resumes p.delay call.ended := by
  by_cases hgoes : p.GoesOn op call.index
  · simp [p.after_of_goesOn op none hgoes, hgoes, eq_comm]
  · simp [p.after_of_not_goesOn op none hgoes, hgoes]

theorem after_none_eq_error_iff {call : Call} {ended : Nat} :
    p.after op none call = .error ended ↔ ¬ p.GoesOn op call.index ∧ ended = call.ended := by
  by_cases hgoes : p.GoesOn op call.index
  · simp [p.after_of_goesOn op none hgoes, hgoes]
  · simp [p.after_of_not_goesOn op none hgoes, hgoes, eq_comm]

end Policy

namespace Trial.Follows

variable {p : Policy ε} {op : Operation ε τ} {first : Call} {t : Trial ε τ}

/-- After every call but the last one the policy wanted another attempt. -/
theorem goesOn_of_lt (h : Trial.Follows p op none first t) {k : Nat} (hk : k + 1 < t.calls.length) :
    p.GoesOn op (first.index + k) :=
  h.index_getElem _ ▸ ((p.after_none_eq_ok_iff op).1 (h.after_getElem hk)).1

/-- After the last call it wanted none, and the run ended there. -/
theorem ended_getLast (h : Trial.Follows p op none first t) {last : Call}
    (hlast : t.calls.getLast? = some last) :
    ¬ p.GoesOn op last.index ∧ t.ended = last.ended := by
  obtain ⟨last', hlast', -, hclosed⟩ := h.closed
  obtain rfl := Option.some.inj (hlast.symm.trans hlast')
  exact (p.after_none_eq_error_iff op).1 hclosed

/-- A delay lies between each call and the next. -/
theorem between (h : Trial.Follows p op none first t) :
    t.calls.IsChain fun earlier later ↦ later.began = op.clock.resumes p.delay earlier.ended :=
  h.chained.imp fun _ _ hafter ↦ ((p.after_none_eq_ok_iff op).1 hafter).2

end Trial.Follows

omit [Categorized ε] in
/-- The time that calls take which lie a delay apart: their own, and that of the delays. -/
theorem ended_of_chained {op : Operation ε τ} {delay : Duration} {calls : List Call}
    (hwhole : ∀ call ∈ calls, call.ended = call.began + op.ticks call.index)
    (hbetween : calls.IsChain fun earlier later ↦
      later.began = op.clock.resumes delay earlier.ended)
    {first last : Call} (hfirst : calls.head? = some first) (hlast : calls.getLast? = some last) :
    last.ended = first.began + (calls.map fun call ↦ op.ticks call.index).sum +
      (calls.dropLast.map fun call ↦ op.clock.resumes delay call.ended - call.ended).sum := by
  induction calls generalizing first with
  | nil => simp at hfirst
  | cons call rest ih =>
    obtain rfl : call = first := by simpa using hfirst
    have hcall := hwhole call (List.mem_cons_self ..)
    cases rest with
    | nil =>
      obtain rfl : call = last := by simpa using hlast
      simpa using hcall
    | cons next rest =>
      obtain ⟨hnext, hbetween⟩ := List.isChain_cons_cons.1 hbetween
      have := ih (fun x hx ↦ hwhole x (List.mem_cons_of_mem _ hx)) hbetween rfl
        (by rwa [List.getLast?_cons_cons] at hlast)
      have hle : call.ended ≤ op.clock.resumes delay call.ended := op.clock.le_resumes
      simp only [List.map_cons, List.sum_cons, List.dropLast_cons_cons] at this ⊢
      omega

/-- The time that calls spend in delays that take as long as they say. -/
theorem sum_pauses {k : Clock} {delay : Duration} {calls : List Call}
    (hkept : ∀ call ∈ calls, k.resumes delay call.ended = call.ended + delay.ticks) :
    (calls.map fun call ↦ k.resumes delay call.ended - call.ended).sum =
      calls.length * delay.ticks := by
  have hpauses : (calls.map fun call ↦ k.resumes delay call.ended - call.ended) =
      calls.map fun _ ↦ delay.ticks :=
    List.map_congr_left fun call hcall ↦ by rw [hkept call hcall, Nat.add_sub_cancel_left]
  rw [hpauses, List.map_const', List.sum_replicate_nat]

/-- There is nothing left to try after attempt number `i`: it succeeded, it was the last one
allowed, or its error is not worth another try. -/
def Operation.Settled (op : Operation ε τ) (attempts : Nat) (told : List (Adjustment ε)) (i : Nat) :
    Prop :=
  (∃ v, op.answer i = .ok v) ∨ i = attempts ∨
    ∃ e, op.answer i = .error e ∧ ¬ Adjustment.Passes told e

/-- Among the attempts it allows, a policy wants another one just where something is left to try. -/
theorem Policy.Adjusted.goesOn_iff {attempts : Nat} {told : List (Adjustment ε)} {p : Policy ε}
    (h : Policy.Adjusted attempts told p) (op : Operation ε τ) {i : Nat} (hi : i ≤ attempts) :
    p.GoesOn op i ↔ ¬ op.Settled attempts told i := by
  rw [Policy.GoesOn, Operation.Settled, h.maxAttempts]
  cases op.answer i with
  | ok v => simp
  | error e =>
    simp only [Except.error.injEq, exists_eq_left', h.isRetryable_iff, reduceCtorEq, exists_false,
      false_or, not_or, not_not]
    exact and_congr_left fun _ ↦ ⟨Nat.ne_of_lt, Nat.lt_of_le_of_ne hi⟩

/-- The operation is called until nothing is left to try, and no longer. -/
theorem Policy.Adjusted.isLeast_calls {attempts : Nat} {told : List (Adjustment ε)} {p : Policy ε}
    (h : Policy.Adjusted attempts told p) (hpos : 0 < attempts) (op : Operation ε τ) :
    IsLeast {i | 1 ≤ i ∧ op.Settled attempts told i} (p.run op).calls.length := by
  have hrun := p.run_follows op
  set n := (p.run op).calls.length
  obtain ⟨last, hlast, -⟩ := hrun.closed
  have hn : last.index = n := by
    have := hrun.index_getLast hlast
    rw [Operation.call_index] at this
    omega
  have hone : 1 ≤ n := List.length_pos_of_mem (List.mem_of_getLast? hlast)
  have hgoes : ∀ i, 1 ≤ i → i < n → p.GoesOn op i := by
    intro i hi hlt
    have := hrun.goesOn_of_lt (k := i - 1) (by omega)
    rwa [Operation.call_index, Nat.add_sub_cancel' hi] at this
  -- The call before the last one was not the last that is allowed.
  have hle : n ≤ attempts := by
    obtain hn1 | hn1 := Nat.eq_or_lt_of_le hone
    · omega
    · have := (hgoes (n - 1) (by omega) (by omega)).1
      rw [h.maxAttempts] at this
      omega
  refine ⟨⟨hone, ?_⟩, ?_⟩
  · by_contra hsettled
    exact (hrun.ended_getLast hlast).1 (hn ▸ (h.goesOn_iff op hle).2 hsettled)
  · rintro i ⟨hi, hsettled⟩
    by_contra! hlt
    exact (h.goesOn_iff op (hlt.le.trans hle)).1 (hgoes i hi hlt) hsettled

/-- What a run and its report amount to, read off the number of attempts, what the policy was told
and what the operation answers. -/
structure Reference (attempts : Nat) (told : List (Adjustment ε)) (op : Operation ε τ)
    (t : Trial ε τ) (report : Report) (n : Nat) : Prop where
  /-- The run stops at the first attempt after which there is nothing left to try. -/
  least : IsLeast {i | 1 ≤ i ∧ op.Settled attempts told i} n
  /-- It calls the operation that often, and its numbers stay in range. -/
  calls : t.calls.map Call.index = List.range' 1 n
  inRange : ∀ call ∈ t.calls, call.index < 2 ^ 32
  result : t.result = op.answer n
  maxAttempts : report.maxAttempts = attempts
  succeeded : report.succeeded = true ↔ ∃ v, op.answer n = .ok v
  attempts : report.attempts = (List.range' 1 n).map op.attempt
  /-- The first call is made at once, each one takes its own time, the delay lies between each two
  of them, and nothing comes after the last one. -/
  first : ∀ call, t.calls.head? = some call → call.began = 0
  whole : ∀ call ∈ t.calls, call.ended = call.began + op.ticks call.index
  between : t.calls.IsChain fun earlier later ↦
    later.began = op.clock.resumes (Adjustment.lastDelay told) earlier.ended
  last : ∀ call, t.calls.getLast? = some call → t.ended = call.ended
  /-- So the run takes the time of the calls and of the delays after all of them but the last. -/
  lasts : t.ended = ((List.range' 1 n).map op.ticks).sum + (t.calls.dropLast.map fun call ↦
    op.clock.resumes (Adjustment.lastDelay told) call.ended - call.ended).sum
  /-- The delay is slept once less than the operation is called, each time as long as it says where
  the clock keeps to it. -/
  slept : (∀ call ∈ t.calls.dropLast, op.clock.resumes (Adjustment.lastDelay told) call.ended =
      call.ended + (Adjustment.lastDelay told).ticks) →
    t.ended = ((List.range' 1 n).map op.ticks).sum + (n - 1) * (Adjustment.lastDelay told).ticks

/-- **A run is what the reference says.** -/
theorem Policy.run_reference {attempts : Nat} {told : List (Adjustment ε)} {p : Policy ε}
    (hsetUp : Policy.setUp attempts told = .ok p) (hsize : attempts < 2 ^ 32) (op : Operation ε τ) :
    ∃ n, Reference attempts told op (p.run op) ((p.run op).report p) n := by
  obtain ⟨hpos, hp⟩ := Policy.adjusted hsetUp
  have hrun := p.run_follows op
  have hleast := hp.isLeast_calls hpos op
  set t := p.run op
  set n := t.calls.length
  obtain ⟨last, hlast, hresult, -⟩ := hrun.closed
  have hended := (hrun.ended_getLast hlast).2
  have hn : last.index = n := by
    have := hrun.index_getLast hlast
    rw [Operation.call_index] at this
    omega
  have hnumbered : t.calls.map Call.index = List.range' 1 n := hrun.numbered
  have hwhole : ∀ call ∈ t.calls, call.ended = call.began + op.ticks call.index :=
    fun call hcall ↦ congrArg Call.ended (hrun.whole call hcall)
  have hbetween := hp.delay ▸ hrun.between
  have hlasts : t.ended = ((List.range' 1 n).map op.ticks).sum + (t.calls.dropLast.map fun call ↦
      op.clock.resumes (Adjustment.lastDelay told) call.ended - call.ended).sum := by
    rw [hended, ended_of_chained hwhole hbetween hrun.begun hlast, ← hnumbered, List.map_map,
      Operation.call_began, Nat.zero_add]
    rfl
  have hle : n ≤ attempts := hleast.2 ⟨hpos, .inr (.inl rfl)⟩
  refine ⟨n, {
    least := hleast
    calls := hnumbered
    inRange := ?_
    result := hn ▸ hresult
    maxAttempts := hp.maxAttempts
    succeeded := ?_
    attempts := ?_
    first := ?_
    whole := hwhole
    between := hbetween
    last := ?_
    lasts := hlasts
    slept := ?_ }⟩
  · intro call hcall
    have hmem : call.index ∈ List.range' 1 n := hnumbered ▸ List.mem_map_of_mem hcall
    rw [List.mem_range'_1] at hmem
    omega
  · rw [Trial.report, hresult, hn]
    cases op.answer n <;> simp [Except.isOk, Except.toBool]
  · rw [← hnumbered, List.map_map]
    exact hrun.attempts
  · intro call hcall
    obtain rfl := Option.some.inj (hrun.begun.symm.trans hcall)
    rfl
  · intro call hcall
    obtain rfl := Option.some.inj (hlast.symm.trans hcall)
    exact hended
  · intro hkept
    rw [hlasts, sum_pauses hkept, List.length_dropLast]

/-- The reference of a run that is given up at its second error, which was denied. -/
theorem Policy.run_reference_denied :
    let told : List (Adjustment Fault) := [.delay (.ofMillis 20), .deny ["fatal"]]
    let op := Operation.scripted [some ⟨"busy", "later"⟩, some ⟨"fatal", "no"⟩] 3
    ∃ p : Policy Fault, Policy.setUp 5 told = .ok p ∧ 5 < 2 ^ 32 ∧
      ∃ n, Reference 5 told op (p.run op) ((p.run op).report p) n :=
  ⟨_, rfl, by decide, Policy.run_reference rfl (by decide) _⟩

end PullConsumer.Retry
