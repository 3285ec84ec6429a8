import PullConsumer.Proofs.Supervisor.Pursuits

/-!
# What becomes of tokens, calls and pullers in a move

Pullers, jobs, observers and calls have been followed step by step; what is left are the moves of
the user and the passing of time. A start that succeeds puts a token at the end of the tokens and a
puller at the end of the pullers for each subscription (`Launches`), and nothing else is ever done
to either list by the user but to cancel. That reaches a token and all that descend from it, and no
other one (`State.mem_reachedBy`).

The last section puts together what becomes of one token, one call and one puller in a move, whoever
makes it: a token stays cancelled (`State.isCancelled_move`), a call changes only in its own steps
or when it is given up (`State.call_of_move`), and a puller only in its own
(`State.puller_of_move`).
-/

namespace PullConsumer.Supervisor

/-- The moves of the user, of those around the supervisor, and of time. -/
def Move.isOfUser : Move → Bool
  | pull _ => false
  | work _ => false
  | listen => false
  | observe _ => false
  | pursue _ => false
  | _ => true

/-- A call is told of subscriptions that have failed, or of an interrupt. -/
def Call.Hears (c c' : Call) : Prop :=
  ∃ (reports : List RuntimeError) (interrupt : Option String),
    (∀ r ∈ reports, ∃ name cause, r = .subscriptionFailed name cause) ∧
    c' = { c with reports := c.reports ++ reports, interrupt }

theorem Call.Hears.refl (c : Call) : c.Hears c :=
  ⟨[], c.interrupt, fun _ h ↦ absurd h List.not_mem_nil, by rw [List.append_nil]⟩

/-- A call that was just made has heard of nothing; if it is answered already, it was refused. -/
structure Call.IsNew (c : Call) : Prop where
  reports : c.reports = []
  failure : c.failure = none
  answer : ∀ tick r, c.phase = .returned tick r → r = .error .alreadyStarted

/-! ### Tokens -/

namespace Token

/-- A token descends from another one that is its parent, or from which its parent does. -/
inductive Descends (tokens : List Token) (token : Nat) : Nat → Prop
  | child {n : Nat} (hparent : parent? tokens n = some token) : Descends tokens token n
  | further {n p : Nat} (hparent : parent? tokens n = some p) (hlt : p < n)
      (hp : Descends tokens token p) : Descends tokens token n

variable {tokens : List Token} {token first n : Nat}

/-- One look at each token finds all that descend from one. -/
theorem mem_descendants :
    n ∈ descendants tokens token first ↔ n < first ∧ Descends tokens token n := by
  induction first generalizing n with
  | zero => simp [descendants]
  | succ first ih =>
    -- What is looked at now descends if its parent does, which has been looked at.
    have hnow : (parent? tokens first).any (fun p ↦
        p = token || p ∈ descendants tokens token first) = true ↔ Descends tokens token first := by
      rw [Option.any_eq_true]
      constructor
      · rintro ⟨p, hparent, hp⟩
        rw [Bool.or_eq_true, decide_eq_true_iff, decide_eq_true_iff] at hp
        rcases hp with rfl | hp
        · exact .child hparent
        · obtain ⟨hlt, hdescends⟩ := ih.1 hp
          exact .further hparent hlt hdescends
      · rintro (hparent | ⟨hparent, hlt, hp⟩)
        · exact ⟨token, hparent, by simp⟩
        · exact ⟨_, hparent, by simp [ih.2 ⟨hlt, hp⟩]⟩
    rw [descendants, Nat.lt_succ_iff_lt_or_eq]
    by_cases hdescends : Descends tokens token first
    · rw [if_pos (hnow.2 hdescends), List.mem_cons, ih]
      constructor
      · rintro (rfl | ⟨hlt, hn⟩)
        · exact ⟨Or.inr rfl, hdescends⟩
        · exact ⟨Or.inl hlt, hn⟩
      · rintro ⟨hlt | rfl, hn⟩
        · exact Or.inr ⟨hlt, hn⟩
        · exact Or.inl rfl
    · rw [if_neg (hnow.not.2 hdescends), ih]
      constructor
      · exact fun ⟨hlt, hn⟩ ↦ ⟨Or.inl hlt, hn⟩
      · rintro ⟨hlt | rfl, hn⟩
        · exact ⟨hlt, hn⟩
        · exact absurd hn hdescends

theorem Descends.lt_length (h : Descends tokens token n) : n < tokens.length := by
  obtain ⟨p, hparent⟩ : ∃ p, parent? tokens n = some p := by
    cases h with
    | child hparent => exact ⟨_, hparent⟩
    | further hparent => exact ⟨_, hparent⟩
  obtain ⟨t, ht, -⟩ := Option.bind_eq_some_iff.1 hparent
  exact (List.getElem?_eq_some_iff.1 ht).1

end Token

namespace State

variable {s t : State}

theorem isCancelled_of_append {more : List Token} {k : Nat} (ht : t.tokens = s.tokens ++ more)
    (h : s.isCancelled k = true) : t.isCancelled k = true := by
  have hlt : k < s.tokens.length := by
    by_contra hge
    simp [isCancelled, List.getElem?_eq_none (Nat.le_of_not_lt hge)] at h
  rw [isCancelled, ht, List.getElem?_append_left hlt]
  exact h

/-- To cancel leaves every token cancelled that it reaches, and every other as it was. -/
theorem isCancelled_cancel (s : State) (token k : Nat) : (s.cancel token).isCancelled k =
    (s.isCancelled k || (decide (k ∈ s.reachedBy token) && decide (k < s.tokens.length))) := by
  have key (ns : List Nat) (ts : List Token) :
      ((ns.foldl (fun ts i ↦ ts.modify i fun t ↦ { t with cancelled := true }) ts)[k]?).map
        Token.cancelled = (ts[k]?).map fun t ↦ t.cancelled || decide (k ∈ ns) := by
    induction ns generalizing ts with
    | nil => simp
    | cons i rest ih =>
      rw [List.foldl_cons, ih, List.getElem?_modify]
      by_cases h : i = k
      · simp [h, Option.map_map, Function.comp_def]
      · simp [h, Ne.symm h]
  rw [isCancelled, tokens_cancel, key, isCancelled]
  by_cases hk : k < s.tokens.length
  · simp [hk]
  · simp [hk]

/-- **A cancellation reaches a token and all that descend from it**, as far as they are not cancelled
already. -/
theorem mem_reachedBy {token n : Nat} : n ∈ s.reachedBy token ↔
    (n = token ∨ Token.Descends s.tokens token n) ∧ s.isCancelled n = false := by
  rw [reachedBy, List.mem_filter, List.mem_append, List.mem_singleton, Token.mem_descendants,
    Bool.not_eq_true']
  refine and_congr_left fun _ ↦ ⟨?_, ?_⟩
  · rintro (⟨-, hn⟩ | rfl)
    · exact Or.inr hn
    · exact Or.inl rfl
  · rintro (rfl | hn)
    · exact Or.inr rfl
    · exact Or.inl ⟨hn.lt_length, hn⟩

theorem isCancelled_cancel_iff {token k : Nat} : (s.cancel token).isCancelled k = true ↔
    s.isCancelled k = true ∨ k < s.tokens.length ∧ (k = token ∨ Token.Descends s.tokens token k) := by
  rw [isCancelled_cancel, Bool.or_eq_true, Bool.and_eq_true, decide_eq_true_iff, decide_eq_true_iff,
    mem_reachedBy]
  cases s.isCancelled k <;> simp [and_comm]

theorem isCancelled_cancel_of {token k : Nat} (h : s.isCancelled k = true) :
    (s.cancel token).isCancelled k = true := by
  rw [isCancelled_cancel, h, Bool.true_or]

theorem isCancelled_cancel_self {token : Nat} (h : token < s.tokens.length) :
    (s.cancel token).isCancelled token = true :=
  isCancelled_cancel_iff.2 (Or.inr ⟨h, Or.inl rfl⟩)

theorem length_tokens_cancel (s : State) (token : Nat) :
    (s.cancel token).tokens.length = s.tokens.length := by
  have key (ns : List Nat) (ts : List Token) : (ns.foldl (fun ts i ↦
      ts.modify i fun t ↦ { t with cancelled := true }) ts).length = ts.length := by
    induction ns generalizing ts with
    | nil => rfl
    | cons i rest ih => exact (ih _).trans (List.length_modify ..)
  rw [tokens_cancel]
  exact key _ _

/-! ### Starts -/

/-- A start that succeeds, made by the user or in a run: its token comes after all others, and so do
its pullers. A run that begins with it is a call that watches for what ends the run. -/
structure Launches (s t : State) : Prop where
  stopped : s.running = none
  running : ∃ token, s.tokens.length ≤ token ∧ token < t.tokens.length ∧ t.running = some ⟨token,
    (List.range s.setup.subscriptions.length).map (s.pullers.length + ·)⟩
  tokens : ∃ more, t.tokens = s.tokens ++ more
  calls : ∃ more, t.calls = s.calls ++ more ∧
    ∀ c ∈ more, c.phase = .watching ∧ c.reports = [] ∧ c.failure = none
  stopping : t.stopping = s.stopping
  books : ∃ token reporter, t.books =
    s.books.spawn token reporter 0 s.setup.subscriptions.length

theorem tokens_spawnPullers (s : State) (token : Nat) (reporter : Reporter) (first left : Nat) :
    (s.spawnPullers token reporter first left).tokens = s.tokens := by
  induction left generalizing s first with
  | zero => rfl
  | succ left ih => exact ih _ _

/-- **A start is refused and changes nothing, or nothing was running and it succeeds.** -/
theorem launch_cases (s : State) (parent : Nat) (reporter : Reporter) :
    (s.running.isSome = true ∧ s.start parent reporter = (.error .alreadyStarted, s)) ∨
      ∃ t, s.start parent reporter = (.ok (), t) ∧ Launches s t := by
  rw [start]
  split
  · next r hrunning => exact Or.inl ⟨by rw [hrunning]; rfl, rfl⟩
  · next hrunning =>
    set u := (s.newToken (some parent)).2.spawnPullers s.tokens.length reporter 0
      s.setup.subscriptions.length with hu
    have hbooks : u.books = s.books.spawn s.tokens.length reporter 0
      s.setup.subscriptions.length := books_spawnPullers ..
    have hlength : u.pullers.length - s.pullers.length = s.setup.subscriptions.length := by
      have hpullers := congrArg (fun b : Books ↦ b.pullers.length) hbooks
      simp only [Books.spawn, List.length_append, List.length_map, List.length_range'] at hpullers
      show u.books.pullers.length - s.books.pullers.length = _
      omega
    have hcontrol : u.control = s.control := control_spawnPullers ..
    have htokens : u.tokens = (s.newToken (some parent)).2.tokens := tokens_spawnPullers ..
    have hlt : s.tokens.length < u.tokens.length := by simp [htokens, newToken]
    exact Or.inr ⟨_, rfl, {
      stopped := hrunning
      running := ⟨s.tokens.length, Nat.le_refl _, hlt, congrArg (fun k ↦ some (⟨s.tokens.length,
        (List.range k).map (s.pullers.length + ·)⟩ : Running)) hlength⟩
      tokens := ⟨_, htokens⟩
      calls := ⟨[], (calls_spawnPullers ..).trans (List.append_nil _).symm,
        fun _ hc ↦ absurd hc List.not_mem_nil⟩
      stopping := congrArg Control.stopping hcontrol
      books := ⟨_, reporter, hbooks⟩ }⟩

/-- **A run that is called for is refused at once, or it starts.** -/
theorem launchRun_cases (s : State) (patience : Option Nat) :
    (s.running.isSome = true ∧
      s.enterRun patience = s.enter { phase := .returned s.now (.error .alreadyStarted) }) ∨
    Launches s (s.enterRun patience) := by
  rw [enterRun]
  dsimp only
  rcases launch_cases (s.newToken none).2 (s.newToken none).1 (.call s.calls.length) with
    ⟨hrunning, hstart⟩ | ⟨t, hstart, hlaunch⟩
  · rw [hstart]
    exact Or.inl ⟨hrunning, rfl⟩
  · rw [hstart]
    obtain ⟨token, hle, hlt, hrunning⟩ := hlaunch.running
    obtain ⟨more, htokens⟩ := hlaunch.tokens
    obtain ⟨new, hcalls, hnew⟩ := hlaunch.calls
    refine Or.inr {
      stopped := hlaunch.stopped
      running := ⟨token, (Nat.le_succ _).trans ?_, hlt, hrunning⟩
      tokens := ⟨_, htokens.trans (List.append_assoc ..)⟩
      calls := ⟨new ++ [{ phase := .watching, patienceDue := patience.map (s.now + ·) }], ?_, ?_⟩
      stopping := hlaunch.stopping
      books := hlaunch.books }
    · simpa [newToken] using hle
    · show t.calls ++ [_] = _
      rw [hcalls, List.append_assoc]
      rfl
    · intro c hc
      rcases List.mem_append.1 hc with hc | hc
      · exact hnew c hc
      · rw [List.mem_singleton.1 hc]
        exact ⟨rfl, rfl, rfl⟩

/-! ### The moves of the user -/

/-- **What the user and time do to the books**: nothing, unless a start puts pullers to work, or the
move is about the broker or the clock. -/
theorem user_cases (s : State) {m : Move} (hm : m.isOfUser = true) :
    (s.move m).books = s.books ∨ Launches s (s.move m) ∨ (∃ x, m = .supply x) ∨
      (∃ b, m = .meddle b) ∨ ∃ x looks roused, m = .pass x looks roused := by
  cases m with
  | pull n => exact absurd hm (by simp [Move.isOfUser])
  | work n => exact absurd hm (by simp [Move.isOfUser])
  | listen => exact absurd hm (by simp [Move.isOfUser])
  | observe n => exact absurd hm (by simp [Move.isOfUser])
  | pursue n => exact absurd hm (by simp [Move.isOfUser])
  | giveUp n =>
    refine Or.inl ?_
    show (if s.isOver n then s else s.dropCall n).books = _
    split
    · rfl
    · exact books_dropCall s n
  | start parent =>
    rcases launch_cases s parent .callback with ⟨-, hstart⟩ | ⟨t, hstart, h⟩
    · have hmove : s.move (.start parent) = s := congrArg Prod.snd hstart
      exact Or.inl (congrArg books hmove)
    · have hmove : s.move (.start parent) = t := congrArg Prod.snd hstart
      exact Or.inr (Or.inl (hmove ▸ h))
  | callRun patience =>
    rcases launchRun_cases s patience with ⟨-, henter⟩ | h
    · exact Or.inl ((congrArg books henter).trans rfl)
    · exact Or.inr (Or.inl h)
  | callStop patience => exact Or.inl rfl
  | interrupt name => exact Or.inl (books_notify _ _)
  | newToken parent => exact Or.inl rfl
  | cancel token => exact Or.inl (books_cancel s token)
  | abandon => exact Or.inl (books_notify _ _)
  | supply x => exact Or.inr (Or.inr (Or.inl ⟨x, rfl⟩))
  | meddle b => exact Or.inr (Or.inr (Or.inr (Or.inl ⟨b, rfl⟩)))
  | pass x looks roused => exact Or.inr (Or.inr (Or.inr (Or.inr ⟨x, looks, roused, rfl⟩)))

/-- **The user and time leave the books alone**, but for the clock, the broker, and the pullers that
a start puts to work. -/
theorem books_of_user (s : State) {m : Move} (hm : m.isOfUser = true) :
    (s.move m).books = { s.books with
      now := (s.move m).now, broker := (s.move m).broker, pullers := (s.move m).pullers } ∧
    ∃ new, (s.move m).pullers = s.pullers ++ new ∧ ∀ p ∈ new, p.phase = .fresh := by
  have hnobody : s.pullers = s.pullers ++ [] ∧ ∀ p ∈ ([] : List Puller), p.phase = .fresh :=
    ⟨(List.append_nil _).symm, fun _ hp ↦ absurd hp List.not_mem_nil⟩
  rcases s.user_cases hm with h | h | ⟨x, rfl⟩ | ⟨b, rfl⟩ | ⟨x, looks, roused, rfl⟩
  · refine ⟨?_, [], ?_, hnobody.2⟩
    · show (s.move m).books = { s.books with
        now := (s.move m).books.now, broker := (s.move m).books.broker,
        pullers := (s.move m).books.pullers }
      rw [h]
    · rw [List.append_nil]
      exact congrArg Books.pullers h
  · obtain ⟨token, reporter, hbooks⟩ := h.books
    refine ⟨?_, _, congrArg Books.pullers hbooks, ?_⟩
    · show (s.move m).books = { s.books with
        now := (s.move m).books.now, broker := (s.move m).books.broker,
        pullers := (s.move m).books.pullers }
      rw [hbooks]
      rfl
    · intro p hp
      obtain ⟨sub, -, rfl⟩ := List.mem_map.1 hp
      rfl
  · exact ⟨rfl, [], hnobody⟩
  · exact ⟨rfl, [], hnobody⟩
  · exact ⟨rfl, [], hnobody⟩

/-! ### What becomes of one of them -/

/-- **What becomes of the tokens in a move**: some are added, or one is cancelled, by the user or by
a call. -/
theorem tokens_move (s : State) (m : Move) : (∃ more, (s.move m).tokens = s.tokens ++ more) ∨
    ∃ token, (m = .cancel token ∨ ∃ n, m = .pursue n) ∧
      (s.move m).tokens = (s.cancel token).tokens := by
  have hsame {t : State} (ht : t.tokens = s.tokens) : (∃ more, t.tokens = s.tokens ++ more) ∨
      ∃ token, (m = .cancel token ∨ ∃ n, m = .pursue n) ∧ t.tokens = (s.cancel token).tokens :=
    Or.inl ⟨[], ht.trans (List.append_nil _).symm⟩
  cases m with
  | pull n =>
    rw [move]
    split
    · next p hp => exact hsame (strides_pullerStep hp).tokens
    · exact hsame rfl
  | work n =>
    rcases jobTurn_cases s n with ⟨hturn, -⟩ | ⟨j, -, -, hworks⟩
    · exact hsame ((congrArg tokens hturn).trans rfl)
    · exact hsame hworks.tokens
  | listen => exact hsame (watches_listenerTurn s).tokens
  | observe n => exact hsame (watches_observerTurn s n).tokens
  | pursue n =>
    rw [move]
    split
    · next c hc =>
      obtain ⟨c', taken, left, entries, -, hpursued⟩ := pursues_callStep hc
      cases taken with
      | none => exact hsame hpursued.tokens
      | some r => exact Or.inr ⟨r.token, Or.inr ⟨n, rfl⟩, hpursued.tokens⟩
    · exact hsame rfl
  | giveUp n =>
    refine hsame ?_
    show (if s.isOver n then s else s.dropCall n).tokens = _
    split
    · rfl
    · rw [dropCall, leaveLine]
      dsimp only
      split <;> rfl
  | start parent =>
    rcases launch_cases s parent .callback with ⟨-, hstart⟩ | ⟨t, hstart, hlaunch⟩
    · exact hsame (congrArg (fun x ↦ x.2.tokens) hstart)
    · obtain ⟨more, htokens⟩ := hlaunch.tokens
      exact Or.inl ⟨more, (congrArg (fun x ↦ x.2.tokens) hstart).trans htokens⟩
  | callRun patience =>
    rcases launchRun_cases s patience with ⟨-, henter⟩ | hlaunch
    · exact hsame ((congrArg tokens henter).trans rfl)
    · exact Or.inl hlaunch.tokens
  | callStop patience => exact hsame rfl
  | interrupt name => exact hsame rfl
  | newToken parent => exact Or.inl ⟨_, rfl⟩
  | cancel token => exact Or.inr ⟨token, Or.inl rfl, rfl⟩
  | abandon => exact hsame rfl
  | supply x => exact hsame rfl
  | meddle x => exact hsame rfl
  | pass x looks roused => exact hsame rfl

/-- **A token stays cancelled**, whoever moves. -/
theorem isCancelled_move {k : Nat} (h : s.isCancelled k = true) (m : Move) :
    (s.move m).isCancelled k = true := by
  rcases s.tokens_move m with ⟨more, htokens⟩ | ⟨token, -, htokens⟩
  · exact isCancelled_of_append htokens h
  · rw [isCancelled, htokens]
    exact isCancelled_cancel_of h

/-- Tokens are never put away. -/
theorem length_tokens_move (s : State) (m : Move) : s.tokens.length ≤ (s.move m).tokens.length := by
  rcases s.tokens_move m with ⟨more, htokens⟩ | ⟨token, -, htokens⟩
  · rw [htokens, List.length_append]
    omega
  · rw [htokens, length_tokens_cancel]

theorem move_pull {n : Nat} {p : Puller} (hp : s.pullers[n]? = some p) :
    s.move (.pull n) = (s.pullerStep n p).1 := by
  rw [move, hp]

theorem move_pursue {n : Nat} {c : Call} (hc : s.calls[n]? = some c) :
    s.move (.pursue n) = (s.callStep n c).1 := by
  rw [move, hc]

/-- What becomes of a puller in its own step. -/
theorem strides_move {n : Nat} {p : Puller} (hp : s.pullers[n]? = some p) :
    Strides s n p (s.bindAnswer? p) (s.fetchAnswer? p) (s.move (.pull n)) :=
  move_pull hp ▸ strides_pullerStep hp

/-- What becomes of a call in its own step. -/
theorem pursues_move {n : Nat} {c : Call} (hc : s.calls[n]? = some c) :
    Pursues s n c (s.move (.pursue n)) :=
  move_pursue hc ▸ pursues_callStep hc

/-- **A puller changes in its own steps only**; all that others do is to put it to work. -/
theorem puller_of_move {n : Nat} {m : Move} (hm : m ≠ .pull n) :
    (s.move m).pullers[n]? = s.pullers[n]? ∨
      s.pullers[n]? = none ∧ ∃ q, (s.move m).pullers[n]? = some q ∧ q.phase = .fresh := by
  have hsame (h : (s.move m).pullers = s.pullers) : (s.move m).pullers[n]? = s.pullers[n]? ∨
      s.pullers[n]? = none ∧ ∃ q, (s.move m).pullers[n]? = some q ∧ q.phase = .fresh :=
    Or.inl (congrArg (·[n]?) h)
  have huser (h : m.isOfUser = true) : (s.move m).pullers[n]? = s.pullers[n]? ∨
      s.pullers[n]? = none ∧ ∃ q, (s.move m).pullers[n]? = some q ∧ q.phase = .fresh := by
    obtain ⟨-, new, hpullers, hnew⟩ := books_of_user s h
    rw [hpullers]
    rcases Nat.lt_or_ge n s.pullers.length with hlt | hge
    · exact Or.inl (List.getElem?_append_left hlt)
    · rw [List.getElem?_append_right hge, List.getElem?_eq_none hge]
      cases hq : new[n - s.pullers.length]? with
      | none => exact Or.inl rfl
      | some q => exact Or.inr ⟨rfl, q, rfl, hnew q (List.mem_of_getElem? hq)⟩
  cases m with
  | pull k =>
    have hne : k ≠ n := fun h ↦ hm (congrArg Move.pull h)
    cases hp : s.pullers[k]? with
    | none => exact hsame (by rw [move, hp])
    | some p =>
      obtain ⟨⟨phase, entries, -, hstrode, -⟩, -⟩ := strides_move hp
      have hpullers : (s.move (.pull k)).pullers = _ := hstrode.pullers
      rw [hpullers]
      exact Or.inl (List.getElem?_modify_ne _ _ hne)
  | work k =>
    rcases jobTurn_cases s k with ⟨hturn, -⟩ | ⟨j, -, -, hworks⟩
    · exact hsame ((congrArg pullers hturn).trans rfl)
    · exact hsame hworks.pullers
  | listen => exact hsame (congrArg Books.pullers (watches_listenerTurn s).books)
  | observe k => exact hsame (congrArg Books.pullers (watches_observerTurn s k).books)
  | pursue k =>
    cases hc : s.calls[k]? with
    | none => exact hsame (by rw [move, hc])
    | some c =>
      obtain ⟨c', taken, left, entries, -, hpursued⟩ := pursues_move hc
      exact hsame (congrArg Books.pullers hpursued.books)
  | _ => exact huser rfl

/-- **A job is begun by its puller**, when it is given a delivery, and by nobody else. -/
theorem job_of_move {j : Job} {m : Move} (hj : j ∈ (s.move m).jobs) :
    (∃ i ∈ s.jobs, i.number = j.number ∧ i.puller = j.puller) ∨
    ∃ p d, m = .pull j.puller ∧ s.pullers[j.puller]? = some p ∧
      s.fetchAnswer? p = some (.ok d) := by
  have hsame (h : (s.move m).jobs = s.jobs) :
      (∃ i ∈ s.jobs, i.number = j.number ∧ i.puller = j.puller) ∨
      ∃ p d, m = .pull j.puller ∧ s.pullers[j.puller]? = some p ∧
        s.fetchAnswer? p = some (.ok d) := Or.inl ⟨j, h ▸ hj, rfl, rfl⟩
  have huser (h : m.isOfUser = true) := hsame (congrArg Books.jobs (books_of_user s h).1)
  cases m with
  | pull k =>
    cases hp : s.pullers[k]? with
    | none => exact hsame (by rw [move, hp])
    | some p =>
      obtain ⟨⟨phase, entries, -, hstrode, -⟩, -⟩ := strides_move hp
      rcases hstrode.jobs j hj with hj | ⟨rfl, d, hanswer⟩
      · exact Or.inl ⟨j, hj, rfl, rfl⟩
      · exact Or.inr ⟨p, d, rfl, hp, hanswer⟩
  | work k =>
    rcases jobTurn_cases s k with ⟨hturn, -⟩ | ⟨i, -, -, hworks⟩
    · exact hsame ((congrArg jobs hturn).trans rfl)
    · exact Or.inl (hworks.jobs j hj)
  | listen => exact hsame (congrArg Books.jobs (watches_listenerTurn s).books)
  | observe k => exact hsame (congrArg Books.jobs (watches_observerTurn s k).books)
  | pursue k =>
    cases hc : s.calls[k]? with
    | none => exact hsame (by rw [move, hc])
    | some c =>
      obtain ⟨c', taken, left, entries, -, hpursued⟩ := pursues_move hc
      exact hsame (congrArg Books.jobs hpursued.books)
  | _ => exact huser rfl

/-- A call is given up, which leaves the others as they are. -/
theorem calls_dropCall (s : State) (n : Nat) : (s.dropCall n).calls =
    s.calls.modify n fun c ↦ { c with phase := .dropped s.now } := by
  rw [dropCall, leaveLine]
  dsimp only
  split <;> rfl

/-- What becomes of a call in a move. -/
inductive Fares (s : State) (m : Move) (i : Nat) (c c' : Call) : Prop
  | hears (h : c.Hears c')
  | pursues {taken : Option Running} {left : List Nat} {entries : List Entry} (hm : m = .pursue i)
      (h : Pursuit s i c c' taken left entries) (h' : Pursued s i c' taken left entries (s.move m))
  | dropped (hm : m = .giveUp i) (hover : c.isOver = false)
      (h : c' = { c with phase := .dropped s.now })

/-- **A call changes in its own steps and when it is given up**; otherwise it only hears of what
happens. -/
theorem call_of_move {i : Nat} {c : Call} (hc : s.calls[i]? = some c) (m : Move) :
    ∃ c', (s.move m).calls[i]? = some c' ∧ Fares s m i c c' := by
  have hsame {t : State} (h : t.calls = s.calls) : ∃ c', t.calls[i]? = some c' ∧ c.Hears c' :=
    ⟨c, h ▸ hc, .refl c⟩
  have hlt : i < s.calls.length := (List.getElem?_eq_some_iff.1 hc).1
  have hmore {t : State} {more : List Call} (h : t.calls = s.calls ++ more) :
      ∃ c', t.calls[i]? = some c' ∧ c.Hears c' := by
    refine ⟨c, ?_, .refl c⟩
    rw [h, List.getElem?_append_left hlt]
    exact hc
  have hhears (h : ∃ c', (s.move m).calls[i]? = some c' ∧ c.Hears c') :
      ∃ c', (s.move m).calls[i]? = some c' ∧ Fares s m i c c' := by
    obtain ⟨c', hc', hears⟩ := h
    exact ⟨c', hc', .hears hears⟩
  cases m with
  | pull k =>
    refine hhears ?_
    cases hp : s.pullers[k]? with
    | none => exact hsame (by rw [move, hp])
    | some p =>
      obtain ⟨⟨phase, entries, -, -, hreported⟩, -⟩ := strides_move hp
      have hcalls := hreported i
      rw [hc] at hcalls
      exact ⟨_, hcalls, _, c.interrupt, subscriptionFailed_of_mem, rfl⟩
  | work k =>
    refine hhears ?_
    rcases jobTurn_cases s k with ⟨hturn, -⟩ | ⟨j, -, -, hworks⟩
    · exact hsame ((congrArg calls hturn).trans rfl)
    · exact hsame hworks.calls
  | listen => exact hhears (hsame (watches_listenerTurn s).calls)
  | observe k => exact hhears (hsame (watches_observerTurn s k).calls)
  | pursue k =>
    cases hk : s.calls[k]? with
    | none => exact hhears (hsame (by rw [move, hk]))
    | some d =>
      obtain ⟨d', taken, left, entries, hpursuit, hpursued⟩ := pursues_move hk
      by_cases h : k = i
      · subst h
        obtain rfl : d = c := Option.some.inj (hk.symm.trans hc)
        refine ⟨d', ?_, .pursues rfl hpursuit hpursued⟩
        rw [hpursued.calls, List.getElem?_set_self hlt]
      · refine ⟨c, ?_, .hears (.refl c)⟩
        rw [hpursued.calls, List.getElem?_set_ne h]
        exact hc
  | giveUp k =>
    by_cases hover : s.isOver k = true
    · exact hhears (hsame (congrArg calls (if_pos hover)))
    · have hmove : s.move (.giveUp k) = s.dropCall k := if_neg hover
      by_cases h : k = i
      · subst h
        refine ⟨_, ?_, .dropped rfl ?_ rfl⟩
        · rw [hmove, calls_dropCall, modify_eq_set hc, List.getElem?_set_self hlt]
        · simpa [isOver, hc] using hover
      · refine ⟨c, ?_, .hears (.refl c)⟩
        rw [hmove, calls_dropCall, List.getElem?_modify]
        simpa [h] using hc
  | start parent =>
    rcases launch_cases s parent .callback with ⟨-, hstart⟩ | ⟨t, hstart, hlaunch⟩
    · exact hhears (hsame (congrArg (fun x ↦ x.2.calls) hstart))
    · obtain ⟨more, hcalls, -⟩ := hlaunch.calls
      exact hhears (hmore ((congrArg (fun x ↦ x.2.calls) hstart).trans hcalls))
  | callRun patience =>
    rcases launchRun_cases s patience with ⟨-, henter⟩ | hlaunch
    · exact hhears (hmore ((congrArg calls henter).trans rfl))
    · obtain ⟨more, hcalls, -⟩ := hlaunch.calls
      exact hhears (hmore hcalls)
  | callStop patience => exact hhears (hmore rfl)
  | interrupt name =>
    refine hhears ⟨_, (List.getElem?_map ..).trans (congrArg _ hc), ?_⟩
    dsimp only
    split
    · exact ⟨[], some name, fun _ h ↦ absurd h List.not_mem_nil, by rw [List.append_nil]⟩
    · exact .refl c
  | newToken parent => exact hhears (hsame rfl)
  | cancel token => exact hhears (hsame (calls_cancel s token))
  | abandon => exact hhears (hsame rfl)
  | supply x => exact hhears (hsame rfl)
  | meddle x => exact hhears (hsame rfl)
  | pass x looks roused => exact hhears (hsame rfl)

/-- A call that is made has heard of nothing yet, and if it is answered at once, it was refused. -/
theorem call_new {i : Nat} {c : Call} {m : Move} (hnone : s.calls[i]? = none)
    (hc : (s.move m).calls[i]? = some c) : c.IsNew := by
  have hsame (h : (s.move m).calls.length = s.calls.length) : c.IsNew := by
    have hlt := (List.getElem?_eq_some_iff.1 hc).1
    have hge := List.getElem?_eq_none_iff.1 hnone
    omega
  have hmore {more : List Call} (h : (s.move m).calls = s.calls ++ more)
      (hnew : ∀ c ∈ more, c.IsNew) : c.IsNew := by
    rw [h, List.getElem?_append_right (List.getElem?_eq_none_iff.1 hnone)] at hc
    exact hnew c (List.mem_of_getElem? hc)
  have hkept (h : (s.move m).calls = s.calls) := hsame (congrArg List.length h)
  have hlaunch (h : Launches s (s.move m)) : c.IsNew := by
    obtain ⟨more, hcalls, hnew⟩ := h.calls
    refine hmore hcalls fun c hc ↦ ?_
    obtain ⟨hphase, hreports, hfailure⟩ := hnew c hc
    refine ⟨hreports, hfailure, fun tick r hreturned ↦ ?_⟩
    exact absurd (hphase.symm.trans hreturned) (by simp)
  cases m with
  | pull k =>
    cases hp : s.pullers[k]? with
    | none => exact hkept (by rw [move, hp])
    | some p =>
      obtain ⟨⟨phase, entries, -, -, hreported⟩, -⟩ := strides_move hp
      have hcalls := hreported i
      rw [hc, hnone] at hcalls
      exact absurd hcalls (by simp)
  | work k =>
    rcases jobTurn_cases s k with ⟨hturn, -⟩ | ⟨j, -, -, hworks⟩
    · exact hkept ((congrArg calls hturn).trans rfl)
    · exact hkept hworks.calls
  | listen => exact hkept (watches_listenerTurn s).calls
  | observe k => exact hkept (watches_observerTurn s k).calls
  | pursue k =>
    cases hk : s.calls[k]? with
    | none => exact hkept (by rw [move, hk])
    | some d =>
      obtain ⟨d', taken, left, entries, -, hpursued⟩ := pursues_move hk
      exact hsame (by rw [hpursued.calls, List.length_set])
  | giveUp k =>
    by_cases hover : s.isOver k = true
    · exact hkept (congrArg calls (if_pos hover))
    · refine hsame ((congrArg (fun u : State ↦ u.calls.length) (if_neg hover)).trans ?_)
      rw [calls_dropCall, List.length_modify]
  | start parent =>
    rcases launch_cases s parent .callback with ⟨-, hstart⟩ | ⟨t, hstart, h⟩
    · exact hkept (congrArg (fun x ↦ x.2.calls) hstart)
    · have hmove : s.move (.start parent) = t := congrArg Prod.snd hstart
      exact hlaunch (hmove ▸ h)
  | callRun patience =>
    rcases launchRun_cases s patience with ⟨-, henter⟩ | h
    · refine hmore ((congrArg calls henter).trans rfl) fun c hc ↦ ?_
      rw [List.mem_singleton.1 hc]
      exact ⟨rfl, rfl, fun tick r hreturned ↦ (Call.Phase.returned.inj hreturned).2.symm⟩
    · exact hlaunch h
  | callStop patience =>
    refine hmore rfl fun c hc ↦ ?_
    rw [List.mem_singleton.1 hc]
    exact ⟨rfl, rfl, fun tick r hreturned ↦ absurd hreturned (by simp)⟩
  | interrupt name => exact hsame (List.length_map ..)
  | newToken parent => exact hkept rfl
  | cancel token => exact hkept (calls_cancel s token)
  | abandon => exact hkept rfl
  | supply x => exact hkept rfl
  | meddle x => exact hkept rfl
  | pass x looks roused => exact hkept rfl

end State

end PullConsumer.Supervisor
