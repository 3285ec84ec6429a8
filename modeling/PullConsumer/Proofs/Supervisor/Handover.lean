import PullConsumer.Proofs.Supervisor.History
import PullConsumer.Proofs.Supervisor.Launches

/-!
# In whose hands the pullers are

A puller passes from hand to hand. It is put to work by a start and belongs to what is running. A
call takes over what is running, and the puller is among those that were told to stop. A call that
drains waits for the last of these, finds it over and strikes it off; nobody looks for it again.

What a move does to all this is said by `Hands`: it does nothing, or one of the four things above.
Summed up over a run (`Handed`): every puller is in one place, whatever calls were made and given
up, and what was taken over is what was started, in the same order.
-/

namespace PullConsumer.Supervisor

namespace State

/-- The pullers that were started and not taken over yet. -/
def started (s : State) : List Nat := (s.running.map Running.pullers).getD []

/-- A start succeeds in a move, made by the user or in a run. -/
def starts (s : State) : Move → Bool
  | .start parent => (s.start parent .callback).1.isOk
  | .callRun _ => ((s.newToken none).2.start (s.newToken none).1 (.call s.calls.length)).1.isOk
  | _ => false

/-- What a start that succeeds in a move leaves running. -/
def launched? (s : State) (m : Move) : Option Running :=
  if s.starts m then (s.move m).running else none

/-- What a call takes over in a move: it was running, and nothing is running afterwards. -/
def takenOver? (s : State) : Move → Option Running
  | .pursue n => if (s.move (.pursue n)).running.isNone then s.running else none
  | _ => none

/-- The puller whose end a call waits for in a move. -/
def awaited? (s : State) : Move → Option Nat
  | .pursue n =>
    match (s.calls[n]?).map Call.phase with
    | some .joining => s.stopping.getLast?
    | _ => none
  | _ => none

/-- The pullers that are struck off in a move. -/
def joins (s : State) (m : Move) : List Nat := s.stopping.filter (· ∉ (s.move m).stopping)

/-- A puller is there and has come to its end. -/
def hasEnded (s : State) (k : Nat) : Bool := ((s.pullers[k]?).map Puller.isOver).getD false

/-- **How pullers pass from hand to hand in a move**: what was launched, what was taken over, which
puller was waited for, and which ones were struck off. -/
inductive Hands (s t : State) : Option Running → Option Running → Option Nat → List Nat → Prop
  /-- Nothing passes on; a puller that is waited for has not ended. -/
  | keep {awaited : Option Nat} (hrunning : t.running = s.running)
      (hstopping : t.stopping = s.stopping) (hlength : t.pullers.length = s.pullers.length)
      (hawaited : ∀ k, awaited = some k → s.hasEnded k = false) : Hands s t none none awaited []
  | launch {r : Running} (h : Launches s t) (hr : t.running = some r) :
      Hands s t (some r) none none []
  | take {r : Running} (hr : s.running = some r) (hrunning : t.running = none)
      (hstopping : t.stopping = s.stopping ++ r.pullers)
      (hlength : t.pullers.length = s.pullers.length)
      (htokens : t.tokens = (s.cancel r.token).tokens) : Hands s t none (some r) none []
  | join {k : Nat} (hlast : s.stopping.getLast? = some k) (hended : s.hasEnded k = true)
      (hrunning : t.running = s.running) (hstopping : t.stopping = s.stopping.dropLast)
      (hlength : t.pullers.length = s.pullers.length) : Hands s t none none (some k) [k]

variable {s : State} {m : Move} {n k : Nat}

/-! ### Who does what -/

theorem hasEnded_eq_true : s.hasEnded k = true ↔ ∃ p, s.pullers[k]? = some p ∧ p.isOver = true := by
  cases h : s.pullers[k]? <;> simp [hasEnded, h]

/-- A puller that has ended does not come back. -/
theorem hasEnded_move (h : s.hasEnded k = true) (m : Move) : (s.move m).hasEnded k = true := by
  rw [hasEnded_eq_true] at h ⊢
  obtain ⟨p, hp, hover⟩ := h
  have hlt : k < s.pullers.length := (List.getElem?_eq_some_iff.1 hp).1
  rcases s.move_cases m with hdeeds | ⟨-, phases, hstarts⟩ | ⟨x, -, hbooks⟩
  · have hlength : (s.move m).pullers.length = s.pullers.length := hdeeds.length_pullers
    have hq := List.getElem?_eq_getElem (hlength.symm ▸ hlt)
    obtain ⟨p', hp', hstays⟩ := hdeeds.exists_puller hq
    obtain rfl : p' = p := Option.some.inj (hp'.symm.trans hp)
    exact ⟨p', hstays hover ▸ hq, hover⟩
  · obtain ⟨token, reporter, hbooks⟩ := hstarts.spawned
    have hpullers : (s.move m).pullers = s.pullers ++ _ := congrArg Books.pullers hbooks
    exact ⟨p, by rw [hpullers, List.getElem?_append_left hlt, hp], hover⟩
  · have hpullers : (s.move m).pullers = s.pullers := congrArg Books.pullers hbooks
    exact ⟨p, hpullers ▸ hp, hover⟩

/-- A start is made where nothing is running, and nowhere else does it succeed. -/
theorem starts_iff : s.starts m = true ↔ m.isStart = true ∧ s.running = none := by
  cases m with
  | start parent =>
    rcases launch_cases s parent .callback with ⟨hrunning, hstart⟩ | ⟨t, hstart, hlaunch⟩
    · rw [starts, hstart]
      simp [Move.isStart, Except.isOk, Except.toBool, Option.isSome_iff_ne_none.1 hrunning]
    · rw [starts, hstart]
      simp [Move.isStart, Except.isOk, Except.toBool, hlaunch.stopped]
  | callRun patience =>
    rcases launch_cases (s.newToken none).2 (s.newToken none).1 (.call s.calls.length) with
      ⟨hrunning, hstart⟩ | ⟨t, hstart, hlaunch⟩
    · have hne : s.running ≠ none := Option.isSome_iff_ne_none.1 hrunning
      rw [starts, hstart]
      simp [Move.isStart, Except.isOk, Except.toBool, hne]
    · have hnone : s.running = none := hlaunch.stopped
      rw [starts, hstart]
      simp [Move.isStart, Except.isOk, Except.toBool, hnone]
  | _ => simp [starts, Move.isStart]

/-- Where no start succeeds, no puller is put to work. -/
theorem length_pullers_move (h : s.starts m = false) :
    (s.move m).pullers.length = s.pullers.length := by
  rcases s.move_cases m with hdeeds | ⟨hstart, phases, hstarts⟩ | ⟨x, -, hbooks⟩
  · exact hdeeds.length_pullers
  · rw [starts_iff.2 ⟨hstart, hstarts.stopped⟩] at h
    exact absurd h (by decide)
  · exact congrArg (fun b : Books ↦ b.pullers.length) hbooks

/-- **Nobody but calls takes over or strikes off**; what others can do is to start. -/
theorem launches_of_not_pursue (hm : ∀ n, m ≠ .pursue n) :
    ((s.move m).running = s.running ∧ (s.move m).stopping = s.stopping ∧ s.starts m = false) ∨
      s.starts m = true ∧ Launches s (s.move m) := by
  have hsame (h : (s.move m).control = s.control) (hstart : m.isStart = false) :
      (s.move m).running = s.running ∧ (s.move m).stopping = s.stopping ∧ s.starts m = false :=
    ⟨congrArg Control.running h, congrArg Control.stopping h,
      Bool.eq_false_iff.2 fun hstarts ↦ absurd (starts_iff.1 hstarts).1 (by simp [hstart])⟩
  have hrefused (hrunning : s.running.isSome = true) : s.starts m = false :=
    Bool.eq_false_iff.2 fun hstarts ↦
      absurd hrunning (by simp [(starts_iff.1 hstarts).2])
  cases m with
  | pull n =>
    refine Or.inl (hsame ?_ rfl)
    cases hp : s.pullers[n]? with
    | none => rw [move, hp]
    | some p => rw [move_pull hp, control_pullerStep]
  | work n => exact Or.inl (hsame (control_jobTurn s n) rfl)
  | listen => exact Or.inl (hsame (control_listenerTurn s) rfl)
  | observe n => exact Or.inl (hsame (control_observerTurn s n) rfl)
  | pursue n => exact absurd rfl (hm n)
  | giveUp n =>
    refine Or.inl ?_
    by_cases hover : s.isOver n = true
    · exact hsame (congrArg control (if_pos hover)) rfl
    · have hmove : s.move (.giveUp n) = s.dropCall n := if_neg hover
      have hcontrol :=
        control_leaveLine (s.changeCall n fun c ↦ { c with phase := .dropped s.now }) n
      rw [hmove]
      exact ⟨congrArg Control.running hcontrol, congrArg Control.stopping hcontrol, rfl⟩
  | start parent =>
    rcases launch_cases s parent .callback with ⟨hrunning, hstart⟩ | ⟨t, hstart, hlaunch⟩
    · have hmove : s.move (.start parent) = s := congrArg Prod.snd hstart
      exact Or.inl ⟨congrArg running hmove, congrArg stopping hmove, hrefused hrunning⟩
    · have hmove : s.move (.start parent) = t := congrArg Prod.snd hstart
      exact Or.inr ⟨starts_iff.2 ⟨rfl, hlaunch.stopped⟩, hmove ▸ hlaunch⟩
  | callRun patience =>
    rcases launchRun_cases s patience with ⟨hrunning, henter⟩ | hlaunch
    · exact Or.inl ⟨(congrArg running henter).trans rfl, (congrArg stopping henter).trans rfl,
        hrefused hrunning⟩
    · exact Or.inr ⟨starts_iff.2 ⟨rfl, hlaunch.stopped⟩, hlaunch⟩
  | callStop patience => exact Or.inl ⟨rfl, rfl, rfl⟩
  | interrupt name => exact Or.inl (hsame (control_interrupt s name) rfl)
  | newToken parent => exact Or.inl ⟨rfl, rfl, rfl⟩
  | cancel token => exact Or.inl (hsame (control_cancel s token) rfl)
  | abandon => exact Or.inl ⟨rfl, rfl, rfl⟩
  | supply x => exact Or.inl ⟨rfl, rfl, rfl⟩
  | meddle x => exact Or.inl ⟨rfl, rfl, rfl⟩
  | pass x looks roused => exact Or.inl ⟨rfl, rfl, rfl⟩

/-! ### Calls -/

/-- What goes on running is not taken over. -/
theorem takenOver?_of_running (h : (s.move m).running = s.running) : s.takenOver? m = none := by
  cases m with
  | pursue n =>
    rw [takenOver?, h]
    cases s.running <;> rfl
  | _ => rfl

theorem takenOver?_of_take {r : Running} (hr : s.running = some r)
    (h : (s.move (.pursue n)).running = none) : s.takenOver? (.pursue n) = some r := by
  rw [takenOver?, h]
  exact hr

theorem awaited?_eq_some (h : s.awaited? m = some k) : ∃ n c, m = .pursue n ∧
    s.calls[n]? = some c ∧ c.phase = .joining ∧ s.stopping.getLast? = some k := by
  cases m with
  | pursue n =>
    rw [awaited?] at h
    split at h
    · next hphase =>
      obtain ⟨c, hc, hjoining⟩ := Option.map_eq_some_iff.1 hphase
      exact ⟨n, c, rfl, hc, hjoining, h⟩
    · exact absurd h (by simp)
  | _ => exact absurd h (by simp [awaited?])

theorem awaited?_of_joining {c : Call} (hc : s.calls[n]? = some c) (hphase : c.phase = .joining) :
    s.awaited? (.pursue n) = s.stopping.getLast? := by
  simp [awaited?, hc, hphase]

/-- A call waits for the last puller only while that one has not ended. -/
theorem Lingers.hasEnded (h : s.Lingers .joining) (hlast : s.stopping.getLast? = some k) :
    s.hasEnded k = false := by
  cases h with
  | joining hlast' hp hover =>
    obtain rfl := Option.some.inj (hlast.symm.trans hlast')
    simp [State.hasEnded, hp, hover]

theorem joins_of_append {more : List Nat} (h : (s.move m).stopping = s.stopping ++ more) :
    s.joins m = [] := by
  refine List.filter_eq_nil_iff.2 fun k hk ↦ ?_
  simp [h, hk]

theorem joins_of_dropLast (hnodup : s.stopping.Nodup) (hlast : s.stopping.getLast? = some k)
    (h : (s.move m).stopping = s.stopping.dropLast) : s.joins m = [k] := by
  rw [joins, h]
  rw [← List.dropLast_append_getLast? k hlast] at hnodup ⊢
  have hk : k ∉ s.stopping.dropLast := fun hmem ↦
    (List.nodup_append.1 hnodup).2.2 k hmem k (List.mem_singleton_self k) rfl
  rw [List.filter_append, List.dropLast_concat]
  simp [hk]

/-- Where what is running and what is to be stopped stay as they are, nothing passes on. -/
theorem hands_of_same (hstarts : s.starts m = false) (hrunning : (s.move m).running = s.running)
    (hstopping : (s.move m).stopping = s.stopping)
    (hawaited : ∀ k, s.awaited? m = some k → s.hasEnded k = false) :
    Hands s (s.move m) (s.launched? m) (s.takenOver? m) (s.awaited? m) (s.joins m) := by
  have hjoins : s.joins m = [] := joins_of_append (hstopping.trans (List.append_nil _).symm)
  rw [takenOver?_of_running hrunning, hjoins, launched?, hstarts]
  exact .keep hrunning hstopping (length_pullers_move hstarts) hawaited

/-- **A call takes over, strikes off or does nothing** to the pullers. -/
theorem hands_pursue (hnodup : s.stopping.Nodup) (hplaced : ∀ k ∈ s.stopping, k < s.pullers.length)
    (n : Nat) : Hands s (s.move (.pursue n)) none (s.takenOver? (.pursue n))
      (s.awaited? (.pursue n)) (s.joins (.pursue n)) := by
  have hlength : (s.move (.pursue n)).pullers.length = s.pullers.length := length_pullers_move rfl
  cases hc : s.calls[n]? with
  | none =>
    have hmove : s.move (.pursue n) = s := by rw [move, hc]
    refine hands_of_same rfl (congrArg running hmove) (congrArg stopping hmove) fun k hk ↦ ?_
    obtain ⟨n', c, hm, hc', -⟩ := awaited?_eq_some hk
    cases hm
    exact absurd (hc'.symm.trans hc) (by simp)
  | some c =>
    obtain ⟨c', taken, left, entries, hpursuit, hpursued⟩ := pursues_move hc
    have hrunning := hpursued.running
    have hstopping := hpursued.stopping
    have htokens := hpursued.tokens
    -- Only a call that joins looks for a puller, and while it lingers that one has not ended.
    have hawaited (h : c.phase = .joining → s.stopping = [] ∨ s.Lingers .joining) :
        ∀ k, s.awaited? (.pursue n) = some k → s.hasEnded k = false := by
      intro k hk
      obtain ⟨n', d, hm, hd, hphase, hlast⟩ := awaited?_eq_some hk
      cases hm
      obtain rfl : d = c := Option.some.inj (hd.symm.trans hc)
      rcases h hphase with hnone | hlingers
      · exact absurd hlast (by simp [hnone])
      · exact hlingers.hasEnded hlast
    have hnot {phase : Call.Phase} (h : c.phase = phase) (hphase : phase ≠ .joining) :
        ∀ k, s.awaited? (.pursue n) = some k → s.hasEnded k = false :=
      hawaited fun hjoining ↦ absurd (h.symm.trans hjoining) hphase
    cases hpursuit with
    | rest h => exact hands_of_same rfl hrunning hstopping (hawaited fun hphase ↦ Or.inr (h hphase))
    | line h _ => exact hands_of_same rfl hrunning hstopping (hnot h (by simp))
    | take h _ =>
      cases hr : s.running with
      | none =>
        rw [hr] at hrunning hstopping
        exact hands_of_same rfl (hrunning.trans hr.symm) (hstopping.trans (List.append_nil _))
          (hnot h (by simp))
      | some r =>
        rw [hr] at hrunning hstopping htokens
        have hnobody : s.awaited? (.pursue n) = none := by simp [awaited?, hc, h]
        rw [takenOver?_of_take hr hrunning, hnobody, joins_of_append hstopping]
        exact .take hr hrunning hstopping hlength htokens
    | @join k h hlast hover =>
      have hp := List.getElem?_eq_getElem (hplaced k (List.mem_of_getLast? hlast))
      have hended : s.hasEnded k = true := hasEnded_eq_true.2 ⟨_, hp, hover _ hp⟩
      rw [takenOver?_of_running hrunning, awaited?_of_joining hc h, hlast,
        joins_of_dropLast hnodup hlast hstopping]
      exact .join hlast hended hrunning hstopping hlength
    | onward h =>
      rcases h with ⟨-, hnone⟩ | ⟨before, h⟩
      · exact hands_of_same rfl hrunning hstopping (hawaited fun _ ↦ Or.inl hnone)
      · exact hands_of_same rfl hrunning hstopping (hnot h (by simp))
    | finish h _ => exact hands_of_same rfl hrunning hstopping (hnot h (by simp))
    | expire h _ _ =>
      exact hands_of_same rfl hrunning hstopping (hawaited fun hphase ↦ Or.inr (hphase ▸ h))

/-- **A move passes pullers on in at most one way.** -/
theorem hands_move (hnodup : s.stopping.Nodup)
    (hplaced : ∀ k ∈ s.stopping, k < s.pullers.length) (m : Move) :
    Hands s (s.move m) (s.launched? m) (s.takenOver? m) (s.awaited? m) (s.joins m) := by
  by_cases hpursue : ∃ n, m = .pursue n
  · obtain ⟨n, rfl⟩ := hpursue
    exact hands_pursue hnodup hplaced n
  · have hm : ∀ n, m ≠ .pursue n := fun n hn ↦ hpursue ⟨n, hn⟩
    obtain ⟨htaken, hawaited⟩ : s.takenOver? m = none ∧ s.awaited? m = none := by
      cases m with
      | pursue n => exact absurd rfl (hm n)
      | _ => exact ⟨rfl, rfl⟩
    rcases launches_of_not_pursue hm with ⟨hrunning, hstopping, hstarts⟩ | ⟨hstarts, hlaunch⟩
    · exact hands_of_same hstarts hrunning hstopping (by simp [hawaited])
    · obtain ⟨token, -, -, hrunning⟩ := hlaunch.running
      have hjoins : s.joins m = [] :=
        joins_of_append (hlaunch.stopping.trans (List.append_nil _).symm)
      rw [htaken, hawaited, hjoins, launched?, hstarts, if_pos rfl, hrunning]
      exact .launch hlaunch hrunning

/-! ### What passes on -/

namespace Hands

variable {t : State} {launched taken : Option Running} {awaited : Option Nat} {gone : List Nat}

/-- **What is running was launched, and goes on running until it is taken over.** -/
theorem running (h : Hands s t launched taken awaited gone) :
    s.running.toList ++ launched.toList = taken.toList ++ t.running.toList := by
  cases h with
  | keep hrunning _ _ _ =>
    rw [hrunning]
    exact List.append_nil _
  | launch h hr => rw [h.stopped, hr]
  | take hr hrunning _ _ _ => rw [hr, hrunning]
  | join _ _ hrunning _ _ =>
    rw [hrunning]
    exact List.append_nil _

/-- **Nobody loses a puller in a move.** -/
theorem places {before : List Nat} (h : Hands s t launched taken awaited gone)
    (hplaces : (s.started ++ s.stopping ++ before).Perm (List.range s.pullers.length)) :
    (t.started ++ t.stopping ++ (before ++ gone)).Perm (List.range t.pullers.length) := by
  cases h with
  | keep hrunning hstopping hlength _ =>
    rw [started, hrunning, hstopping, hlength, List.append_nil]
    exact hplaces
  | launch h hr =>
    obtain ⟨token, -, -, hrunning⟩ := h.running
    obtain ⟨token', reporter, hbooks⟩ := h.books
    have hpullers : t.pullers = s.pullers ++ _ := congrArg Books.pullers hbooks
    have hbefore : s.started = [] := by rw [started, h.stopped]; rfl
    rw [hbefore, List.nil_append] at hplaces
    have hafter : t.started =
        (List.range s.setup.subscriptions.length).map (s.pullers.length + ·) := by
      rw [started, hrunning]
      rfl
    have hlength : t.pullers.length = s.pullers.length + s.setup.subscriptions.length := by
      rw [hpullers]
      simp
    rw [hafter, h.stopping, hlength, List.range_add, List.append_nil, List.append_assoc]
    exact List.perm_append_comm.trans (hplaces.append_right _)
  | @take r hr hrunning hstopping hlength _ =>
    have hbefore : s.started = r.pullers := by rw [started, hr]; rfl
    have hafter : t.started = [] := by rw [started, hrunning]; rfl
    rw [hbefore] at hplaces
    rw [hafter, hstopping, hlength, List.append_nil, List.nil_append]
    exact (List.perm_append_comm.append_right _).trans hplaces
  | @join k hlast _ hrunning hstopping hlength =>
    rw [← List.dropLast_append_getLast? k hlast] at hplaces
    rw [started, hrunning, hstopping, hlength]
    refine List.Perm.trans ?_ hplaces
    show (s.started ++ s.stopping.dropLast ++ (before ++ [k])).Perm _
    simp only [List.append_assoc]
    exact (List.perm_append_comm.append_left _).append_left _

/-- The tokens of starts are new. -/
theorem token {r : Running} (h : Hands s t (some r) taken awaited gone) :
    s.tokens.length ≤ r.token ∧ r.token < t.tokens.length := by
  cases h with
  | launch h hr =>
    obtain ⟨token, hle, hlt, hrunning⟩ := h.running
    obtain rfl := Option.some.inj (hr.symm.trans hrunning)
    exact ⟨hle, hlt⟩

/-- What is taken over was running, and its token is cancelled. -/
theorem cancelled {r : Running} (h : Hands s t launched (some r) awaited gone) :
    s.running = some r ∧ t.tokens = (s.cancel r.token).tokens := by
  cases h with
  | take hr _ _ _ htokens => exact ⟨hr, htokens⟩

/-- **The puller that was waited for is struck off if it has ended**, and no other one is. -/
theorem gone_eq (h : Hands s t launched taken awaited gone) :
    gone = awaited.toList.filter s.hasEnded := by
  cases h with
  | keep _ _ _ hawaited =>
    cases awaited with
    | none => rfl
    | some k => simp [hawaited k rfl]
  | launch _ _ => rfl
  | take _ _ _ _ _ => rfl
  | join _ hended _ _ _ => simp [hended]

end Hands

/-! ### Along a run -/

/-- What was launched in a run, in order. -/
def launched (s : State) (moves : List Move) : List Running :=
  (s.steps moves).filterMap fun x ↦ x.1.launched? x.2

/-- What calls have taken over in a run, in order. -/
def takenOver (s : State) (moves : List Move) : List Running :=
  (s.steps moves).filterMap fun x ↦ x.1.takenOver? x.2

/-- The pullers that were struck off in a run, in order. -/
def joined (s : State) (moves : List Move) : List Nat :=
  (s.steps moves).flatMap fun x ↦ x.1.joins x.2

@[simp] theorem launched_concat (s : State) (moves : List Move) (m : Move) :
    s.launched (moves ++ [m]) = s.launched moves ++ ((s.after moves).launched? m).toList := by
  rw [launched, steps_concat, List.filterMap_append]
  rfl

@[simp] theorem takenOver_concat (s : State) (moves : List Move) (m : Move) :
    s.takenOver (moves ++ [m]) = s.takenOver moves ++ ((s.after moves).takenOver? m).toList := by
  rw [takenOver, steps_concat, List.filterMap_append]
  rfl

@[simp] theorem joined_concat (s : State) (moves : List Move) (m : Move) :
    s.joined (moves ++ [m]) = s.joined moves ++ (s.after moves).joins m := by
  rw [joined, steps_concat, List.flatMap_append]
  exact congrArg (_ ++ ·) (List.append_nil _)

/-- **In whose hands the pullers are** after some moves: each is in one place, and what was taken
over is what was started, in the same order, each with a token of its own. -/
structure Handed (s : State) (moves : List Move) : Prop where
  places : ((s.after moves).started ++ (s.after moves).stopping ++ s.joined moves).Perm
    (List.range (s.after moves).pullers.length)
  ended : ∀ k ∈ s.joined moves, (s.after moves).hasEnded k = true
  handed : s.launched moves = s.takenOver moves ++ (s.after moves).running.toList
  known : ∀ r ∈ s.launched moves, r.token < (s.after moves).tokens.length
  tokens : ((s.launched moves).map Running.token).Nodup
  cancelled : ∀ r ∈ s.takenOver moves, (s.after moves).isCancelled r.token = true

namespace Handed

variable {moves : List Move}

theorem nodup (h : Handed s moves) :
    ((s.after moves).started ++ (s.after moves).stopping ++ s.joined moves).Nodup :=
  h.places.nodup_iff.2 List.nodup_range

/-- Nobody waits for a puller that was struck off. -/
theorem not_joined (h : Handed s moves) (hk : (s.after moves).awaited? m = some k) :
    k ∉ s.joined moves := by
  obtain ⟨n, c, -, -, -, hlast⟩ := awaited?_eq_some hk
  intro hjoined
  have hstopping := List.mem_append_right (s.after moves).started (List.mem_of_getLast? hlast)
  exact (List.nodup_append.1 h.nodup).2.2 k hstopping k hjoined rfl

/-- **Something is running exactly if a start was not taken over.** -/
theorem pending_iff (h : Handed s moves) : (∃ r ∈ s.launched moves, r ∉ s.takenOver moves) ↔
    (s.after moves).running.isSome = true := by
  have htokens := h.tokens
  rw [h.handed] at htokens ⊢
  cases hr : (s.after moves).running with
  | none => simp
  | some r =>
    refine ⟨fun _ ↦ rfl, fun _ ↦ ⟨r, by simp, fun hmem ↦ ?_⟩⟩
    rw [hr, List.map_append] at htokens
    exact (List.nodup_append.1 htokens).2.2 r.token (List.mem_map_of_mem hmem) r.token (by simp) rfl

/-- What a move does in a run. -/
theorem hands (h : Handed s moves) (m : Move) : Hands (s.after moves) ((s.after moves).move m)
    ((s.after moves).launched? m) ((s.after moves).takenOver? m) ((s.after moves).awaited? m)
    ((s.after moves).joins m) := by
  refine hands_move ?_ (fun k hk ↦ ?_) m
  · exact h.nodup.of_append_left.of_append_right
  · exact List.mem_range.1 (h.places.mem_iff.1 (by simp [hk]))

theorem concat (h : Handed s moves) (m : Move) : Handed s (moves ++ [m]) := by
  have hhands := h.hands m
  have hplaces := hhands.places h.places
  have hgone := hhands.gone_eq
  have hrunning := hhands.running
  refine ⟨?_, ?_, ?_, ?_, ?_, ?_⟩
  · rwa [joined_concat, after_concat]
  · intro k hk
    rw [joined_concat, hgone] at hk
    rw [after_concat]
    refine hasEnded_move ?_ m
    rcases List.mem_append.1 hk with hk | hk
    · exact h.ended k hk
    · exact (List.mem_filter.1 hk).2
  · rw [launched_concat, takenOver_concat, after_concat, h.handed, List.append_assoc, hrunning,
      List.append_assoc]
  · intro r hr
    rw [launched_concat] at hr
    rw [after_concat]
    rcases List.mem_append.1 hr with hr | hr
    · exact (h.known r hr).trans_le (length_tokens_move _ m)
    · rw [Option.mem_toList.1 hr] at hhands
      exact hhands.token.2
  · rw [launched_concat, List.map_append, List.nodup_append]
    refine ⟨h.tokens, ?_, ?_⟩
    · cases (s.after moves).launched? m with
      | none => exact List.nodup_nil
      | some r => exact List.nodup_singleton _
    · intro token htoken token' htoken' heq
      obtain ⟨r, hr, rfl⟩ := List.mem_map.1 htoken
      obtain ⟨r', hr', rfl⟩ := List.mem_map.1 htoken'
      rw [Option.mem_toList.1 hr'] at hhands
      have hlt := h.known r hr
      have hle := hhands.token.1
      omega
  · intro r hr
    rw [takenOver_concat] at hr
    rw [after_concat]
    rcases List.mem_append.1 hr with hr | hr
    · exact isCancelled_move (h.cancelled r hr) m
    · rw [Option.mem_toList.1 hr] at hhands
      obtain ⟨hr, htokens⟩ := hhands.cancelled
      have hlt : r.token < (s.after moves).tokens.length := h.known r (by simp [h.handed, hr])
      rw [isCancelled, htokens]
      exact isCancelled_cancel_self hlt

end Handed

/-- **Pullers are handed over in order**, all along a run. -/
theorem handed_after {plan : Plan} (hbuild : plan.build = .ok s) (moves : List Move) :
    Handed s moves := by
  induction moves using List.reverseRecOn with
  | nil =>
    obtain ⟨setup, slots, -, -, -, -, hbooks, -, hrunning, hstopping, -⟩ := Plan.of_build hbuild
    have hpullers : s.pullers = [] := congrArg Books.pullers hbooks
    have hstarted : s.started = [] := by rw [started, hrunning]; rfl
    refine ⟨?_, fun _ h ↦ absurd h List.not_mem_nil, ?_, fun _ h ↦ absurd h List.not_mem_nil,
      List.nodup_nil, fun _ h ↦ absurd h List.not_mem_nil⟩
    · rw [after_nil, hstarted, hstopping, hpullers]
      exact .refl _
    · rw [after_nil, hrunning]
      rfl
  | append_singleton moves m ih => exact ih.concat m

end State

end PullConsumer.Supervisor
