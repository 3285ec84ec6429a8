import Mathlib.Algebra.GroupWithZero.Nat
import PullConsumer.Proofs.Supervisor.Launches
import PullConsumer.Supervisor.Account

/-!
# The tale of a puller

What a puller does can be told as a tale: the answers that it got from the broker, what it and its
jobs told the world, and whether its token was cancelled when it came to leave. A tale is collected
along the moves of a run, those of the puller and those of its jobs, and nobody else's (`tale`).

How a tale may go is said by `Ending`, in four forms. A puller is told to stop before it is bound,
or it is refused; or it is bound, and then it is told to stop or fails. How far it has come can be
read off its phase (`Tale.Fits`), so the forms are followed stride by stride; the jobs only put in
their own entries, and only while there are jobs. A puller that stops has none left, since its
subscription uses no slot at that moment. So nothing comes after the stop (`tale_of_finished`).
-/

namespace PullConsumer.Supervisor

/-! ### Tales -/

/-- What a puller was answered and what it and its jobs have told the world, the first one first. -/
@[ext]
structure Tale where
  binds : List (Except BrokerError Unit) := []
  fetches : List (Except BrokerError Delivery) := []
  /-- Each time the puller came to leave: whether its token was cancelled. -/
  partings : List Bool := []
  told : List Entry := []

namespace Tale

def append (x y : Tale) : Tale where
  binds := x.binds ++ y.binds
  fetches := x.fetches ++ y.fetches
  partings := x.partings ++ y.partings
  told := x.told ++ y.told

instance : Append Tale := ⟨append⟩

variable (x y : Tale)

@[simp] theorem binds_append : (x ++ y).binds = x.binds ++ y.binds := rfl

@[simp] theorem fetches_append : (x ++ y).fetches = x.fetches ++ y.fetches := rfl

@[simp] theorem partings_append : (x ++ y).partings = x.partings ++ y.partings := rfl

@[simp] theorem told_append : (x ++ y).told = x.told ++ y.told := rfl

@[simp] theorem append_empty : x ++ ({} : Tale) = x := by
  ext1 <;> exact List.append_nil _

end Tale

namespace State

/-- A move is made by a puller or by one of its jobs. -/
def isBy (s : State) (n : Nat) : Move → Bool
  | .pull k => k = n
  | .work k => s.jobs.any fun j ↦ j.number = k && j.puller = n
  | _ => false

/-- Whether the token of a puller is cancelled, if the puller comes to leave in a move. -/
def parting? (s : State) (n : Nat) (p : Puller) (m : Move) : Option Bool :=
  if p.phase ≠ .leaving ∧ ((s.move m).pullers[n]?).map Puller.phase = some .leaving then
    some (s.isCancelled p.token)
  else none

/-- What a move adds to the tale of a puller. -/
def part (s : State) (n : Nat) (m : Move) : Tale :=
  if s.isBy n m then
    match m, s.pullers[n]? with
    | .pull _, some p => {
      binds := (s.bindAnswer? p).toList
      fetches := (s.fetchAnswer? p).toList
      partings := (s.parting? n p m).toList
      told := s.tells m }
    | _, _ => { told := s.tells m }
  else {}

/-- How much more errors of a kind are counted under a label after a move. -/
def blames (s : State) (l : Label) (kind : String) (m : Move) : Nat :=
  (s.move m).books.errors l kind - s.books.errors l kind

/-- A state whose pullers follow another policy when they bind. -/
def retrying (s : State) (policy : Retry.Policy BrokerError) : State :=
  { s with setup := { s.setup with bindRetry := policy } }

theorem part_pull {s : State} {n : Nat} {p : Puller} (hp : s.pullers[n]? = some p) :
    s.part n (.pull n) = {
      binds := (s.bindAnswer? p).toList
      fetches := (s.fetchAnswer? p).toList
      partings := (s.parting? n p (.pull n)).toList
      told := s.tells (.pull n) } := by
  simp [part, isBy, hp]

theorem part_work {s : State} {n k : Nat} (hby : s.isBy n (.work k) = true) :
    s.part n (.work k) = { told := s.tells (.work k) } :=
  if_pos hby

theorem part_of_not_isBy {s : State} {n : Nat} {m : Move} (hby : s.isBy n m = false) :
    s.part n m = {} :=
  if_neg (by simp [hby])

theorem told_part (s : State) (n : Nat) (m : Move) :
    (s.part n m).told = if s.isBy n m then s.tells m else [] := by
  unfold part
  split
  · split <;> rfl
  · rfl

end State

/-- The tale of a puller in a run. -/
def tale (n : Nat) (s : State) (moves : List Move) : Tale :=
  (s.steps moves).foldl (fun x y ↦ x ++ y.1.part n y.2) {}

/-- How many errors of a kind a puller and its jobs have counted under a label in a run. -/
def blamed (n : Nat) (s : State) (moves : List Move) (l : Label) (kind : String) : Nat :=
  ((s.steps moves).map fun y ↦ if y.1.isBy n y.2 then y.1.blames l kind y.2 else 0).sum

@[simp] theorem tale_concat (n : Nat) (s : State) (moves : List Move) (m : Move) :
    tale n s (moves ++ [m]) = tale n s moves ++ (s.after moves).part n m := by
  rw [tale, State.steps_concat, List.foldl_append]
  rfl

@[simp] theorem blamed_concat (n : Nat) (s : State) (moves : List Move) (m : Move) (l : Label)
    (kind : String) : blamed n s (moves ++ [m]) l kind = blamed n s moves l kind +
      if (s.after moves).isBy n m then (s.after moves).blames l kind m else 0 := by
  rw [blamed, State.steps_concat, List.map_append, List.sum_append]
  exact congrArg (_ + ·) (Nat.add_zero _)

/-! ### How a tale may go -/

/-- The tale of a puller that has bound after attempts that failed with `causes`, and has pulled
since. -/
def Tale.bound (x : Setup) (sub : Nat) (causes : List BrokerError)
    (fetches : List (Except BrokerError Delivery)) (rest : List Entry) : Tale where
  binds := causes.map .error ++ [.ok ()]
  fetches := fetches
  told := x.tells sub (.of .subscriptionStarting) ::
    x.tells sub ((Event.of .subscriptionBound).withAttempt (causes.length + 1)) :: rest

/-- Fetches that a puller goes on after: they have brought a delivery or have run out of time. -/
def Continues (fetches : List (Except BrokerError Delivery)) : Prop :=
  ∀ cause, .error cause ∈ fetches → cause.isTimeout = true

/-- **How the tale of a puller may go** until it stops. -/
inductive Ending (x : Setup) (n sub : Nat) : Tale → Prop
  /-- It was told to stop before it was bound. -/
  | unbound (causes : List BrokerError) : Ending x n sub {
      binds := causes.map .error
      partings := [true]
      told := [x.tells sub (.of .subscriptionStarting)] }
  /-- It was not told to stop, and `cause` was the last failure to bind. -/
  | refused (causes : List BrokerError) (cause : BrokerError) : Ending x n sub {
      binds := (causes ++ [cause]).map .error
      partings := [false]
      told := [
        x.tells sub (.of .subscriptionStarting),
        x.tells sub (((Event.of .bindFailed).withAttempt (causes.length + 1)).withReason
          (x.bindReport ((causes ++ [cause]).map BrokerError.message))),
        .fatal n cause] }
  /-- It was bound and was told to stop. -/
  | stopped (causes : List BrokerError) {fetches : List (Except BrokerError Delivery)}
      {handling : List Entry} (hfetches : Continues fetches)
      (hhandling : ∀ e ∈ handling, e.IsOfHandling (x.binding sub)) :
      Ending x n sub (.bound x sub causes fetches handling ++ { partings := [true] })
  /-- It was bound and a fetch has failed with `cause`. -/
  | failed (causes : List BrokerError) {fetches : List (Except BrokerError Delivery)}
      {cause : BrokerError} {before after : List Entry} (cancelled : Bool)
      (hfetches : Continues fetches) (hcause : cause.isTimeout = false)
      (hbefore : ∀ e ∈ before, e.IsOfHandling (x.binding sub))
      (hafter : ∀ e ∈ after, e.IsOfHandling (x.binding sub)) :
      Ending x n sub (.bound x sub causes (fetches ++ [.error cause]) (before ++
        x.tells sub ((Event.of .fetchFailed).withReason cause.message) :: .fatal n cause ::
          after) ++ { partings := [cancelled] })

/-- Once it was bound, the jobs of a puller may put in their own entries. -/
theorem Ending.handle {x : Setup} {n sub : Nat} {y : Tale} {entries : List Entry}
    (h : Ending x n sub y) (hbound : .ok () ∈ y.binds)
    (hentries : ∀ e ∈ entries, e.IsOfHandling (x.binding sub)) :
    Ending x n sub (y ++ { told := entries }) := by
  have hmore {handling : List Entry} (h : ∀ e ∈ handling, e.IsOfHandling (x.binding sub)) :
      ∀ e ∈ handling ++ entries, e.IsOfHandling (x.binding sub) :=
    fun e he ↦ (List.mem_append.1 he).elim (h e) (hentries e)
  cases h with
  | unbound causes => exact absurd hbound (by simp)
  | refused causes cause => exact absurd hbound (by simp)
  | stopped causes hfetches hhandling =>
    convert Ending.stopped (n := n) causes hfetches (hmore hhandling) using 1
    ext1 <;> simp [Tale.bound]
  | failed causes cancelled hfetches hcause hbefore hafter =>
    convert Ending.failed causes cancelled hfetches hcause hbefore (hmore hafter) using 1
    ext1 <;> simp [Tale.bound]

/-- **How far a puller has come in its tale**, by its phase; `works` says that jobs of it are at
work. -/
inductive Tale.Fits (x : Setup) (n sub : Nat) (works : Prop) : Puller.Phase → Tale → Prop
  | fresh (hidle : ¬works) : Fits x n sub works .fresh {}
  | binding {phase : Puller.Phase} (causes : List BrokerError)
      (hphase : phase = .binding (causes.map BrokerError.message) ∨
        ∃ due, phase = .rebinding (causes.map BrokerError.message) due) (hidle : ¬works) :
      Fits x n sub works phase {
        binds := causes.map .error, told := [x.tells sub (.of .subscriptionStarting)] }
  | bound {phase : Puller.Phase} (causes : List BrokerError)
      {fetches : List (Except BrokerError Delivery)} {handling : List Entry}
      (hphase : phase.isRound = true ∨ ∃ cause, phase = .crashed cause)
      (hfetches : Continues fetches)
      (hhandling : ∀ e ∈ handling, e.IsOfHandling (x.binding sub)) :
      Fits x n sub works phase (.bound x sub causes fetches handling)
  | leaving {y : Tale} (h : Ending x n sub y) (hworks : works → .ok () ∈ y.binds) :
      Fits x n sub works .leaving y
  | finished {y : Tale} (h : Ending x n sub y) (hidle : ¬works) :
      Fits x n sub works .finished
        (y ++ { told := [x.tells sub (.of .subscriptionStopped)] })

namespace Tale.Fits

variable {x : Setup} {n sub : Nat} {works works' : Prop} {phase : Puller.Phase} {y : Tale}

/-- Jobs may come to their end. -/
theorem mono (h : Fits x n sub works phase y) (hworks : works' → works) :
    Fits x n sub works' phase y := by
  cases h with
  | fresh hidle => exact .fresh (mt hworks hidle)
  | binding causes hphase hidle => exact .binding causes hphase (mt hworks hidle)
  | bound causes hphase hfetches hhandling => exact .bound causes hphase hfetches hhandling
  | leaving h hbound => exact .leaving h fun hw ↦ hbound (hworks hw)
  | finished h hidle => exact .finished h (mt hworks hidle)

/-- A job at work puts in its entries. -/
theorem handle (h : Fits x n sub works phase y) (hworks : works) {entries : List Entry}
    (hentries : ∀ e ∈ entries, e.IsOfHandling (x.binding sub)) :
    Fits x n sub works phase (y ++ { told := entries }) := by
  cases h with
  | fresh hidle => exact absurd hworks hidle
  | binding _ _ hidle => exact absurd hworks hidle
  | bound causes hphase hfetches hhandling =>
    have hmore : ∀ e ∈ _ ++ entries, e.IsOfHandling (x.binding sub) :=
      fun e he ↦ (List.mem_append.1 he).elim (hhandling e) (hentries e)
    convert (.bound causes hphase hfetches hmore : Fits x n sub works phase _) using 1
    ext1 <;> simp [Tale.bound]
  | leaving h hbound =>
    exact .leaving (h.handle (hbound hworks) hentries) fun _ ↦
      List.mem_append_left _ (hbound hworks)
  | finished _ hidle => exact absurd hworks hidle

/-- In a round a puller is bound. -/
theorem exists_bound (h : Fits x n sub works phase y) (hround : phase.isRound = true) :
    ∃ causes fetches handling, y = .bound x sub causes fetches handling ∧ Continues fetches ∧
      ∀ e ∈ handling, e.IsOfHandling (x.binding sub) := by
  cases h with
  | bound causes _ hfetches hhandling => exact ⟨causes, _, _, rfl, hfetches, hhandling⟩
  | binding _ hphase _ =>
    rcases hphase with rfl | ⟨due, rfl⟩
    · exact absurd hround (by simp [Puller.Phase.isRound])
    · exact absurd hround (by simp [Puller.Phase.isRound])
  | _ => exact absurd hround (by simp [Puller.Phase.isRound])

/-- Before it is bound a puller has only begun. -/
theorem exists_binding (h : Fits x n sub works phase y) {errors : List String}
    (hphase : phase = .binding errors ∨ ∃ due, phase = .rebinding errors due) :
    ∃ causes : List BrokerError, errors = causes.map BrokerError.message ∧ ¬works ∧
      y = { binds := causes.map .error, told := [x.tells sub (.of .subscriptionStarting)] } := by
  have hnot (hround : phase.isRound = true ∨ ∃ cause, phase = .crashed cause) : False := by
    rcases hphase with rfl | ⟨due, rfl⟩ <;> simp [Puller.Phase.isRound] at hround
  cases h with
  | binding causes hbinding hidle =>
    refine ⟨causes, ?_, hidle, rfl⟩
    rcases hphase with rfl | ⟨due, rfl⟩ <;> rcases hbinding with h | ⟨due', h⟩ <;> cases h <;> rfl
  | bound _ hround => exact (hnot hround).elim
  | _ => exact absurd hphase (by simp)

/-- Another fetch was answered, and its puller goes on. -/
theorem fetched (h : Fits x n sub works phase y) (hround : phase.isRound = true)
    {answer : Except BrokerError Delivery} (hanswer : Continues [answer]) :
    Fits x n sub works' .head (y ++ { fetches := [answer] }) := by
  obtain ⟨causes, fetches, handling, rfl, hfetches, hhandling⟩ := h.exists_bound hround
  have hmore : Continues (fetches ++ [answer]) := fun cause hcause ↦
    (List.mem_append.1 hcause).elim (hfetches cause) (hanswer cause)
  convert (.bound causes (Or.inl rfl) hmore hhandling : Fits x n sub works' .head _) using 1
  ext1 <;> simp [Tale.bound]

/-- **A stride takes a puller on in its tale.** It finds no slot in use only if no job of it is at
work, and only with a delivery does it begin one. -/
theorem stride {s : State} {p : Puller} {bind : Option (Except BrokerError Unit)}
    {fetch : Option (Except BrokerError Delivery)} {entries : List Entry}
    (hstride : Stride s n p bind fetch phase entries) (h : Fits s.setup n p.sub works p.phase y)
    (hidle : s.inUse p.sub = 0 → ¬works)
    (hworks : works' → works ∨ ∃ d, fetch = some (.ok d)) :
    Fits s.setup n p.sub works' phase (y ++ {
      binds := bind.toList
      fetches := fetch.toList
      partings := (if p.phase ≠ .leaving ∧ phase = .leaving then some (s.isCancelled p.token)
        else none).toList
      told := entries }) := by
  have hkeep (hnone : fetch = none) (hw : works') : works :=
    (hworks hw).resolve_right fun hsome ↦ by simp [hnone] at hsome
  have hround (h' : p.phase.isRound = true) := h.exists_bound h'
  have hstay (h' : p.phase.isRound = true) : p.phase ≠ .leaving := by
    intro hphase
    exact absurd h' (by simp [hphase, Puller.Phase.isRound])
  have hbinding {errors : List String} (hphase : p.phase = .binding errors) :=
    h.exists_binding (Or.inl hphase)
  cases hstride with
  | wait =>
    convert h.mono (hkeep rfl) using 1
    ext1 <;> simp
  | begin hphase =>
    rw [hphase] at h
    cases h with
    | fresh hnone =>
      convert (.binding [] (Or.inl rfl) (mt (hkeep rfl) hnone) :
        Fits s.setup n p.sub works' (.binding []) _) using 1
      ext1 <;> simp [hphase]
    | binding _ hphase' _ => exact absurd hphase' (by simp)
    | bound _ hphase' => exact absurd hphase' (by simp [Puller.Phase.isRound])
  | bound hphase =>
    obtain ⟨causes, rfl, -, rfl⟩ := hbinding hphase
    have hnothing : Continues [] := fun _ h ↦ absurd h List.not_mem_nil
    convert (.bound causes (Or.inl rfl) hnothing (fun _ h ↦ absurd h List.not_mem_nil) :
      Fits s.setup n p.sub works' .head _) using 1
    ext1 <;> simp [Tale.bound]
  | @retry errors cause phase hphase hphase' =>
    obtain ⟨causes, rfl, hnone, rfl⟩ := hbinding hphase
    have hmore : causes.map BrokerError.message ++ [cause.message] =
        (causes ++ [cause]).map BrokerError.message := by simp
    rw [hmore] at hphase'
    have hnot : phase ≠ .leaving := by
      rcases hphase' with rfl | ⟨due, rfl⟩ <;> simp
    convert (.binding _ hphase' (mt (hkeep rfl) hnone) :
      Fits s.setup n p.sub works' phase _) using 1
    ext1 <;> simp [hnot]
  | @withdraw errors cause hphase hcancelled =>
    obtain ⟨causes, rfl, hnone, rfl⟩ := hbinding hphase
    convert (.leaving (.unbound (causes ++ [cause])) (fun hw ↦ absurd (hkeep rfl hw) hnone) :
      Fits s.setup n p.sub works' .leaving _) using 1
    ext1 <;> simp [hphase, hcancelled]
  | @refused errors cause hphase hlive =>
    obtain ⟨causes, rfl, hnone, rfl⟩ := hbinding hphase
    convert (.leaving (.refused causes cause) (fun hw ↦ absurd (hkeep rfl hw) hnone) :
      Fits s.setup n p.sub works' .leaving _) using 1
    ext1 <;> simp [hphase, hlive]
  | rebind hphase =>
    obtain ⟨causes, rfl, hnone, rfl⟩ := h.exists_binding (Or.inr ⟨_, hphase⟩)
    convert (.binding causes (Or.inl rfl) (mt (hkeep rfl) hnone) :
      Fits s.setup n p.sub works' (.binding _) _) using 1
    ext1 <;> simp
  | quit hlooks hcancelled =>
    by_cases hbound : p.phase.isRound = true
    · obtain ⟨causes, fetches, handling, rfl, hfetches, hhandling⟩ := hround hbound
      convert (.leaving (.stopped causes hfetches hhandling) (fun _ ↦ by simp [Tale.bound]) :
        Fits s.setup n p.sub works' .leaving _) using 1
      ext1 <;> simp [hstay hbound, hcancelled]
    · obtain ⟨errors, due, hphase⟩ : ∃ errors due, p.phase = .rebinding errors due := by
        cases hphase : p.phase with
        | rebinding errors due => exact ⟨errors, due, rfl⟩
        | head => exact absurd (by simp [hphase, Puller.Phase.isRound]) hbound
        | crowded due => exact absurd (by simp [hphase, Puller.Phase.isRound]) hbound
        | _ => exact absurd hlooks (by simp [hphase, Puller.Phase.looksUp])
      obtain ⟨causes, rfl, hnone, rfl⟩ := h.exists_binding (Or.inr ⟨_, hphase⟩)
      convert (.leaving (.unbound causes) (fun hw ↦ absurd (hkeep rfl hw) hnone) :
        Fits s.setup n p.sub works' .leaving _) using 1
      ext1 <;> simp [hphase, hcancelled]
  | @round phase h' hphase' =>
    obtain ⟨causes, fetches, handling, rfl, hfetches, hhandling⟩ := hround h'
    have hnot : phase ≠ .leaving := by
      intro hphase
      exact absurd hphase' (by simp [hphase, Puller.Phase.isRound])
    convert (.bound causes (Or.inl hphase') hfetches hhandling :
      Fits s.setup n p.sub works' phase _) using 1
    ext1 <;> simp [hnot]
  | @fetched d h' =>
    have hanswer : Continues [.ok d] := by simp [Continues]
    convert (h.fetched h' hanswer : Fits s.setup n p.sub works' .head _) using 1
    ext1 <;> simp
  | @timedOut cause h' hcause =>
    have hanswer : Continues [.error cause] := by simpa [Continues] using hcause
    convert (h.fetched h' hanswer : Fits s.setup n p.sub works' .head _) using 1
    ext1 <;> simp
  | @failed cause h' hcause =>
    obtain ⟨causes, fetches, handling, rfl, hfetches, hhandling⟩ := hround h'
    convert (.leaving (.failed causes (s.isCancelled p.token) hfetches hcause hhandling
      (fun _ h ↦ absurd h List.not_mem_nil)) (fun _ ↦ by simp [Tale.bound]) :
        Fits s.setup n p.sub works' .leaving _) using 1
    ext1 <;> simp [Tale.bound, hstay h']
  | @crash due cause hphase _ =>
    obtain ⟨causes, fetches, handling, rfl, hfetches, hhandling⟩ :=
      hround (by simp [hphase, Puller.Phase.isRound])
    convert (.bound causes (Or.inr ⟨cause, rfl⟩) hfetches hhandling :
      Fits s.setup n p.sub works' (.crashed cause) _) using 1
    ext1 <;> simp
  | stop hphase hnone =>
    rw [hphase] at h
    cases h with
    | leaving h hbound =>
      convert (.finished h (mt (hkeep rfl) (hidle hnone)) :
        Fits s.setup n p.sub works' .finished _) using 1
      ext1 <;> simp
    | binding _ hphase' _ => exact absurd hphase' (by simp)
    | bound _ hphase' => exact absurd hphase' (by simp [Puller.Phase.isRound])

end Tale.Fits

/-! ### Along a run -/

/-- What has been collected about a puller fits what has become of it. Of the failures that it has
reported every one was counted, under the label of its subscription. -/
structure Follows (s : State) (n : Nat) (x : Tale) (errors : Label → String → Nat) : Prop where
  absent : s.pullers[n]? = none → x = {} ∧ ∀ l (cause : BrokerError), errors l cause.label = 0
  fits : ∀ p, s.pullers[n]? = some p →
    x.Fits s.setup n p.sub (∃ j ∈ s.jobs, j.puller = n) p.phase
  cancelled : ∀ p, s.pullers[n]? = some p → true ∈ x.partings → s.isCancelled p.token = true
  counted : ∀ p, s.pullers[n]? = some p → ∀ l (cause : BrokerError), errors l cause.label =
    if s.setup.metered = true ∧ l = s.setup.label p.sub then
      x.told.countP (Entry.isFatal cause.label) else 0

namespace Follows

variable {s : State} {n : Nat} {x : Tale} {errors : Label → String → Nat} {m : Move}

/-- What others do is no part of the tale. -/
theorem others (h : Follows s n x errors) (hrecorded : s.books.Recorded) (hm : m ≠ .pull n) :
    Follows (s.move m) n x errors := by
  have hworks : (∃ j ∈ (s.move m).jobs, j.puller = n) → ∃ j ∈ s.jobs, j.puller = n := by
    rintro ⟨j, hj, hjn⟩
    rcases s.job_of_move hj with ⟨i, hi, -, hpuller⟩ | ⟨p, d, rfl, -, -⟩
    · exact ⟨i, hi, hpuller.trans hjn⟩
    · exact absurd (congrArg Move.pull hjn) hm
  rcases s.puller_of_move hm with hsame | ⟨hnone, q, hq, hfresh⟩
  · refine ⟨?_, ?_, ?_, ?_⟩
    · rw [hsame]
      exact h.absent
    · intro p hp
      rw [s.setup_move]
      exact (h.fits p (hsame ▸ hp)).mono hworks
    · intro p hp hmem
      exact State.isCancelled_move (h.cancelled p (hsame ▸ hp) hmem) m
    · intro p hp
      rw [s.setup_move]
      exact h.counted p (hsame ▸ hp)
  · obtain ⟨rfl, herrors⟩ := h.absent hnone
    -- A puller that is put to work has no jobs.
    have hidle : ¬∃ j ∈ (s.move m).jobs, j.puller = n := by
      intro hjob
      obtain ⟨j, hj, rfl⟩ := hworks hjob
      have hseat := hrecorded.placed j hj
      have hnobody : s.books.pullers[j.puller]? = none := hnone
      rw [Books.seats, List.getElem?_map, hnobody] at hseat
      exact absurd hseat (by simp)
    refine ⟨?_, ?_, ?_, ?_⟩
    · intro hnone'
      exact absurd (hq.symm.trans hnone') (by simp)
    · intro p hp
      obtain rfl : q = p := Option.some.inj (hq.symm.trans hp)
      rw [hfresh]
      exact .fresh hidle
    · intro p _ hmem
      exact absurd hmem List.not_mem_nil
    · intro p _ l cause
      rw [herrors, List.countP_nil, ite_self]

/-- A job of the puller has its turn. -/
theorem work {k : Nat} (h : Follows s n x errors) (hrecorded : s.books.Recorded)
    (hby : s.isBy n (.work k) = true) :
    Follows (s.move (.work k)) n (x ++ s.part n (.work k))
      fun l kind ↦ errors l kind + s.blames l kind (.work k) := by
  obtain ⟨j, hj, rfl, rfl⟩ : ∃ j ∈ s.jobs, j.number = k ∧ j.puller = n := by
    simpa [State.isBy] using hby
  obtain ⟨p, hp, hsub⟩ : ∃ p, s.pullers[j.puller]? = some p ∧ p.sub = j.sub := by
    have hseat := hrecorded.placed j hj
    rw [Books.seats, List.getElem?_map] at hseat
    exact Option.map_eq_some_iff.1 hseat
  have hworks : Works j s (s.move (.work j.number)) := by
    rcases s.jobTurn_cases j.number with ⟨-, hnone⟩ | ⟨i, hi, hnumber, hworks⟩
    · exact absurd rfl (hnone j hj)
    · obtain rfl : i = j := List.inj_on_of_nodup_map hrecorded.once hi hj hnumber
      exact hworks
  obtain ⟨entries, htold, hentries⟩ := hworks.told
  rw [← hsub] at hentries
  have hnofatal (kind : String) : entries.countP (Entry.isFatal kind) = 0 := by
    refine List.countP_eq_zero.2 fun e he ↦ ?_
    obtain ⟨event, -, rfl⟩ := hentries e he
    simp [Entry.isFatal]
  rw [State.part_work hby, State.tells_eq htold]
  refine others ⟨fun hnone ↦ absurd (hp.symm.trans hnone) (by simp), ?_, ?_, ?_⟩ hrecorded
    (fun h ↦ by cases h)
  · intro q hq
    obtain rfl : p = q := Option.some.inj (hp.symm.trans hq)
    exact (h.fits p hp).handle ⟨j, hj, rfl⟩ hentries
  · intro q hq hmem
    rw [Tale.partings_append, List.append_nil] at hmem
    exact h.cancelled q hq hmem
  · intro q hq l cause
    rw [Tale.told_append, List.countP_append, hnofatal, Nat.add_zero, ← h.counted q hq,
      State.blames, hworks.errors, Nat.sub_self, Nat.add_zero]

/-- The puller takes a step. -/
theorem pull {p : Puller} (h : Follows s n x errors) (hcounted : s.books.Counted)
    (hrecorded : s.books.Recorded) (hp : s.pullers[n]? = some p) :
    Follows (s.move (.pull n)) n (x ++ s.part n (.pull n))
      fun l kind ↦ errors l kind + s.blames l kind (.pull n) := by
  obtain ⟨⟨phase, entries, hstride, hstrode, -⟩, -⟩ := State.strides_move hp
  have hpullers : (s.move (.pull n)).pullers[n]? = some { p with phase } := hstrode.puller hp
  have hparting : s.parting? n p (.pull n) =
      if p.phase ≠ .leaving ∧ phase = .leaving then some (s.isCancelled p.token) else none := by
    rw [State.parting?, hpullers]
    simp
  have hidle : s.inUse p.sub = 0 → ¬∃ j ∈ s.jobs, j.puller = n := by
    rintro hnone ⟨j, hj, hjn⟩
    exact hcounted.puller_ne_of_idle hrecorded hp hnone hj hjn
  rw [State.part_pull hp, hparting, State.tells_eq hstrode.told]
  refine ⟨fun hnone ↦ absurd (hpullers.symm.trans hnone) (by simp), ?_, ?_, ?_⟩
  · intro q hq
    obtain rfl : _ = q := Option.some.inj (hpullers.symm.trans hq)
    rw [s.setup_move]
    refine Tale.Fits.stride hstride (h.fits p hp) hidle ?_
    rintro ⟨j, hj, hjn⟩
    rcases hstrode.jobs j hj with hj | ⟨-, hd⟩
    · exact Or.inl ⟨j, hj, hjn⟩
    · exact Or.inr hd
  · intro q hq hmem
    obtain rfl : _ = q := Option.some.inj (hpullers.symm.trans hq)
    refine State.isCancelled_move ?_ _
    rcases List.mem_append.1 hmem with hmem | hmem
    · exact h.cancelled p hp hmem
    · split at hmem
      · exact (List.mem_singleton.1 hmem).symm
      · exact absurd hmem List.not_mem_nil
  · intro q hq l cause
    obtain rfl : _ = q := Option.some.inj (hpullers.symm.trans hq)
    rw [s.setup_move, State.blames, hstrode.errors, Nat.add_sub_cancel_left, h.counted p hp,
      Tale.told_append, List.countP_append]
    split
    · next hlabel => exact congrArg (_ + ·) (if_pos hlabel)
    · next hlabel => exact congrArg (0 + ·) (if_neg hlabel)

/-- **A tale goes on with every move.** -/
theorem move (h : Follows s n x errors) (hrecorded : s.books.Recorded) (hcounted : s.books.Counted)
    (m : Move) : Follows (s.move m) n (x ++ s.part n m)
      fun l kind ↦ errors l kind + if s.isBy n m then s.blames l kind m else 0 := by
  by_cases hby : s.isBy n m = true
  · simp only [hby, if_true]
    cases m with
    | pull k =>
      obtain rfl : k = n := by simpa [State.isBy] using hby
      cases hp : s.pullers[k]? with
      | some p => exact h.pull hcounted hrecorded hp
      | none =>
        -- There is nobody to take a step.
        have hmove : s.move (.pull k) = s := by rw [State.move, hp]
        obtain ⟨rfl, herrors⟩ := h.absent hp
        have htells : s.tells (.pull k) = [] := State.tells_eq (by rw [hmove, List.append_nil])
        have hpart : s.part k (.pull k) = {} := by simp [State.part, State.isBy, hp, htells]
        rw [hmove, hpart]
        refine ⟨fun _ ↦ ⟨rfl, fun l cause ↦ ?_⟩, ?_, ?_, ?_⟩
        · rw [herrors, State.blames, hmove, Nat.sub_self]
        all_goals exact fun p hp' ↦ absurd (hp.symm.trans hp') (by simp)
    | work k => exact h.work hrecorded hby
    | _ => exact absurd hby (by simp [State.isBy])
  · simp only [hby]
    rw [State.part_of_not_isBy (by simpa using hby), Tale.append_empty]
    refine h.others hrecorded fun hm ↦ ?_
    rw [hm] at hby
    exact hby (by simp [State.isBy])

end Follows

theorem Plan.sound_of_build {plan : Plan} {s : State} (hbuild : plan.build = .ok s)
    (policy : Retry.Policy BrokerError) :
    (s.retrying policy).books.Recorded ∧ (s.retrying policy).books.Counted := by
  have h := Plan.recorded_of_build hbuild
  exact ⟨⟨h.seated, h.once, h.begun, h.placed, h.present, h.gone, h.future⟩,
    (Plan.counted_of_build hbuild).1⟩

/-- A tale fits what has become of its puller, all along a run. -/
theorem follows_tale {plan : Plan} {s : State} (hbuild : plan.build = .ok s)
    (policy : Retry.Policy BrokerError) (n : Nat) (moves : List Move) :
    Follows ((s.retrying policy).after moves) n (tale n (s.retrying policy) moves)
      (blamed n (s.retrying policy) moves) := by
  induction moves using List.reverseRecOn with
  | nil =>
    have hnone : (s.retrying policy).pullers[n]? = none := by
      obtain ⟨setup, slots, -, -, -, -, hbooks, -⟩ := Plan.of_build hbuild
      have hpullers : s.pullers = [] := congrArg Books.pullers hbooks
      show s.pullers[n]? = none
      rw [hpullers, List.getElem?_nil]
    refine ⟨fun _ ↦ ⟨rfl, fun _ _ ↦ rfl⟩, ?_, ?_, ?_⟩
    all_goals exact fun p hp ↦ absurd (hnone.symm.trans hp) (by simp)
  | append_singleton moves m ih =>
    have hrun := Runs.of_moves (s.retrying policy) moves
    obtain ⟨hrecorded, hcounted⟩ := hrun.sound (Plan.sound_of_build hbuild policy)
    have hmove := ih.move hrecorded hcounted m
    rw [State.after_concat, tale_concat]
    convert hmove using 1
    funext l kind
    exact blamed_concat ..

/-- What a tale tells is in the journal. -/
theorem exists_of_mem_told {n : Nat} {s : State} {moves : List Move} {e : Entry}
    (he : e ∈ (tale n s moves).told) : ∃ tick, (tick, e) ∈ (s.after moves).journal := by
  induction moves using List.reverseRecOn with
  | nil => exact absurd he List.not_mem_nil
  | append_singleton moves m ih =>
    rw [tale_concat, Tale.told_append] at he
    rw [State.after_concat]
    rcases List.mem_append.1 he with he | he
    · obtain ⟨tick, hmem⟩ := ih he
      exact ⟨tick, ((s.after moves).suffix_move m).subset hmem⟩
    · have htells : e ∈ (s.after moves).tells m := by
        rw [State.told_part] at he
        exact (List.mem_ite_nil_right.1 he).2
      have hwritten : e ∈ (s.after moves).written m := (List.mem_filter.1 htells).1
      obtain ⟨⟨tick, e⟩, hmem, rfl⟩ := List.mem_map.1 (List.mem_reverse.1 hwritten)
      exact ⟨tick, List.mem_of_mem_take hmem⟩

/-- **The tale of a puller that has come to its end.** Whatever the broker answers, whatever policy
the puller follows, whoever moves and whenever its token is cancelled: it begins with the start, and
then the puller is bound, or refused, or leaves unbound because it was told to stop. Both the events
count the attempts to bind. Only between the binding and the stop do its jobs put in their events,
and one failed fetch at most. Each failure is reported at once, for the subscription of the puller
and with the error that was the last answer of the broker, and it is counted under the label of the
subscription, once; nothing else is reported or counted. The stop comes last and once. -/
theorem tale_of_finished {plan : Plan} {s : State} (hbuild : plan.build = .ok s)
    (policy : Retry.Policy BrokerError) (moves : List Move) {n : Nat} {p : Puller}
    (hp : ((s.retrying policy).after moves).pullers[n]? = some p) (hphase : p.phase = .finished) :
    (∃ x : Tale, Ending (s.retrying policy).setup n p.sub x ∧ tale n (s.retrying policy) moves =
      x ++ { told := [(s.retrying policy).setup.tells p.sub (.of .subscriptionStopped)] }) ∧
    (∀ cause, .fatal n cause ∈ (tale n (s.retrying policy) moves).told → p.reporter = .callback →
      ∃ tick, (tick, p.sub, cause) ∈ Account.fatals ((s.retrying policy).after moves)) ∧
    ∀ l (cause : BrokerError), blamed n (s.retrying policy) moves l cause.label =
      if s.setup.metered = true ∧ l = s.setup.label p.sub then
        (tale n (s.retrying policy) moves).told.countP (Entry.isFatal cause.label)
      else 0 := by
  have hfollows := follows_tale hbuild policy n moves
  have hsetup : ((s.retrying policy).after moves).setup = (s.retrying policy).setup :=
    (Runs.of_moves _ moves).setup_eq
  have hfits := hfollows.fits p hp
  have hcounted := hfollows.counted p hp
  rw [hsetup] at hfits hcounted
  refine ⟨?_, ?_, hcounted⟩
  · rw [hphase] at hfits
    generalize tale n (s.retrying policy) moves = y at hfits
    cases hfits with
    | finished h _ => exact ⟨_, h, rfl⟩
    | binding _ hbinding _ => exact absurd hbinding (by simp)
    | bound _ hround => exact absurd hround (by simp [Puller.Phase.isRound])
  · intro cause hcause hreporter
    obtain ⟨tick, hmem⟩ := exists_of_mem_told hcause
    refine ⟨tick, List.mem_filterMap.2 ⟨_, List.mem_reverse.2 hmem, ?_⟩⟩
    simp [hp, hreporter]

/-- The puller of the small supervisor is bound, its handler fails once, and it is told to stop. -/
theorem tale_of_finished_lone : ∃ (s : State) (p : Puller), Plan.lone.build = .ok s ∧
    ((s.retrying {}).after (Move.handling ++ Move.stopping)).pullers[0]? = some p ∧
    p.phase = .finished ∧
    (tale 0 (s.retrying {}) (Move.handling ++ Move.stopping)).told.length = 5 ∧
    ∃ x : Tale, Ending (s.retrying {}).setup 0 p.sub x ∧
      tale 0 (s.retrying {}) (Move.handling ++ Move.stopping) =
        x ++ { told := [(s.retrying {}).setup.tells p.sub (.of .subscriptionStopped)] } := by
  obtain ⟨s, p, hbuild, hp, hphase, hlength⟩ : ∃ (s : State) (p : Puller),
      Plan.lone.build = .ok s ∧
      ((s.retrying {}).after (Move.handling ++ Move.stopping)).pullers[0]? = some p ∧
      p.phase = .finished ∧
      (tale 0 (s.retrying {}) (Move.handling ++ Move.stopping)).told.length = 5 :=
    ⟨_, _, rfl, rfl, rfl, by decide +kernel⟩
  exact ⟨s, p, hbuild, hp, hphase, hlength, (tale_of_finished hbuild {} _ hp hphase).1⟩

end PullConsumer.Supervisor
