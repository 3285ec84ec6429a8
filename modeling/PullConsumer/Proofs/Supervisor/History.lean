import Mathlib.Data.List.Induction
import PullConsumer.Proofs.Supervisor.Capacity
import PullConsumer.Proofs.Supervisor.Flights

/-!
# What happened in a run

A state shows where everybody stands, and its journal what was done, but not by whom. Whoever asks
that has to look at the moves. A run is therefore given by the list of its moves here, and looked at
step by step: each step is a move together with the state in which it was made (`State.steps`).

What a step does to the journal is to write some entries (`State.written`). The journal of a run is
what all of its steps have written, one after the other (`State.journal_after`), so that every entry
belongs to the one step that wrote it, and to the party that made the move.
-/

namespace PullConsumer.Supervisor

namespace State

/-- The state after some moves. -/
def after (s : State) (moves : List Move) : State := moves.foldl move s

/-- The steps of a run: its moves, each with the state in which it is made. -/
def steps : State → List Move → List (State × Move)
  | _, [] => []
  | s, m :: rest => (s, m) :: (s.move m).steps rest

/-- The entries that a move writes, the first one first. -/
def written (s : State) (m : Move) : List Entry :=
  (((s.move m).journal.take ((s.move m).journal.length - s.journal.length)).map (·.2)).reverse

@[simp] theorem after_nil (s : State) : s.after [] = s := rfl

theorem after_append (s : State) (moves more : List Move) :
    s.after (moves ++ more) = (s.after moves).after more :=
  List.foldl_append

@[simp] theorem after_concat (s : State) (moves : List Move) (m : Move) :
    s.after (moves ++ [m]) = (s.after moves).move m :=
  s.after_append moves [m]

theorem steps_append (s : State) (moves more : List Move) :
    s.steps (moves ++ more) = s.steps moves ++ (s.after moves).steps more := by
  induction moves generalizing s with
  | nil => rfl
  | cons m rest ih => exact congrArg ((s, m) :: ·) (ih (s.move m))

@[simp] theorem steps_concat (s : State) (moves : List Move) (m : Move) :
    s.steps (moves ++ [m]) = s.steps moves ++ [(s.after moves, m)] :=
  s.steps_append moves [m]

/-- A step of a run is made in the state that the moves before it have led to. -/
theorem exists_split_of_mem_steps {s : State} {moves : List Move} {x : State × Move}
    (hx : x ∈ s.steps moves) :
    ∃ earlier later, moves = earlier ++ x.2 :: later ∧ x.1 = s.after earlier := by
  induction moves generalizing s with
  | nil => exact absurd hx List.not_mem_nil
  | cons m rest ih =>
    rcases List.mem_cons.1 hx with rfl | hx
    · exact ⟨[], rest, rfl, rfl⟩
    · obtain ⟨earlier, later, hrest, hstate⟩ := ih hx
      exact ⟨m :: earlier, later, congrArg (m :: ·) hrest, hstate⟩

/-- What does not change while a supervisor runs. -/
theorem setup_move (s : State) (m : Move) : (s.move m).setup = s.setup :=
  (Runs.single trivial : Runs anything s (s.move m)).setup_eq

/-! ### The journal -/

/-- Nothing is ever struck out of the journal. -/
theorem suffix_move (s : State) (m : Move) : s.journal <:+ (s.move m).journal := by
  have hdeeds {b : Books} (h : Deeds s.books b) : s.books.journal <:+ b.journal := by
    induction h with
    | refl => exact List.suffix_refl _
    | tail _ hlast ih => exact ih.trans hlast.suffix
  have hbooks {b : Books} (h : (s.move m).books = b) (hb : b.journal = s.journal) :
      s.journal <:+ (s.move m).journal :=
    (congrArg Books.journal h).trans hb ▸ List.suffix_refl _
  rcases s.move_cases m with h | ⟨-, phases, hstarts⟩ | ⟨x, -, h⟩
  · exact hdeeds h
  · obtain ⟨token, reporter, h⟩ := hstarts.spawned
    exact hbooks h rfl
  · exact hbooks h rfl

theorem written_eq {s : State} {m : Move} {new : List (Nat × Entry)}
    (h : (s.move m).journal = new ++ s.journal) : s.written m = (new.map (·.2)).reverse := by
  simp [written, h]

/-- What a move writes comes after what was in the journal before. -/
theorem journal_move (s : State) (m : Move) :
    ((s.move m).journal.map (·.2)).reverse = (s.journal.map (·.2)).reverse ++ s.written m := by
  obtain ⟨new, hnew⟩ := s.suffix_move m
  rw [written_eq hnew.symm, ← hnew, List.map_append, List.reverse_append]

/-- **The journal is what the steps have written.** -/
theorem journal_after (s : State) (moves : List Move) :
    ((s.after moves).journal.map (·.2)).reverse =
      (s.journal.map (·.2)).reverse ++ (s.steps moves).flatMap fun x ↦ x.1.written x.2 := by
  induction moves using List.reverseRecOn with
  | nil => simp [steps]
  | append_singleton moves m ih =>
    rw [after_concat, journal_move, ih, steps_concat, List.flatMap_append, List.append_assoc]
    simp

end State

/-! ### Runs and their moves -/

/-- Any moves make a run. -/
theorem Runs.of_moves (s : State) (moves : List Move) : Runs anything s (s.after moves) :=
  Runs.of_list fun _ _ _ ↦ trivial

/-- A run is made of some moves. -/
theorem Runs.exists_moves {allowed : State → Move → Prop} {s t : State} (h : Runs allowed s t) :
    ∃ moves, t = s.after moves := by
  induction h with
  | refl => exact ⟨[], rfl⟩
  | tail _ hlast ih =>
    obtain ⟨moves, rfl⟩ := ih
    obtain ⟨m, -, rfl⟩ := hlast
    exact ⟨moves ++ [m], (State.after_concat ..).symm⟩

/-- Records are kept and slots accounted for, wherever a run begins. -/
theorem Runs.sound {allowed : State → Move → Prop} {s t : State} (h : Runs allowed s t)
    (hs : s.books.Recorded ∧ s.books.Counted) : t.books.Recorded ∧ t.books.Counted := by
  refine h.books_induction (P := fun b ↦ b.Recorded ∧ b.Counted) ?_ ?_ ?_ hs
  · rintro b b' hdeed ⟨hrecorded, hcounted⟩
    exact ⟨hrecorded.deed hdeed, hcounted.deed hdeed hrecorded⟩
  · rintro b token reporter ⟨hrecorded, hcounted⟩
    exact ⟨hrecorded.spawn token reporter, hcounted.spawn token reporter _ _⟩
  · rintro u x - ⟨hrecorded, hcounted⟩
    exact ⟨hrecorded.aside rfl rfl rfl rfl fun _ ↦ rfl, hcounted.aside rfl rfl fun _ ↦ rfl⟩

end PullConsumer.Supervisor
