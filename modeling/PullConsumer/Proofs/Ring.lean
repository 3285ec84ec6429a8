import Mathlib.Data.List.Basic
import PullConsumer.Event.Ring

/-!
# What a ring holds

A ring keeps the last of the items sent, as many as it has places for (`Ring.Holds`). So a reader
that asks for an item by its number is told that item, or that it is too late for it, or that it was
not sent yet (`Ring.Holds.read_cases`).
-/

namespace PullConsumer.Event.Ring

variable {α : Type} {r : Ring α} {items : List α} {a : α} {p : Nat}

/-- A ring that some items were sent on keeps the last of them. -/
structure Holds (r : Ring α) (items : List α) : Prop where
  places : 0 < r.places
  sent : r.sent = items.length
  length : r.kept.length = min r.places items.length
  kept : r.kept = items.drop r.oldest

theorem holds_ofCapacity (capacity : Nat) : (ofCapacity capacity : Ring α).Holds [] where
  places := Nat.pos_of_isPowerOfTwo (Nat.isPowerOfTwo_nextPowerOfTwo _)
  sent := rfl
  length := (Nat.min_zero _).symm
  kept := rfl

/-- A reader gets on, unless there is nothing to read yet. -/
theorem lt_of_read {answer : Reading α} {next : Nat} (h : r.read p = (answer, next)) :
    p < next ∨ answer = .empty ∧ next = p := by
  rw [read] at h
  split at h
  · next hlt =>
    cases h
    exact Or.inl hlt
  · split at h <;> cases h
    · exact Or.inl (Nat.lt_succ_self p)
    · exact Or.inr ⟨rfl, rfl⟩

namespace Holds

theorem oldest (h : r.Holds items) : r.oldest = items.length - r.places := by
  have hlength := h.length
  rw [Ring.oldest, h.sent]
  omega

theorem send (h : r.Holds items) (a : α) : (r.send a).Holds (items ++ [a]) := by
  have hlength := h.length
  have hplaces := h.places
  have hoverall : (items ++ [a]).length = items.length + 1 := List.length_append
  have hkept : (r.send a).kept.length = min r.places (items.length + 1) := by
    show (if r.kept.length < r.places then r.kept ++ [a] else r.kept.drop 1 ++ [a]).length = _
    split
    · rw [List.length_append, List.length_singleton]
      omega
    · rw [List.length_append, List.length_singleton, List.length_drop]
      omega
  refine ⟨h.places, ?_, ?_, ?_⟩
  · show r.sent + 1 = _
    rw [h.sent, hoverall]
  · rw [hkept, hoverall]
    rfl
  · have holdest : (r.send a).oldest = items.length + 1 - r.places := by
      have hsent : (r.send a).sent = items.length + 1 := congrArg (· + 1) h.sent
      rw [Ring.oldest, hkept, hsent]
      omega
    rw [holdest, List.drop_append_of_le_length (by omega)]
    show (if r.kept.length < r.places then r.kept ++ [a] else r.kept.drop 1 ++ [a]) = _
    split
    · next hlt =>
      -- Nothing was ever lost.
      rw [h.kept, h.oldest, show items.length - r.places = 0 by omega,
        show items.length + 1 - r.places = 0 by omega]
    · next hge =>
      rw [h.kept, h.oldest, List.drop_drop,
        show items.length - r.places + 1 = items.length + 1 - r.places by omega]

/-- **What a reader is told** at a place that is not past the end: how much it has lost; the item of
that number; or that there is nothing yet. -/
theorem read_cases (h : r.Holds items) (hp : p ≤ items.length) :
    (p < r.oldest ∧ r.oldest ≤ items.length ∧
        r.read p = (.lagged (r.oldest - p), r.oldest)) ∨
      (∃ a, items[p]? = some a ∧ r.read p = (.item a, p + 1)) ∨
      (p = items.length ∧ r.read p = (.empty, p)) := by
  have holdest : r.oldest ≤ items.length := by
    rw [h.oldest]
    exact Nat.sub_le _ _
  rcases Nat.lt_or_ge p r.oldest with hlt | hge
  · exact Or.inl ⟨hlt, holdest, if_pos hlt⟩
  · right
    have hget : r.kept[p - r.oldest]? = items[p]? := by
      rw [h.kept, List.getElem?_drop, Nat.add_sub_cancel' hge]
    rw [read, if_neg (Nat.not_lt.2 hge), hget]
    rcases Nat.lt_or_eq_of_le hp with hlt | rfl
    · rw [List.getElem?_eq_getElem hlt]
      exact Or.inl ⟨_, rfl, rfl⟩
    · rw [List.getElem?_eq_none (Nat.le_refl _)]
      exact Or.inr ⟨rfl, rfl⟩

end Holds

end PullConsumer.Event.Ring
