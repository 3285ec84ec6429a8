/-!
# A broadcast ring

A ring keeps the items sent last, as many as it has places; the number of places is a power of two.
Every reader sees the items sent after it joined, in order. A reader that falls behind by more than
the ring holds is told how many items it lost and goes on with the oldest one kept.

Items are numbered from zero in the order of sending, and a reader is nothing but the number of the
item it wants next.
-/

namespace PullConsumer.Event

/-- A ring of items of type `α`. -/
structure Ring (α : Type) where
  places : Nat
  sent : Nat := 0
  kept : List α := []
  deriving Inhabited

/-- What a reader is told when it asks for its next item. -/
inductive Reading (α : Type) where
  | item (a : α)
  | empty
  | lagged (lost : Nat)
  deriving DecidableEq, Inhabited

namespace Ring

variable {α : Type}

/-- The number of places for a wanted capacity: the least power of two that is neither below it
nor zero. -/
def placesFor (capacity : Nat) : Nat := Nat.nextPowerOfTwo (max capacity 1)

def ofCapacity (capacity : Nat) : Ring α := { places := placesFor capacity }

/-- The number of the oldest item that is kept. -/
def oldest (r : Ring α) : Nat := r.sent - r.kept.length

/-- Sends an item; when every place is taken the oldest item goes. -/
def send (r : Ring α) (a : α) : Ring α :=
  { r with
    sent := r.sent + 1
    kept := if r.kept.length < r.places then r.kept ++ [a] else r.kept.drop 1 ++ [a] }

/-- A ring never keeps more items than it has places. -/
theorem length_kept_send_le {r : Ring α} (h : r.kept.length ≤ r.places) (hp : 0 < r.places)
    (a : α) : (r.send a).kept.length ≤ (r.send a).places := by
  show (if r.kept.length < r.places then r.kept ++ [a] else r.kept.drop 1 ++ [a]).length ≤ r.places
  split
  · next hlt => rw [List.length_append, List.length_singleton]; omega
  · next hge => rw [List.length_append, List.length_drop, List.length_singleton]; omega

/-- Where a reader that joins now starts. -/
def join (r : Ring α) : Nat := r.sent

/-- Reads at a position: the answer, and the position to read at next. -/
def read (r : Ring α) (position : Nat) : Reading α × Nat :=
  if position < r.oldest then (.lagged (r.oldest - position), r.oldest)
  else match r.kept[position - r.oldest]? with
    | some a => (.item a, position + 1)
    | none => (.empty, position)

end Ring

end PullConsumer.Event
