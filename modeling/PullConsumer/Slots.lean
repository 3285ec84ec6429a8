import PullConsumer.Failure

/-!
# Slots

A pool of slots bounds how many messages of a subscription are worked on at once. It counts twice:
the permits that are free, which decide whether a slot can be taken, and the slots in use, which are
reported and waited for. A slot that is given back lowers the second count before it raises the
first one; between two operations the two counts add up to the capacity.
-/

namespace PullConsumer

/-- A pool of slots. -/
structure Slots where
  capacity : Nat
  free : Nat
  inUse : Nat
  deriving DecidableEq, Inhabited

namespace Slots

/-- The largest capacity a pool can have. -/
def largest : Nat := Nat.pow 2 61 - 1

/-- A pool in which every slot is free. -/
def create (capacity : Nat) : Except Refusal Slots :=
  if capacity = 0 then .error (.invalid .zeroConcurrency)
  else if capacity > largest then .error (.crashed .tooManyPermits)
  else .ok ⟨capacity, capacity, 0⟩

/-- Takes a slot if one is free. -/
def take? (s : Slots) : Option Slots :=
  if s.free = 0 then none else some { s with free := s.free - 1, inUse := s.inUse + 1 }

/-- A slot can be taken unless none is free. -/
theorem take?_eq_none_iff {s : Slots} : s.take? = none ↔ s.free = 0 := by
  simp [take?]

/-- Taking a slot moves it from the one count to the other. -/
theorem free_add_inUse_of_take? {s t : Slots} (h : s.take? = some t) :
    t.free + t.inUse = s.free + s.inUse := by
  unfold take? at h
  split at h
  · exact absurd h (by simp)
  · next hf =>
    cases h
    show s.free - 1 + (s.inUse + 1) = s.free + s.inUse
    omega

/-- A slot that is taken is in use. -/
theorem inUse_of_take? {s t : Slots} (h : s.take? = some t) : t.inUse = s.inUse + 1 := by
  unfold take? at h
  split at h
  · exact absurd h (by simp)
  · cases h
    rfl

/-- Gives a slot back. -/
def giveBack (s : Slots) : Slots := { s with inUse := s.inUse - 1, free := s.free + 1 }

/-- No slot is in use. -/
def isIdle (s : Slots) : Bool := s.inUse = 0

/-- The pool spelled out. -/
def debug (s : Slots) : String :=
  Text.record "SlotPool" [("capacity", toString s.capacity), ("in_use", toString s.inUse)]

/-- A slot of the pool spelled out. -/
def slotDebug (s : Slots) : String := Text.record "Slot" [("capacity", toString s.capacity)]

end Slots

end PullConsumer
