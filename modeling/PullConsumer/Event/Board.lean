import PullConsumer.Event.Ring

/-!
# A ring with named readers

Readers join a ring under names and read at their own pace. A board that was closed takes no more
items and no more readers, but what it holds can still be read to the end.
-/

namespace PullConsumer.Event

/-- A ring, the positions of its readers, and whether anything can still be sent. -/
structure Board (α : Type) where
  ring : Ring α
  readers : List (String × Nat) := []
  closed : Bool := false
  deriving Inhabited

namespace Board

variable {α : Type}

def ofCapacity (capacity : Nat) : Board α := { ring := .ofCapacity capacity }

/-- A step of those who use a board. -/
inductive Request (α : Type) where
  | join (name : String)
  | leave (name : String)
  | send (item : α)
  | close
  | read (name : String)

/-- What they are told. -/
inductive Reply (α : Type) where
  | none
  | left (wasThere : Bool)
  | reading (r : Reading α)
  | closed

/-- The readers without the one of a name. -/
def without (b : Board α) (name : String) : List (String × Nat) := b.readers.filter (·.1 ≠ name)

/-- Carries out a step. A reader that joins again under its name starts anew. -/
def serve (b : Board α) : Request α → Reply α × Board α
  | .join name =>
    if b.closed then (.none, b)
    else (.none, { b with readers := (name, b.ring.join) :: b.without name })
  | .leave name => (.left (b.readers.lookup name).isSome, { b with readers := b.without name })
  | .send a => (.none, if b.closed then b else { b with ring := b.ring.send a })
  | .close => (.none, { b with closed := true })
  | .read name =>
    match b.readers.lookup name with
    | none => (.none, b)
    | some position =>
      let (answer, next) := b.ring.read position
      let b' := { b with readers := (name, next) :: b.without name }
      match answer, b.closed with
      | .empty, true => (.closed, b')
      | answer, _ => (.reading answer, b')

/-- Carries out steps one after the other. -/
def serveAll (b : Board α) : List (Request α) → List (Reply α)
  | [] => []
  | r :: rest => let (reply, b) := b.serve r; reply :: serveAll b rest

end Board

end PullConsumer.Event
