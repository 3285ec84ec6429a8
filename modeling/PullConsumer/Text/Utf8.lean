/-!
# Reading bytes as text

`decode` reads a list of bytes as UTF-8 and never fails: each longest start of a well-formed
sequence that is not completed is read as one replacement character, and so is each byte that
starts no sequence.
-/

namespace PullConsumer.Text.Utf8

/-- The character that stands for bytes that are no text. -/
def replacement : Char := '\ufffd'

/-- What a lead byte announces: how many bytes follow, and the bounds for the first of them. The
bounds exclude overlong forms, surrogates and code points past the last one. -/
def announced (lead : Nat) : Option (Nat × Nat × Nat) :=
  if 0xC2 ≤ lead && lead ≤ 0xDF then some (1, 0x80, 0xBF)
  else if lead = 0xE0 then some (2, 0xA0, 0xBF)
  else if lead = 0xED then some (2, 0x80, 0x9F)
  else if 0xE1 ≤ lead && lead ≤ 0xEF then some (2, 0x80, 0xBF)
  else if lead = 0xF0 then some (3, 0x90, 0xBF)
  else if 0xF1 ≤ lead && lead ≤ 0xF3 then some (3, 0x80, 0xBF)
  else if lead = 0xF4 then some (3, 0x80, 0x8F)
  else none

/-- The bits of the code point that a lead byte carries when `following` bytes come after it. -/
def leadBits (lead following : Nat) : Nat :=
  if following = 1 then lead % 32 else if following = 2 then lead % 16 else lead % 8

/-- Where the reader is in a text: between two characters, or inside one, with the bits so far, the
number of bytes still to come and the bounds for the next one. -/
inductive State where
  | between
  | inside (bits pending low high : Nat)

/-- Starts a character with `b`. -/
def start (b : Nat) : State × List Char :=
  if b < 0x80 then (.between, [Char.ofNat b])
  else match announced b with
    | some (following, low, high) => (.inside (leadBits b following) following low high, [])
    | none => (.between, [replacement])

/-- Reads one byte. A byte that does not continue the character begun gives it up and starts the
next one. -/
def feed (s : State) (b : Nat) : State × List Char :=
  match s with
  | .between => start b
  | .inside bits pending low high =>
    if low ≤ b && b ≤ high then
      let bits := bits * 64 + b % 64
      if pending ≤ 1 then (.between, [Char.ofNat bits])
      else (.inside bits (pending - 1) 0x80 0xBF, [])
    else
      let (next, out) := start b
      (next, replacement :: out)

/-- The characters read from `bytes` in state `s`. -/
def decodeFrom (s : State) : List UInt8 → List Char
  | [] => match s with
    | .between => []
    | .inside .. => [replacement]
  | b :: rest =>
    let (next, out) := feed s b.toNat
    out ++ decodeFrom next rest

/-- The text of a list of bytes. -/
def decode (bytes : List UInt8) : String := String.ofList (decodeFrom .between bytes)

end PullConsumer.Text.Utf8
