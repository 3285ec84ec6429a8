import PullConsumer.Handler
import PullConsumer.Text.Record

/-!
# Scripted handlers

A handler that does what its message says. The text of the message is a list of commands between
semicolons; a command is a word and, after a colon, its argument. Words that are not known do
nothing.

* `sleep:N` sleeps for `N` milliseconds, `until_cancel` waits until the subscription is cancelled.
* `transient:R`, `fatal:R`, `panic:R` and `panic_any` end the call.
* `if_cancelled:R` fails for the time being if the subscription is cancelled.
* `fail:N:R` fails for the time being as long as the text came at most `N` times.
* `header:NAME` and `ctx` fail for good and tell a header, or what the handler was called with.
-/

namespace PullConsumer.Handler.Script

/-- Cuts a command at its first colon; without a colon the argument is empty. -/
def cut (cs : List Char) : String × List Char :=
  (String.ofList (cs.takeWhile (· ≠ ':')), (cs.dropWhile (· ≠ ':')).drop 1)

/-- Reads a number of at most 64 bits. -/
def number? (cs : List Char) : Option Nat :=
  let digits := match cs with
    | '+' :: rest => rest
    | _ => cs
  if digits.isEmpty || !digits.all Char.isDigit then none
  else
    let n := digits.foldl (fun n c => n * 10 + (c.toNat - '0'.toNat)) 0
    if n < Nat.pow 2 64 then some n else none

/-- An identifier that may be missing, spelled out. -/
def shown (id : Option String) : String := Text.optional (id.map Text.quoted)

/-- Everything a handler was called with, in one line. -/
def describe (c : Call) : String :=
  Text.joined " " [c.consumer, c.message.subject, shown c.trace.traceId,
    shown c.trace.parentSpanId, shown c.trace.correlationId]

/-- What a command does. -/
def act (c : Call) (command : List Char) : List Act :=
  let (word, argument) := cut command
  let text := String.ofList argument
  match word with
  | "sleep" => ((number? argument).map fun n => Act.sleep (Duration.ofMillis n).ticks).toList
  | "until_cancel" => [.awaitCancel]
  | "if_cancelled" => [.endIfCancelled (.failed (.transient text))]
  | "transient" => [.finish (.failed (.transient text))]
  | "fatal" => [.finish (.failed (.fatal text))]
  | "panic" => [.finish (.panicked (.text text))]
  | "panic_any" => [.finish (.panicked .other)]
  | "fail" =>
    let (limit, reason) := cut argument
    match number? limit.toList with
    | some n =>
      if c.count ≤ n then [.finish (.failed (.transient (String.ofList reason)))] else []
    | none => []
  | "header" => [.finish (.failed (.fatal ((c.message.header? text).getD "<none>")))]
  | "ctx" => [.finish (.failed (.fatal (describe c)))]
  | _ => []

/-- The plan that a message spells out. -/
def handler : Handler := fun c =>
  (Text.fields ';' c.message.text.toList).flatMap (act c)

end PullConsumer.Handler.Script
