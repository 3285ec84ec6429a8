import PullConsumer.Text.Shown

/-!
# Quoted text

A text between quotation marks in which quotation marks, backslashes and every character that is
not shown are written as escapes. Four control characters have a letter of their own; all others
are written as their code point in hexadecimal between braces.

An escape is opened by a backslash, which never stands for itself, so what was quoted can be read
back.
-/

namespace PullConsumer.Text

/-- The code point of a character in lower-case hexadecimal, as in `\u{1f600}`. -/
def codePointEscape (c : Char) : List Char :=
  '\\' :: 'u' :: '\x7b' :: (Nat.toDigits 16 c.toNat ++ ['\x7d'])

/-- How one character is written inside quotation marks. -/
def escape (c : Char) : List Char :=
  if c = '"' then ['\\', '"']
  else if c = '\\' then ['\\', '\\']
  else if c = '\x00' then ['\\', '0']
  else if c = '\t' then ['\\', 't']
  else if c = '\n' then ['\\', 'n']
  else if c = '\r' then ['\\', 'r']
  else if isShown c then [c]
  else codePointEscape c

/-- A text in quotation marks. -/
def quoted (s : String) : String :=
  String.ofList ('"' :: (s.toList.flatMap escape ++ ['"']))

end PullConsumer.Text
