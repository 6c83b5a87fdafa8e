import StateDiagram.Text.Printable

/-!
# `Text.Quoted` — texts in messages

A text is told in a message between double quotes, with everything escaped that would be lost on the
reader: quotes, backslashes, and characters that cannot be shown by themselves.

## Contents

* `escapeShown`, `quoted` — a character, a text.
-/

namespace StateDiagram

/-- A character inside quotes. What cannot be shown is told by its code point. -/
def escapeShown (c : Char) : List Char :=
  match c with
  | '\x00' => ['\\', '0']
  | '\t' => ['\\', 't']
  | '\n' => ['\\', 'n']
  | '\r' => ['\\', 'r']
  | '"' => ['\\', '"']
  | '\\' => ['\\', '\\']
  | c => if isPrintable c then [c] else "\\u\x7b".toList ++ Nat.toDigits 16 c.toNat ++ ['\x7d']

/-- A text between double quotes. -/
def quoted (text : String) : String :=
  "\"" ++ String.ofList (text.toList.flatMap escapeShown) ++ "\""

end StateDiagram
