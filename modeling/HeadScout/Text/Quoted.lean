import HeadScout.Text.Hexadecimal
import HeadScout.Text.Printable

/-!
# Quoted text in diagnostics

A value taken from outside is shown between double quotes, with every character that would be
misread written as an escape: the quote and the backslash behind a backslash, the four common
controls by a letter, and anything else without a picture of its own by its code point in braces.

## Main definitions

* `Text.escapeChar` — one character as it stands between the quotes
* `Text.quote` — the whole text, quotes included
-/

namespace HeadScout.Text

/-- One character as it stands between the quotes. -/
def escapeChar (c : Char) : List Char :=
  match c with
  | '"' => ['\\', '"']
  | '\\' => ['\\', '\\']
  | '\n' => ['\\', 'n']
  | '\r' => ['\\', 'r']
  | '\t' => ['\\', 't']
  | '\u0000' => ['\\', '0']
  | c =>
    if isPrintable c then [c] else ['\\', 'u', '\x7b'] ++ Hexadecimal.chars c.toNat ++ ['\x7d']

/-- The text between double quotes, with escapes where a character would be misread. -/
def quote (s : String) : String :=
  String.ofList ('"' :: s.toList.flatMap escapeChar ++ ['"'])

example : quote "a\"b\\\n" = "\"a\\\"b\\\\\\n\"" := by decide +kernel
example : quote "o'\u007F" = "\"o'\\u\x7b7f\x7d\"" := by decide +kernel

end HeadScout.Text
