/-!
# Lines

A report may run over several lines, since it can quote what was given from outside. A line ends at
a line feed, and a carriage return right before the line feed belongs to the end of the line; any
other carriage return is a character of the line like any other.

## Main definitions

* `Text.firstLine` — the first line of a text whose last line is ended as well
-/

namespace HeadScout.Text

/-- The characters without a carriage return at their end. -/
def dropReturn (s : List Char) : List Char :=
  if s.getLast? = some '\r' then s.dropLast else s

/-- The first line of a text that is written with a line feed behind it. -/
def firstLine (s : String) : String :=
  String.ofList (dropReturn (s.toList.takeWhile (· != '\n')))

example : firstLine "a\r\nb" = "a" := by decide +kernel
example : firstLine "a\rb\nc" = "a\rb" := by decide +kernel
example : firstLine "a\r\r" = "a\r" := by decide +kernel

end HeadScout.Text
