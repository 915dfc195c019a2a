/-!
# Hexadecimal digits

Digits are written small and read in either case.

## Main definitions

* `Hexadecimal.digitChar`, `Hexadecimal.digit?` — one digit
* `Hexadecimal.chars` — a number, with as few digits as it has

## Main results

* `Hexadecimal.digit?_digitChar` — a digit is read back
-/

namespace HeadScout.Hexadecimal

/-- The character of a digit below sixteen. -/
def digitChar (d : Nat) : Char :=
  if d < 10 then Char.ofNat (48 + d) else Char.ofNat (87 + d)

/-- The digit that a hexadecimal character of either case stands for. -/
def digit? (c : Char) : Option Nat :=
  let n := c.toNat
  if 48 ≤ n ∧ n ≤ 57 then some (n - 48)
  else if 65 ≤ n ∧ n ≤ 70 then some (n - 55)
  else if 97 ≤ n ∧ n ≤ 102 then some (n - 87)
  else none

theorem digit?_digitChar {d : Nat} (h : d < 16) : digit? (digitChar d) = some d := by
  have : ∀ d : Fin 16, digit? (digitChar d.val) = some d.val := by decide
  exact this ⟨d, h⟩

/-- A number in hexadecimal, most significant digit first. -/
def chars (n : Nat) : List Char :=
  if n < 16 then [digitChar n] else chars (n / 16) ++ [digitChar (n % 16)]
termination_by n
decreasing_by omega

end HeadScout.Hexadecimal
