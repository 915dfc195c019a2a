/-!
# Natural numbers in decimal

A number is written with as few digits as it has, most significant first, and read digit by digit.

## Main definitions

* `Decimal.digits`, `Decimal.value` — the digits of a number and the number of its digits
* `Decimal.render` — the number as text
* `Decimal.read?` — the number a non-empty run of ASCII digits stands for
* `Decimal.readUnsigned?`, `Decimal.readSigned?` — an optional sign before the digits, and a range

## Main results

* `Decimal.value_digits` — writing and reading gives the number back
* `Decimal.eq_of_render_eq` — no two numbers are written alike
-/

namespace HeadScout.Decimal

/-- The decimal digits of `n`, most significant first; zero has the one digit zero. -/
def digits (n : Nat) : List Nat :=
  if n < 10 then [n] else digits (n / 10) ++ [n % 10]
termination_by n
decreasing_by omega

/-- The number that a list of digits stands for, most significant first. -/
def value (ds : List Nat) : Nat := ds.foldl (fun n d => 10 * n + d) 0

theorem value_append_singleton (ds : List Nat) (d : Nat) :
    value (ds ++ [d]) = 10 * value ds + d := by
  simp [value]

@[simp] theorem value_digits (n : Nat) : value (digits n) = n := by
  induction n using digits.induct with
  | case1 n h => rw [digits, if_pos h]; simp [value]
  | case2 n h ih => rw [digits, if_neg h, value_append_singleton, ih]; omega

theorem lt_ten_of_mem_digits {n d : Nat} (h : d ∈ digits n) : d < 10 := by
  induction n using digits.induct with
  | case1 n hn => rw [digits, if_pos hn] at h; simp at h; omega
  | case2 n hn ih =>
    rw [digits, if_neg hn, List.mem_append, List.mem_singleton] at h
    rcases h with h | rfl
    · exact ih h
    · omega

theorem digits_ne_nil (n : Nat) : digits n ≠ [] := by
  rw [digits]; split <;> simp

/-- Only zero begins with the digit zero. -/
theorem head?_digits_ne_zero {n : Nat} (h : 0 < n) : (digits n).head? ≠ some 0 := by
  induction n using digits.induct with
  | case1 n hn => rw [digits, if_pos hn]; simp; omega
  | case2 n hn ih =>
    rw [digits, if_neg hn, List.head?_append]
    have hq := ih (by omega)
    rcases hd : digits (n / 10) with _ | ⟨d, ds⟩
    · exact absurd hd (digits_ne_nil _)
    · simpa [hd] using hq

/-! ### Digit characters -/

/-- The character of a digit below ten. -/
def digitChar (d : Nat) : Char := Char.ofNat (48 + d)

/-- The digit that an ASCII digit character stands for. -/
def digit? (c : Char) : Option Nat :=
  if 48 ≤ c.toNat ∧ c.toNat ≤ 57 then some (c.toNat - 48) else none

@[simp] theorem digit?_digitChar {d : Nat} (h : d < 10) : digit? (digitChar d) = some d := by
  have : d = 0 ∨ d = 1 ∨ d = 2 ∨ d = 3 ∨ d = 4 ∨ d = 5 ∨ d = 6 ∨ d = 7 ∨ d = 8 ∨ d = 9 := by omega
  rcases this with rfl | rfl | rfl | rfl | rfl | rfl | rfl | rfl | rfl | rfl <;> decide

theorem lt_ten_of_digit? {c : Char} {d : Nat} (h : digit? c = some d) : d < 10 := by
  unfold digit? at h
  split at h <;> simp at h
  omega

theorem mapM_digit?_map_digitChar {ds : List Nat} (h : ∀ d ∈ ds, d < 10) :
    (ds.map digitChar).mapM digit? = some ds := by
  induction ds with
  | nil => rfl
  | cons d ds ih =>
    rw [List.map_cons, List.mapM_cons, digit?_digitChar (h d (by simp)),
      ih fun e he => h e (by simp [he])]
    rfl

/-- The characters of a number. -/
def chars (n : Nat) : List Char := (digits n).map digitChar

/-- A number as text. -/
def render (n : Nat) : String := String.ofList (chars n)

/-- The number that a run of one or more ASCII digits stands for; leading zeros are allowed. -/
def read? (s : List Char) : Option Nat :=
  if s.isEmpty then none else (s.mapM digit?).map value

@[simp] theorem read?_chars (n : Nat) : read? (chars n) = some n := by
  have h : (chars n).isEmpty = false := by
    simp [chars, digits_ne_nil]
  rw [read?, h, chars, mapM_digit?_map_digitChar fun d hd => lt_ten_of_mem_digits hd]
  simp

/-- No two numbers are written alike. -/
theorem eq_of_render_eq {m n : Nat} (h : render m = render n) : m = n := by
  have hchars : chars m = chars n := by
    rw [render, render, String.ofList_inj] at h
    exact h
  have hread := congrArg read? hchars
  rw [read?_chars, read?_chars] at hread
  exact Option.some.inj hread

/-- A natural number below `bound`, with an optional plus sign. -/
def readUnsigned? (bound : Nat) (s : String) : Option Nat :=
  let digits := match s.toList with
    | '+' :: r => r
    | r => r
  (read? digits).filter (· < bound)

/-- An integer from `low` to `high`, with an optional sign. -/
def readSigned? (low high : Int) (s : String) : Option Int :=
  let n := match s.toList with
    | '-' :: r => (read? r).map fun n => -(n : Int)
    | '+' :: r => (read? r).map fun n => (n : Int)
    | r => (read? r).map fun n => (n : Int)
  n.filter fun n => low ≤ n ∧ n ≤ high

end HeadScout.Decimal
