import HeadScout.Json.Document

/-!
# Values that can be kept

A value that is skipped may be anything the grammar allows. A value that is kept as it stands must
fit into memory's terms: its strings spell text, its numbers fit a binary floating-point number of
64 bits, and its brackets do not nest too deep.

## Main definitions

* `Numeral.scaled` — a number as a significand of at most 64 bits and an exponent of ten
* `roundBinary` — the nearest number with so many significant bits
* `Numeral.isFinite` — the number does not exceed the largest floating-point number
* `Json.isStorable` — the document can be kept, given how many brackets stand around it
-/

namespace HeadScout.Json

/-! ### The range of numbers -/

/-- Digits appended to a significand as long as it stays below two to the 64th, and the digits left
over. -/
def gather (significand : Nat) : List Nat → Nat × List Nat
  | [] => (significand, [])
  | d :: ds =>
    if 10 * significand + d < Nat.pow 2 64 then gather (10 * significand + d) ds
    else (significand, d :: ds)

/-- A number without its sign as a significand and an exponent of ten; digits beyond the
significand's 64 bits are cut off. -/
def Numeral.scaled (n : Numeral) : Nat × Int :=
  let (whole, left) := gather 0 n.whole
  let (significand, left') := gather whole n.fraction
  (significand, left.length - (n.fraction.length - left'.length : Nat) + n.exponent.getD 0)

/-- The nearest number with at most `bits` significant binary digits; a tie goes to the even one. -/
def roundBinary (bits n : Nat) : Nat :=
  if n < Nat.pow 2 bits then n
  else
    let unit := Nat.pow 2 (n.log2 + 1 - bits)
    let q := n / unit
    let r := n % unit
    -- A quotient that is rounded up to one bit more is a power of two, and needs no further cut.
    if 2 * r < unit ∨ (2 * r = unit ∧ q % 2 = 0) then q * unit else (q + 1) * unit

/-- The least number that is rounded past the largest finite one. -/
def overflowBound : Nat := Nat.pow 2 1024 - Nat.pow 2 970

/-- Whether the significand times the power of ten, both rounded to 53 bits first, stays finite. No
negative power of ten leaves the range. -/
def Numeral.isFinite (n : Numeral) : Bool :=
  let (significand, exponent) := n.scaled
  -- A significand of 64 bits divided by a power of ten is far from the largest number.
  significand == 0 || exponent < 0 ||
    (exponent ≤ 308 &&
      roundBinary 53 significand * roundBinary 53 (Nat.pow 10 exponent.toNat) < overflowBound)

/-! ### Documents -/

/-- The number of brackets that must not be reached by nesting. -/
def nestingLimit : Nat := 128

mutual

/-- Whether the document can be kept where `depth` brackets stand around it. -/
def isStorable (depth : Nat) : Json → Bool
  | .null => true
  | .bool _ => true
  | .number n => n.isFinite
  | .string s => s.isSome
  | .array items => depth + 1 < nestingLimit && areStorable (depth + 1) items
  | .object members => depth + 1 < nestingLimit && membersStorable (depth + 1) members

/-- Whether every item can be kept. -/
def areStorable (depth : Nat) : List Json → Bool
  | [] => true
  | v :: vs => isStorable depth v && areStorable depth vs

/-- Whether every member can be kept, its name included. -/
def membersStorable (depth : Nat) : List (Option String × Json) → Bool
  | [] => true
  | (name, v) :: ms => name.isSome && isStorable depth v && membersStorable depth ms

end

theorem areStorable_eq_all (depth : Nat) (vs : List Json) :
    areStorable depth vs = vs.all (isStorable depth) := by
  induction vs with
  | nil => rfl
  | cons v vs ih => rw [areStorable, ih, List.all_cons]

theorem membersStorable_eq_all (depth : Nat) (ms : List (Option String × Json)) :
    membersStorable depth ms = ms.all fun m => m.1.isSome && isStorable depth m.2 := by
  induction ms with
  | nil => rfl
  | cons m ms ih => obtain ⟨name, v⟩ := m; rw [membersStorable, ih, List.all_cons]

end HeadScout.Json
