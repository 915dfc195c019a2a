import HeadScout.Text.Decimal

/-!
# JSON documents

A document is kept as it was written where that decides how it may be read: numbers by their
digits, members in order with repeated names, and a string literal whose escapes spell no Unicode
text as such.

## Main definitions

* `Json.Numeral` — a number by sign, digits and exponent
* `Json` — a document
* `Json.text`, `Json.nat`, `Json.record` — the documents this library writes
* `Numeral.natural?` — the natural number of a numeral written without sign, point and exponent

## Main results

* `Numeral.natural?_ofNat` — a natural number is read back from its numeral
-/

namespace HeadScout

/-- A number as written: sign, digits before the point, digits after it, exponent. -/
structure Json.Numeral where
  /-- Whether a minus sign is written. -/
  negative : Bool := false
  /-- The digits before the point, most significant first. -/
  whole : List Nat
  /-- The digits after the point; none when no point is written. -/
  fraction : List Nat := []
  /-- The exponent of ten, if one is written. -/
  exponent : Option Int := none
  deriving DecidableEq, Repr

/-- A JSON document. A string is `none` when its escapes hold half of a surrogate pair, so that no
Unicode text is spelt. -/
inductive Json where
  /-- The literal `null`. -/
  | null
  /-- The literals `true` and `false`. -/
  | bool (b : Bool)
  | number (n : Json.Numeral)
  | string (s : Option String)
  | array (items : List Json)
  /-- An object, with its members as written. -/
  | object (members : List (Option String × Json))
  deriving Repr

namespace Json

instance : Inhabited Json := ⟨.null⟩

/-! ### Documents from values -/

/-- The string that spells `s`. -/
def text (s : String) : Json := .string (some s)

/-- The numeral of a natural number. -/
def Numeral.ofNat (n : Nat) : Numeral where
  whole := Decimal.digits n

/-- The number `n`. -/
def nat (n : Nat) : Json := .number (.ofNat n)

/-- An object with the given member names. -/
def record (members : List (String × Json)) : Json :=
  .object (members.map fun (name, v) => (some name, v))

/-- A value that may be absent, written as `null` when it is. -/
def orNull {α : Type} (write : α → Json) : Option α → Json
  | none => .null
  | some a => write a

/-! ### Numbers from numerals -/

/-- The natural number of a numeral without sign, point and exponent. -/
def Numeral.natural? (n : Numeral) : Option Nat :=
  if n.negative || !n.fraction.isEmpty || n.exponent.isSome then none
  else some (Decimal.value n.whole)

@[simp] theorem Numeral.natural?_ofNat (n : Nat) : (Numeral.ofNat n).natural? = some n := by
  simp [Numeral.natural?, Numeral.ofNat]

end Json

end HeadScout
