import HeadScout.Text.Decimal

/-!
# Numerals

Which runs of digits are read, and as what. A numeral may begin with zeros and be of any length; its
number is the one the library reads from its digits. A bound cuts off what is too great instead of
wrapping around.

## Main definitions

* `Decimal.Denotes` — a numeral and its number

## Main results

* `Decimal.read?_eq_some_iff` — every numeral is read as its number, and nothing else is read
* `Decimal.readUnsigned?_eq_some_iff` — the same with an optional plus sign, below the bound
* `Decimal.denotes_repr_iff` — a number is denoted by its decimal form
-/

namespace HeadScout.Decimal

/-- One or more ASCII digits that stand for the number. -/
def Denotes (digits : String) (n : Nat) : Prop :=
  digits ≠ "" ∧ (∀ c ∈ digits.toList, c.isDigit = true) ∧
    Nat.ofDigitChars 10 digits.toList 0 = n

instance (digits : String) (n : Nat) : Decidable (Denotes digits n) :=
  decidable_of_iff (digits ≠ "" ∧ digits.toList.all Char.isDigit = true ∧
    Nat.ofDigitChars 10 digits.toList 0 = n) (by rw [Denotes, List.all_eq_true])

/-! ### Reading digit by digit -/

theorem value_digitValues (s : List Char) :
    value (s.map fun c => c.toNat - '0'.toNat) = Nat.ofDigitChars 10 s 0 := by
  rw [value, List.foldl_map, Nat.ofDigitChars]

theorem isDigit_iff {c : Char} : c.isDigit = true ↔ 48 ≤ c.toNat ∧ c.toNat ≤ 57 := by
  rw [Char.isDigit, Bool.and_eq_true, decide_eq_true_eq, decide_eq_true_eq]
  rfl

theorem digit?_eq_some_iff {c : Char} {d : Nat} :
    digit? c = some d ↔ c.isDigit = true ∧ c.toNat - '0'.toNat = d := by
  rw [digit?, Option.ite_none_right_eq_some, Option.some.injEq, isDigit_iff]
  rfl

theorem mapM_digit?_eq_some_iff {s : List Char} {ds : List Nat} :
    s.mapM digit? = some ds ↔
      (∀ c ∈ s, c.isDigit = true) ∧ s.map (fun c => c.toNat - '0'.toNat) = ds := by
  induction s generalizing ds with
  | nil => exact ⟨fun h => ⟨nofun, Option.some.inj h⟩, fun ⟨_, h⟩ => congrArg some h⟩
  | cons c s ih =>
    simp only [List.mapM_cons, Option.bind_eq_bind, Option.bind_eq_some_iff, digit?_eq_some_iff, ih,
      Option.pure_def, Option.some.injEq, List.forall_mem_cons, List.map_cons]
    constructor
    · rintro ⟨_, ⟨hc, rfl⟩, _, ⟨hs, rfl⟩, rfl⟩
      exact ⟨⟨hc, hs⟩, rfl⟩
    · rintro ⟨⟨hc, hs⟩, rfl⟩
      exact ⟨_, ⟨hc, rfl⟩, _, ⟨hs, rfl⟩, rfl⟩

/-- Every numeral is read as its number, and nothing else is read. -/
theorem read?_eq_some_iff {s : List Char} {n : Nat} :
    read? s = some n ↔ Denotes (String.ofList s) n := by
  rw [read?, Denotes, String.toList_ofList]
  cases s with
  | nil => simp
  | cons c s =>
    have hne : String.ofList (c :: s) ≠ "" := by simp
    simp only [List.isEmpty_cons, Bool.false_eq_true, if_false, Option.map_eq_some_iff,
      mapM_digit?_eq_some_iff]
    constructor
    · rintro ⟨_, ⟨hdigits, rfl⟩, rfl⟩
      exact ⟨hne, hdigits, (value_digitValues _).symm⟩
    · rintro ⟨-, hdigits, rfl⟩
      exact ⟨_, ⟨hdigits, rfl⟩, value_digitValues _⟩

/-! ### Signs and bounds -/

theorem not_denotes_of_mem {digits : String} {n : Nat} {c : Char} (hmem : c ∈ digits.toList)
    (hc : c.isDigit = false) : ¬ Denotes digits n := fun h =>
  Bool.eq_false_iff.mp hc (h.2.1 c hmem)

/-- What is read is a numeral below the bound, with or without a plus sign. -/
theorem readUnsigned?_eq_some_iff {bound : Nat} {s : String} {n : Nat} :
    readUnsigned? bound s = some n ↔
      n < bound ∧ ∃ sign digits, s = sign ++ digits ∧ (sign = "" ∨ sign = "+") ∧
        Denotes digits n := by
  unfold readUnsigned?
  simp only [Option.filter_eq_some_iff, read?_eq_some_iff, decide_eq_true_eq]
  rw [and_comm, and_congr_right_iff]
  rintro -
  split
  · rename_i r hr
    have hs : s = "+" ++ String.ofList r := by
      rw [← String.toList_inj]
      simp [hr]
    constructor
    · exact fun h => ⟨"+", String.ofList r, hs, .inr rfl, h⟩
    · rintro ⟨sign, digits, rfl, rfl | rfl, h⟩
      · -- Without a sign the plus would be one of the digits.
        refine absurd h (not_denotes_of_mem (c := '+') ?_ (by decide))
        rw [← String.empty_append (s := digits), hr]
        exact List.mem_cons_self
      · rw [String.append_right_inj] at hs
        rw [← hs]
        exact h
  · rename_i hplus
    rw [String.ofList_toList]
    constructor
    · exact fun h => ⟨"", s, String.empty_append.symm, .inl rfl, h⟩
    · rintro ⟨sign, digits, rfl, rfl | rfl, h⟩
      · rw [String.empty_append]
        exact h
      · exact absurd (String.toList_append (s := "+") (t := digits)) (hplus digits.toList)

/-! ### The decimal form -/

theorem denotes_repr (n : Nat) : Denotes (Nat.repr n) n := by
  have hchars : (Nat.repr n).toList = Nat.toDigits 10 n := String.toList_ofList
  rw [Denotes, hchars]
  exact ⟨Nat.repr_ne_empty, fun _ => Nat.isDigit_of_mem_toDigits (by decide) (by decide),
    Nat.ofDigitChars_ten_toDigits⟩

/-- A number is denoted by its decimal form. -/
theorem denotes_repr_iff {m n : Nat} : Denotes (Nat.repr n) m ↔ m = n := by
  constructor
  · intro h
    exact h.2.2.symm.trans (denotes_repr n).2.2
  · rintro rfl
    exact denotes_repr m

end HeadScout.Decimal
