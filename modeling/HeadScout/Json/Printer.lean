import HeadScout.Json.Document

/-!
# Documents as text

A document is written without blanks between its tokens. In strings only the quote, the backslash
and the control characters are escaped, so every other character stands as itself.

## Main definitions

* `Json.escapeChar` — one character of a string
* `Json.Token.chars` — a token as text
* `Json.render` — a document as text

## Main results

* `Json.readLiteral_escaped` — an escaped string is read back
-/

namespace HeadScout.Json

/-- One character of a string: controls are escaped, by a letter where there is one. -/
def escapeChar (c : Char) : List Char :=
  match c with
  | '"' => ['\\', '"']
  | '\\' => ['\\', '\\']
  | '\u0008' => ['\\', 'b']
  | '\u000C' => ['\\', 'f']
  | '\n' => ['\\', 'n']
  | '\r' => ['\\', 'r']
  | '\t' => ['\\', 't']
  | c =>
    if c.toNat < 32 then
      ['\\', 'u', '0', '0', Hexadecimal.digitChar (c.toNat / 16),
        Hexadecimal.digitChar (c.toNat % 16)]
    else [c]

/-- A number as text. -/
def Numeral.chars (n : Numeral) : List Char :=
  (if n.negative then ['-'] else []) ++ n.whole.map Decimal.digitChar ++
    (if n.fraction.isEmpty then [] else '.' :: n.fraction.map Decimal.digitChar) ++
    match n.exponent with
    | none => []
    | some e => 'e' :: (if e < 0 then ['-'] else []) ++ Decimal.chars e.natAbs

/-- A token as text; a string that spells no text is written as one high surrogate. -/
def Token.chars : Token → List Char
  | .openArray => ['[']
  | .closeArray => [']']
  | .openObject => ['\x7b']
  | .closeObject => ['\x7d']
  | .comma => [',']
  | .colon => [':']
  | .string none => ['"', '\\', 'u', 'd', '8', '0', '0', '"']
  | .string (some s) => '"' :: s.toList.flatMap escapeChar ++ ['"']
  | .number n => n.chars
  | .bool true => ['t', 'r', 'u', 'e']
  | .bool false => ['f', 'a', 'l', 's', 'e']
  | .null => ['n', 'u', 'l', 'l']

/-- A document as text, without blanks. -/
def render (v : Json) : String := String.ofList ((tokens v).flatMap Token.chars)

/-! ### Strings are read back -/

/-- The piece that an escaped character is read as. -/
def pieceOf (c : Char) : Piece :=
  if c.toNat < 32 ∧ c ≠ '\u0008' ∧ c ≠ '\u000C' ∧ c ≠ '\n' ∧ c ≠ '\r' ∧ c ≠ '\t' then
    .unit c.toNat
  else .char c

theorem codeUnit?_digitChar {n : Nat} (h : n < 32) :
    codeUnit? '0' '0' (Hexadecimal.digitChar (n / 16)) (Hexadecimal.digitChar (n % 16)) =
      some n := by
  have : ∀ n : Fin 32, codeUnit? '0' '0' (Hexadecimal.digitChar (n.val / 16))
      (Hexadecimal.digitChar (n.val % 16)) = some n.val := by decide
  exact this ⟨n, h⟩

/-- Reading an escaped character gives its piece. -/
theorem readLiteral_escapeChar (c : Char) (rest : List Char) :
    readLiteral (escapeChar c ++ rest) =
      (readLiteral rest).map fun (ps, r) => (pieceOf c :: ps, r) := by
  unfold escapeChar
  split
  iterate 7
    · simp [readLiteral, escaped?, pieceOf]
      rcases readLiteral rest with _ | ⟨ps, r⟩ <;> rfl
  rename_i h₁ h₂ h₃ h₄ h₅ h₆ h₇
  split
  · rename_i h
    have hp : pieceOf c = .unit c.toNat := by
      simp only [pieceOf, h, true_and]
      rw [if_pos ⟨h₃, h₄, h₅, h₆, h₇⟩]
    rw [hp]
    simp only [List.cons_append, List.nil_append, readLiteral, codeUnit?_digitChar h]
    rcases readLiteral rest with _ | ⟨ps, r⟩ <;> rfl
  · rename_i h
    have hp : pieceOf c = .char c := by
      rw [pieceOf, if_neg]
      exact fun hc => h hc.1
    rw [hp]
    simp only [List.cons_append, List.nil_append]
    rw [readLiteral]
    · simp only [h, if_false]
      rcases readLiteral rest with _ | ⟨ps, r⟩ <;> rfl
    all_goals simp_all

/-- An escaped string is read back as its pieces. -/
theorem readLiteral_escaped (s rest : List Char) :
    readLiteral (s.flatMap escapeChar ++ '"' :: rest) = some (s.map pieceOf, rest) := by
  induction s with
  | nil => simp [readLiteral]
  | cons c s ih =>
    rw [List.flatMap_cons, List.append_assoc, readLiteral_escapeChar, ih]
    rfl

/-- The pieces of an escaped string spell the string. -/
theorem spell_map_pieceOf (s : List Char) : spell (s.map pieceOf) = some s := by
  induction s with
  | nil => rfl
  | cons c s ih =>
    rw [List.map_cons]
    by_cases hp : pieceOf c = .char c
    · rw [hp, spell, ih]; rfl
    · have hc : c.toNat < 32 := by
        unfold pieceOf at hp
        split at hp
        · rename_i h; exact h.1
        · exact absurd rfl hp
      have hu : pieceOf c = .unit c.toNat := by
        unfold pieceOf at hp ⊢
        split at hp
        · rename_i h; rw [if_pos h]
        · exact absurd rfl hp
      have hh : isHighSurrogate c.toNat = false := by simp [isHighSurrogate]; omega
      have hl : isLowSurrogate c.toNat = false := by simp [isLowSurrogate]; omega
      rw [hu]
      rcases hs : s.map pieceOf with _ | ⟨p, ps⟩
      · simp only [List.map_eq_nil_iff] at hs
        subst hs
        simp [spell, hh, hl]
      · cases p with
        | char d => rw [hs] at ih; simp [spell, hh, hl] at ih ⊢; exact ih
        | unit m => rw [hs] at ih; simp [spell, hh, hl, ih]

end HeadScout.Json
