import HeadScout.Json.Basic
import HeadScout.Text.Hexadecimal

/-!
# Tokens of a JSON text

A text is cut into brackets, separators, string literals and other scalars; blanks between tokens
are space, tab, line feed and carriage return. A string literal is kept as the characters and code
units it spells, so that half a surrogate pair is told apart from a syntax error.

## Main definitions

* `Json.Token` — a token
* `Json.readLiteral` — a string literal, from behind its opening quote
* `Json.readNumeral` — the digits of a number, from behind its sign
* `Json.lex` — the tokens of a text, if it consists of tokens

## Main results

* `Json.readToken_length_le` — a token leaves no more text than there was, so `lex` ends
-/

namespace HeadScout.Json

/-- A token of a JSON text. -/
inductive Token where
  /-- `[` -/
  | openArray
  /-- `]` -/
  | closeArray
  /-- The brace that begins an object. -/
  | openObject
  /-- The brace that ends an object. -/
  | closeObject
  /-- `,` -/
  | comma
  /-- `:` -/
  | colon
  /-- A string literal; `none` when it spells no Unicode text. -/
  | string (s : Option String)
  | number (n : Numeral)
  /-- `true` or `false` -/
  | bool (b : Bool)
  /-- `null` -/
  | null
  deriving DecidableEq, Repr

/-! ### String literals -/

/-- What a string literal spells: a character, or a sixteen-bit code unit. -/
inductive Piece where
  /-- A character written as itself or by a short escape. -/
  | char (c : Char)
  /-- A code unit written by its number. -/
  | unit (n : Nat)
  deriving DecidableEq, Repr

/-- The character of a short escape. -/
def escaped? (c : Char) : Option Char :=
  match c with
  | '"' => some '"'
  | '\\' => some '\\'
  | '/' => some '/'
  | 'b' => some '\u0008'
  | 'f' => some '\u000C'
  | 'n' => some '\n'
  | 'r' => some '\r'
  | 't' => some '\t'
  | _ => none

/-- The code unit that four hexadecimal digits stand for. -/
def codeUnit? (a b c d : Char) : Option Nat := do
  let a ← Hexadecimal.digit? a
  let b ← Hexadecimal.digit? b
  let c ← Hexadecimal.digit? c
  let d ← Hexadecimal.digit? d
  return ((a * 16 + b) * 16 + c) * 16 + d

/-- The pieces of a string literal and the text behind its closing quote. A control character must
be escaped. -/
def readLiteral : List Char → Option (List Piece × List Char)
  | [] => none
  | '"' :: r => some ([], r)
  -- Four digits behind `u` are read before the short escapes, which have no `u` among them.
  | '\\' :: 'u' :: a :: b :: c :: d :: r => do
    let n ← codeUnit? a b c d
    let (ps, rest) ← readLiteral r
    return (.unit n :: ps, rest)
  | '\\' :: e :: r => do
    let c ← escaped? e
    let (ps, rest) ← readLiteral r
    return (.char c :: ps, rest)
  | c :: r =>
    if c.toNat < 32 then none else do
      let (ps, rest) ← readLiteral r
      return (.char c :: ps, rest)

/-- Whether the code unit begins a surrogate pair. -/
def isHighSurrogate (n : Nat) : Bool := 0xD800 ≤ n && n < 0xDC00

/-- Whether the code unit ends a surrogate pair. -/
def isLowSurrogate (n : Nat) : Bool := 0xDC00 ≤ n && n < 0xE000

/-- The characters that the pieces spell, unless a surrogate stands without its partner. -/
def spell : List Piece → Option (List Char)
  | [] => some []
  | .char c :: r => (spell r).map (c :: ·)
  -- A high surrogate needs a low one right behind it, and a low one a high one before it.
  | .unit n :: .unit m :: r =>
    if isHighSurrogate n then
      if isLowSurrogate m then
        (spell r).map (Char.ofNat (0x10000 + (n - 0xD800) * 1024 + (m - 0xDC00)) :: ·)
      else none
    else if isLowSurrogate n then none
    else (spell (.unit m :: r)).map (Char.ofNat n :: ·)
  | .unit n :: r =>
    if isHighSurrogate n || isLowSurrogate n then none
    else (spell r).map (Char.ofNat n :: ·)

/-! ### Numbers -/

/-- The leading digits of a text and what follows them. -/
def spanDigits : List Char → List Nat × List Char
  | [] => ([], [])
  | c :: r =>
    match Decimal.digit? c with
    | some d => let (ds, rest) := spanDigits r; (d :: ds, rest)
    | none => ([], c :: r)

/-- The digits behind a point, at least one; no digits where no point stands. -/
def readFraction : List Char → Option (List Nat × List Char)
  | '.' :: r =>
    match spanDigits r with
    | ([], _) => none
    | (ds, rest) => some (ds, rest)
  | s => some ([], s)

/-- The digits of an exponent, at least one, with the sign read before them. -/
def readExponentDigits (negative : Bool) (s : List Char) : Option (Option Int × List Char) :=
  match spanDigits s with
  | ([], _) => none
  | (ds, rest) =>
    let n : Int := Decimal.value ds
    some (some (if negative then -n else n), rest)

/-- The exponent behind `e` or `E`, if one stands there. -/
def readExponent : List Char → Option (Option Int × List Char)
  | 'e' :: r | 'E' :: r =>
    match r with
    | '+' :: r' => readExponentDigits false r'
    | '-' :: r' => readExponentDigits true r'
    | _ => readExponentDigits false r
  | s => some (none, s)

/-- The digits before a point: at least one, and zero only on its own. -/
def readWhole (s : List Char) : Option (List Nat × List Char) :=
  match spanDigits s with
  | ([], _) => none
  -- No digit may follow a leading zero.
  | (0 :: _ :: _, _) => none
  | (ds, rest) => some (ds, rest)

/-- A number from behind its sign: digits without a leading zero, a fraction, an exponent. -/
def readNumeral (negative : Bool) (s : List Char) : Option (Numeral × List Char) := do
  let (whole, rest) ← readWhole s
  let (fraction, rest) ← readFraction rest
  let (exponent, rest) ← readExponent rest
  return (⟨negative, whole, fraction, exponent⟩, rest)

/-! ### Tokens -/

/-- The token that begins with the character `c`, and the text behind it. -/
def readToken (c : Char) (s : List Char) : Option (Token × List Char) :=
  match c with
  | '[' => some (.openArray, s)
  | ']' => some (.closeArray, s)
  | '\x7b' => some (.openObject, s)
  | '\x7d' => some (.closeObject, s)
  | ',' => some (.comma, s)
  | ':' => some (.colon, s)
  | '"' => (readLiteral s).map fun (ps, rest) => (.string ((spell ps).map String.ofList), rest)
  | '-' => (readNumeral true s).map fun (n, rest) => (.number n, rest)
  | 't' => match s with
    | 'r' :: 'u' :: 'e' :: rest => some (.bool true, rest)
    | _ => none
  | 'f' => match s with
    | 'a' :: 'l' :: 's' :: 'e' :: rest => some (.bool false, rest)
    | _ => none
  | 'n' => match s with
    | 'u' :: 'l' :: 'l' :: rest => some (.null, rest)
    | _ => none
  | c => (readNumeral false (c :: s)).map fun (n, rest) => (.number n, rest)

theorem readLiteral_length_le {s rest : List Char} {ps : List Piece}
    (h : readLiteral s = some (ps, rest)) : rest.length ≤ s.length := by
  fun_induction readLiteral s generalizing ps with
  | case1 => simp at h
  | case2 r => simp at h; simp [h.2]
  | case3 a b c d r ih =>
    simp only [bind, Option.bind_eq_some_iff, pure, Option.some.injEq, Prod.exists,
      Prod.mk.injEq] at h
    obtain ⟨_, _, _, _, hr, _, rfl⟩ := h
    have := ih hr
    simp only [List.length_cons]; omega
  | case4 e r _ ih =>
    simp only [bind, Option.bind_eq_some_iff, pure, Option.some.injEq, Prod.exists,
      Prod.mk.injEq] at h
    obtain ⟨_, _, _, _, hr, _, rfl⟩ := h
    have := ih hr
    simp only [List.length_cons]; omega
  | case5 => simp at h
  | case6 c r _ _ _ _ ih =>
    simp only [bind, Option.bind_eq_some_iff, pure, Option.some.injEq, Prod.exists,
      Prod.mk.injEq] at h
    obtain ⟨_, _, hr, _, rfl⟩ := h
    have := ih hr
    simp only [List.length_cons]; omega

theorem spanDigits_length (s : List Char) :
    (spanDigits s).1.length + (spanDigits s).2.length = s.length := by
  induction s with
  | nil => rfl
  | cons c r ih =>
    unfold spanDigits
    split
    · simp only [List.length_cons]; omega
    · simp

theorem readWhole_length_lt {s rest : List Char} {ds : List Nat}
    (h : readWhole s = some (ds, rest)) : rest.length < s.length := by
  unfold readWhole at h
  have := spanDigits_length s
  split at h
  · simp at h
  · simp at h
  · rename_i ds' _ _ _ heq
    cases ds' with
    | nil => simp_all
    | cons d ds' =>
      simp only [Option.some.injEq, Prod.mk.injEq] at h
      obtain ⟨_, rfl⟩ := h
      rw [heq] at this
      simp at this; omega

theorem readFraction_length_le {s rest : List Char} {ds : List Nat}
    (h : readFraction s = some (ds, rest)) : rest.length ≤ s.length := by
  unfold readFraction at h
  split at h
  · rename_i r
    have := spanDigits_length r
    split at h
    · simp at h
    · simp only [Option.some.injEq, Prod.mk.injEq] at h
      rename_i heq
      rw [heq] at this
      obtain ⟨rfl, rfl⟩ := h
      simp only [List.length_cons]; simp at this; omega
  · simp at h; simp [h.2]

theorem readExponentDigits_length_le {negative : Bool} {s rest : List Char} {e : Option Int}
    (h : readExponentDigits negative s = some (e, rest)) : rest.length ≤ s.length := by
  unfold readExponentDigits at h
  have := spanDigits_length s
  split at h
  · simp at h
  · simp only [Option.some.injEq, Prod.mk.injEq] at h
    rename_i heq
    rw [heq] at this
    obtain ⟨_, rfl⟩ := h
    simp at this; omega

theorem readExponent_length_le {s rest : List Char} {e : Option Int}
    (h : readExponent s = some (e, rest)) : rest.length ≤ s.length := by
  unfold readExponent at h
  split at h
  · split at h
    all_goals
      have := readExponentDigits_length_le h
      simp only [List.length_cons]
      try simp only [List.length_cons] at this
      omega
  · split at h
    all_goals
      have := readExponentDigits_length_le h
      simp only [List.length_cons]
      try simp only [List.length_cons] at this
      omega
  · simp at h; simp [h.2]

/-- A number takes at least one character. -/
theorem readNumeral_length_lt {negative : Bool} {s rest : List Char} {n : Numeral}
    (h : readNumeral negative s = some (n, rest)) : rest.length < s.length := by
  unfold readNumeral at h
  simp only [bind, Option.bind_eq_some_iff, pure, Option.some.injEq, Prod.exists,
    Prod.mk.injEq] at h
  obtain ⟨_, _, h₁, _, _, h₂, _, _, h₃, _, rfl⟩ := h
  have := readWhole_length_lt h₁
  have := readFraction_length_le h₂
  have := readExponent_length_le h₃
  omega

/-- A token leaves no more text than stood behind its first character. -/
theorem readToken_length_le {c : Char} {s rest : List Char} {t : Token}
    (h : readToken c s = some (t, rest)) : rest.length ≤ s.length := by
  unfold readToken at h
  split at h
  -- Brackets and separators take nothing but their character.
  all_goals try (simp at h; obtain ⟨_, rfl⟩ := h; exact Nat.le_refl _)
  · simp only [Option.map_eq_some_iff, Prod.exists, Prod.mk.injEq] at h
    obtain ⟨_, _, hr, _, rfl⟩ := h
    exact readLiteral_length_le hr
  · simp only [Option.map_eq_some_iff, Prod.exists, Prod.mk.injEq] at h
    obtain ⟨_, _, hr, _, rfl⟩ := h
    exact Nat.le_of_lt (readNumeral_length_lt hr)
  · split at h <;> simp at h
    obtain ⟨_, rfl⟩ := h
    simp only [List.length_cons]; omega
  · split at h <;> simp at h
    obtain ⟨_, rfl⟩ := h
    simp only [List.length_cons]; omega
  · split at h <;> simp at h
    obtain ⟨_, rfl⟩ := h
    simp only [List.length_cons]; omega
  · simp only [Option.map_eq_some_iff, Prod.exists, Prod.mk.injEq] at h
    obtain ⟨_, _, hr, _, rfl⟩ := h
    have := readNumeral_length_lt hr
    simp only [List.length_cons] at this; omega

/-- The blanks that may stand between tokens. -/
def isSpace (c : Char) : Bool := c == ' ' || c == '\n' || c == '\r' || c == '\t'

/-- The tokens of a text, if it consists of tokens and blanks. -/
def lex : List Char → Option (List Token)
  | [] => some []
  | c :: s =>
    if isSpace c then lex s
    else
      match _h : readToken c s with
      | none => none
      | some (t, rest) => (lex rest).map (t :: ·)
termination_by s => s.length
decreasing_by
  · simp
  · have := readToken_length_le _h
    simp only [List.length_cons]; omega

end HeadScout.Json
