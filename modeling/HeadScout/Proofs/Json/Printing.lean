import HeadScout.Json.Printer
import HeadScout.Proofs.Json.Storable
import Mathlib.Tactic.IntervalCases

/-!
# Printed documents are read back

A printed document is cut into the tokens it was printed from. Brackets, separators, strings and the
three literals end where they end, whatever follows them. A number takes every digit, point or
exponent that follows, so it is told apart only by what stands behind it. In a document that is a
comma, a closing bracket or the end of the text.

## Main definitions

* `Json.Numeral.IsWritten` — a number in the form in which numbers are written
* `Json.HasWrittenNumbers` — a document of such numbers
* `Json.Ends` — a text before which a number ends
* `Json.Legible` — tokens that are read back from their text

## Main results

* `Json.readNumeral_chars` — a printed number is read back
* `Json.legible_tokens` — so are the tokens of a document
* `Json.parse?_render` — so is the document
-/

namespace HeadScout.Json

/-! ### Numbers -/

/-- There are digits before the point, the first of which is zero only if it is the only one. -/
structure Numeral.IsWritten (n : Numeral) : Prop where
  whole_ne_nil : n.whole ≠ []
  whole_lt : ∀ d ∈ n.whole, d < 10
  tail_eq_nil : n.whole.head? = some 0 → n.whole.tail = []
  fraction_lt : ∀ d ∈ n.fraction, d < 10

/-- All numbers of the document are in the form in which numbers are written. -/
def HasWrittenNumbers (v : Json) : Prop := ∀ n, Atom.numeral n ∈ v.atoms → n.IsWritten

/-- The text neither continues a number nor begins its fraction or exponent. -/
def Ends (rest : List Char) : Prop :=
  ∀ c r, rest = c :: r → Decimal.digit? c = none ∧ c ≠ '.' ∧ c ≠ 'e' ∧ c ≠ 'E'

theorem ends_nil : Ends [] := by
  rintro _ _ ⟨⟩

theorem Ends.cons {c : Char} (hdigit : Decimal.digit? c = none) (hpoint : c ≠ '.') (he : c ≠ 'e')
    (hE : c ≠ 'E') (r : List Char) : Ends (c :: r) := by
  rintro _ _ ⟨⟩
  exact ⟨hdigit, hpoint, he, hE⟩

/-- The text does not begin with a digit. -/
def NoDigit (rest : List Char) : Prop := ∀ c r, rest = c :: r → Decimal.digit? c = none

theorem Ends.noDigit {rest : List Char} (h : Ends rest) : NoDigit rest :=
  fun c r hrest => (h c r hrest).1

theorem spanDigits_of_noDigit {rest : List Char} (h : NoDigit rest) :
    spanDigits rest = ([], rest) := by
  cases rest with
  | nil => rfl
  | cons c r => rw [spanDigits, h c r rfl]

/-- Digits are read up to where they end. -/
theorem spanDigits_append {ds : List Nat} {rest : List Char} (hds : ∀ d ∈ ds, d < 10)
    (hrest : NoDigit rest) : spanDigits (ds.map Decimal.digitChar ++ rest) = (ds, rest) := by
  induction ds with
  | nil => exact spanDigits_of_noDigit hrest
  | cons d ds ih =>
    rw [List.map_cons, List.cons_append, spanDigits,
      Decimal.digit?_digitChar (hds d List.mem_cons_self),
      ih fun e he => hds e (List.mem_cons_of_mem d he)]

theorem readWhole_append {ds : List Nat} {rest : List Char} (hne : ds ≠ [])
    (hds : ∀ d ∈ ds, d < 10) (hzero : ds.head? = some 0 → ds.tail = []) (hrest : NoDigit rest) :
    readWhole (ds.map Decimal.digitChar ++ rest) = some (ds, rest) := by
  rw [readWhole, spanDigits_append hds hrest]
  match ds with
  | [] => exact absurd rfl hne
  | [d] => cases d <;> rfl
  | 0 :: e :: es => cases hzero rfl
  | (d + 1) :: e :: es => rfl

/-- The fraction of a number as it is written. -/
def fractionChars (ds : List Nat) : List Char :=
  if ds.isEmpty then [] else '.' :: ds.map Decimal.digitChar

/-- The exponent of a number as it is written. -/
def exponentChars : Option Int → List Char
  | none => []
  | some e => 'e' :: (if e < 0 then ['-'] else []) ++ Decimal.chars e.natAbs

theorem readFraction_append {ds : List Nat} {rest : List Char} (hds : ∀ d ∈ ds, d < 10)
    (hrest : NoDigit rest) (hpoint : ∀ r, rest ≠ '.' :: r) :
    readFraction (fractionChars ds ++ rest) = some (ds, rest) := by
  cases ds with
  | nil =>
    change readFraction rest = some ([], rest)
    unfold readFraction
    split
    · exact absurd rfl (hpoint _)
    · rfl
  | cons d ds =>
    change readFraction ('.' :: ((d :: ds).map Decimal.digitChar ++ rest)) = _
    rw [readFraction, spanDigits_append hds hrest]

theorem readExponentDigits_append {n : Nat} {rest : List Char} (negative : Bool)
    (hrest : NoDigit rest) :
    readExponentDigits negative (Decimal.chars n ++ rest) =
      some (some (if negative then -(n : Int) else n), rest) := by
  rw [readExponentDigits, Decimal.chars,
    spanDigits_append (fun d hd => Decimal.lt_ten_of_mem_digits hd) hrest]
  cases hdigits : Decimal.digits n with
  | nil => exact absurd hdigits (Decimal.digits_ne_nil n)
  | cons d ds =>
    have hvalue : Decimal.value (d :: ds) = n := by rw [← hdigits, Decimal.value_digits]
    simp only [hvalue]

/-- A number begins with a digit. -/
theorem exists_chars_eq_cons (n : Nat) :
    ∃ d cs, Decimal.chars n = Decimal.digitChar d :: cs ∧ d < 10 := by
  cases hdigits : Decimal.digits n with
  | nil => exact absurd hdigits (Decimal.digits_ne_nil n)
  | cons d ds =>
    refine ⟨d, ds.map Decimal.digitChar, by rw [Decimal.chars, hdigits, List.map_cons], ?_⟩
    exact Decimal.lt_ten_of_mem_digits (hdigits ▸ List.mem_cons_self)

theorem digitChar_ne {d : Nat} (hd : d < 10) {c : Char} (hc : Decimal.digit? c = none) :
    Decimal.digitChar d ≠ c := by
  rintro rfl
  rw [Decimal.digit?_digitChar hd] at hc
  cases hc

theorem readExponent_append {rest : List Char} (hrest : Ends rest) (e : Option Int) :
    readExponent (exponentChars e ++ rest) = some (e, rest) := by
  cases e with
  | none =>
    change readExponent rest = some (none, rest)
    unfold readExponent
    split
    · exact absurd rfl (hrest _ _ rfl).2.2.1
    · exact absurd rfl (hrest _ _ rfl).2.2.2
    · rfl
  | some e =>
    by_cases he : e < 0
    · rw [exponentChars, if_pos he]
      change readExponentDigits true (Decimal.chars e.natAbs ++ rest) = _
      rw [readExponentDigits_append true hrest.noDigit, if_pos rfl]
      congr 3
      omega
    · rw [exponentChars, if_neg he]
      obtain ⟨d, cs, hcs, hd⟩ := exists_chars_eq_cons e.natAbs
      have hread : readExponent ('e' :: (Decimal.chars e.natAbs ++ rest)) =
          readExponentDigits false (Decimal.chars e.natAbs ++ rest) := by
        rw [hcs, List.cons_append, readExponent]
        -- What follows `e` is a digit and not a sign.
        · intro r hplus
          exact absurd (List.cons.inj hplus).1 (digitChar_ne hd (by decide))
        · intro r hminus
          exact absurd (List.cons.inj hminus).1 (digitChar_ne hd (by decide))
      change readExponent ('e' :: (Decimal.chars e.natAbs ++ rest)) = _
      rw [hread, readExponentDigits_append false hrest.noDigit, if_neg Bool.false_ne_true]
      congr 3
      omega

/-- A number without its sign. -/
def Numeral.unsignedChars (n : Numeral) : List Char :=
  n.whole.map Decimal.digitChar ++ (fractionChars n.fraction ++ exponentChars n.exponent)

theorem Numeral.chars_eq (n : Numeral) :
    n.chars = (if n.negative then ['-'] else []) ++ n.unsignedChars := by
  rw [chars, unsignedChars, List.append_assoc, List.append_assoc]
  obtain ⟨_, _, _, exponent⟩ := n
  cases exponent <;> rfl

/-- A number is read back from behind its sign. -/
theorem readNumeral_unsignedChars {n : Numeral} (hn : n.IsWritten) {rest : List Char}
    (hrest : Ends rest) :
    readNumeral n.negative (n.unsignedChars ++ rest) = some (n, rest) := by
  -- Each part ends where the next one begins: at a point, at an `e`, or at the end of the number.
  have hexponent : NoDigit (exponentChars n.exponent ++ rest) ∧
      ∀ r, exponentChars n.exponent ++ rest ≠ '.' :: r := by
    cases n.exponent with
    | none => exact ⟨hrest.noDigit, fun r h => (hrest _ _ h).2.1 rfl⟩
    | some e => exact ⟨by rintro _ _ ⟨⟩; decide, by rintro _ ⟨⟩⟩
  have hfraction : NoDigit (fractionChars n.fraction ++ (exponentChars n.exponent ++ rest)) := by
    cases n.fraction with
    | nil => exact hexponent.1
    | cons d ds => rintro _ _ ⟨⟩; decide
  rw [readNumeral, Numeral.unsignedChars, List.append_assoc, List.append_assoc,
    readWhole_append hn.whole_ne_nil hn.whole_lt hn.tail_eq_nil hfraction]
  simp only [bind, Option.bind_some, readFraction_append hn.fraction_lt hexponent.1 hexponent.2,
    readExponent_append hrest]
  rfl

/-! ### Tokens -/

theorem lex_cons {c : Char} {s rest : List Char} {t : Token} (hspace : isSpace c = false)
    (h : readToken c s = some (t, rest)) : lex (c :: s) = (lex rest).map (t :: ·) := by
  rw [lex, if_neg (Bool.eq_false_iff.mp hspace)]
  split
  · rename_i hnone
    rw [h] at hnone
    cases hnone
  · rename_i hsome
    rw [h] at hsome
    cases hsome
    rfl

/-- A digit begins a number, and is no blank. -/
theorem readToken_digitChar {d : Nat} (hd : d < 10) (s : List Char) :
    isSpace (Decimal.digitChar d) = false ∧ readToken (Decimal.digitChar d) s =
      (readNumeral false (Decimal.digitChar d :: s)).map fun (n, rest) => (.number n, rest) := by
  interval_cases d <;> exact ⟨rfl, rfl⟩

/-- A number is cut off where it ends. -/
theorem lex_chars_number {n : Numeral} (hn : n.IsWritten) {rest : List Char} (hrest : Ends rest) :
    lex (n.chars ++ rest) = (lex rest).map (Token.number n :: ·) := by
  have hread := readNumeral_unsignedChars hn hrest
  rw [Numeral.chars_eq]
  cases hnegative : n.negative with
  | true =>
    rw [hnegative] at hread
    change lex ('-' :: (n.unsignedChars ++ rest)) = _
    refine lex_cons rfl ?_
    change (readNumeral true (n.unsignedChars ++ rest)).map _ = _
    rw [hread]
    rfl
  | false =>
    rw [hnegative] at hread
    -- Without a sign, the first digit tells that a number begins.
    obtain ⟨d, s, hs, hd⟩ : ∃ d s, n.unsignedChars ++ rest = Decimal.digitChar d :: s ∧ d < 10 := by
      cases hwhole : n.whole with
      | nil => exact absurd hwhole hn.whole_ne_nil
      | cons d ds =>
        refine ⟨d, ds.map Decimal.digitChar ++
          (fractionChars n.fraction ++ exponentChars n.exponent) ++ rest, ?_,
          hn.whole_lt d (hwhole ▸ List.mem_cons_self)⟩
        rw [Numeral.unsignedChars, hwhole, List.map_cons, List.cons_append, List.cons_append]
    rw [hs] at hread
    change lex (n.unsignedChars ++ rest) = _
    rw [hs]
    obtain ⟨hspace, htoken⟩ := readToken_digitChar hd s
    refine lex_cons hspace ?_
    rw [htoken, hread]
    rfl

def Token.isNumber : Token → Bool
  | .number _ => true
  | _ => false

/-- Any other token is cut off whatever follows it. -/
theorem lex_chars {t : Token} (ht : t.isNumber = false) (rest : List Char) :
    lex (t.chars ++ rest) = (lex rest).map (t :: ·) := by
  cases t with
  | number n => cases ht
  | string s =>
    cases s with
    | none => exact lex_cons rfl rfl
    | some s =>
      rw [Token.chars, List.cons_append, List.cons_append, List.append_assoc]
      refine lex_cons rfl ?_
      change (readLiteral (s.toList.flatMap escapeChar ++ '"' :: rest)).map _ = _
      rw [readLiteral_escaped]
      simp only [Option.map_some, spell_map_pieceOf, String.ofList_toList]
  | bool b => cases b <;> exact lex_cons rfl rfl
  | _ => exact lex_cons rfl rfl

/-- The tokens are read back from their text, if no number runs on into what follows. -/
def Legible (ts : List Token) : Prop :=
  ∀ rest, Ends rest → lex (ts.flatMap Token.chars ++ rest) = (lex rest).map (ts ++ ·)

namespace Legible

theorem nil : Legible [] := by
  intro rest _
  exact Option.map_id'.symm

theorem number {n : Numeral} (hn : n.IsWritten) : Legible [.number n] := by
  intro rest hrest
  rw [List.flatMap_singleton]
  exact lex_chars_number hn hrest

/-- Any other token may stand before tokens that are read back. -/
theorem cons {t : Token} (ht : t.isNumber = false) {ts : List Token} (h : Legible ts) :
    Legible (t :: ts) := by
  intro rest hrest
  rw [List.flatMap_cons, List.append_assoc, lex_chars ht, h rest hrest, Option.map_map]
  rfl

/-- A comma or a closing bracket ends a number, so tokens are read back on both sides of it. -/
theorem append_cons {p : Token} (hp : p = .comma ∨ p = .closeArray ∨ p = .closeObject)
    {ts us : List Token} (hts : Legible ts) (hus : Legible us) : Legible (ts ++ p :: us) := by
  have hnumber : p.isNumber = false := by rcases hp with rfl | rfl | rfl <;> rfl
  intro rest hrest
  have hends : Ends ((p :: us).flatMap Token.chars ++ rest) := by
    rw [List.flatMap_cons, List.append_assoc]
    rcases hp with rfl | rfl | rfl <;>
      exact .cons (by decide) (by decide) (by decide) (by decide) _
  rw [List.flatMap_append, List.append_assoc, hts _ hends, cons hnumber hus rest hrest,
    Option.map_map]
  congr 1
  funext vs
  exact (List.append_assoc ts (p :: us) vs).symm

theorem separate {tss : List (List Token)} (h : ∀ ts ∈ tss, Legible ts) :
    Legible (separate tss) := by
  match tss with
  | [] => exact nil
  | [ts] => exact h ts List.mem_cons_self
  | ts :: us :: rest =>
    exact append_cons (.inl rfl) (h ts List.mem_cons_self)
      (separate fun vs hvs => h vs (List.mem_cons_of_mem ts hvs))

end Legible

/-! ### Documents -/

mutual

/-- The tokens of a document are read back. -/
theorem legible_tokens : ∀ v : Json, v.HasWrittenNumbers → Legible (tokens v)
  | .null, _ => .cons rfl .nil
  | .bool _, _ => .cons rfl .nil
  | .number n, h => .number (h n List.mem_cons_self)
  | .string _, _ => .cons rfl .nil
  -- Behind the items of an array stands its closing bracket, so none of them runs on.
  | .array items, h =>
    .cons rfl (.append_cons (.inr (.inl rfl))
      (.separate (legible_itemTokens items h)) .nil)
  | .object members, h =>
    .cons rfl (.append_cons (.inr (.inr rfl))
      (.separate (legible_memberTokens members h)) .nil)

theorem legible_itemTokens : ∀ vs : List Json,
    (∀ n, Atom.numeral n ∈ itemAtoms vs → n.IsWritten) → ∀ ts ∈ itemTokens vs, Legible ts
  | [], _ => List.forall_mem_nil _
  | v :: vs, h => List.forall_mem_cons.mpr
    ⟨legible_tokens v fun n hn => h n (List.mem_append_left _ hn),
      legible_itemTokens vs fun n hn => h n (List.mem_append_right _ hn)⟩

theorem legible_memberTokens : ∀ ms : List (Option String × Json),
    (∀ n, Atom.numeral n ∈ memberAtoms ms → n.IsWritten) → ∀ ts ∈ memberTokens ms, Legible ts
  | [], _ => List.forall_mem_nil _
  | (_, v) :: ms, h => List.forall_mem_cons.mpr
    ⟨.cons rfl (.cons rfl
        (legible_tokens v fun n hn => h n (.tail _ (List.mem_append_left _ hn)))),
      legible_memberTokens ms fun n hn => h n (.tail _ (List.mem_append_right _ hn))⟩

end

/-- A printed document is read back, if its numbers are in the form in which numbers are written. -/
theorem parse?_render {v : Json} (h : v.HasWrittenNumbers) : parse? v.render = some v := by
  have hlex := legible_tokens v h [] ends_nil
  rw [List.append_nil, lex] at hlex
  rw [parse?, render, String.toList_ofList, hlex, Option.map_some, List.append_nil]
  exact assemble?_tokens v

end HeadScout.Json
