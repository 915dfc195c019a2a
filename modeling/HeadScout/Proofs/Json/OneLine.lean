import HeadScout.Proofs.Json.Printing

/-!
# Printed documents stand on one line

Strings come from outside and may hold anything. Their control characters are escaped, and no other
token has one, so a printed document is one line, whatever it holds.

## Main definitions

* `Json.OnOneLine` — a text without control characters

## Main results

* `Json.onOneLine_render` — a printed document is such a text
-/

namespace HeadScout.Json

/-- The text has no character in front of the blank, hence no line feed and no carriage return. -/
def OnOneLine (s : List Char) : Prop := ∀ c ∈ s, ' ' ≤ c

instance (s : List Char) : Decidable (OnOneLine s) :=
  List.decidableBAll (' ' ≤ ·) s

namespace OnOneLine

theorem nil : OnOneLine [] := List.forall_mem_nil _

theorem append {s t : List Char} (hs : OnOneLine s) (ht : OnOneLine t) : OnOneLine (s ++ t) :=
  fun c hc => (List.mem_append.mp hc).elim (hs c) (ht c)

theorem cons {c : Char} {s : List Char} (hc : ' ' ≤ c) (hs : OnOneLine s) : OnOneLine (c :: s) :=
  List.forall_mem_cons.mpr ⟨hc, hs⟩

theorem flatMap {α : Type} {f : α → List Char} {as : List α} (h : ∀ a ∈ as, OnOneLine (f a)) :
    OnOneLine (as.flatMap f) := by
  intro c hc
  obtain ⟨a, ha, hc⟩ := List.mem_flatMap.mp hc
  exact h a ha c hc

end OnOneLine

/-! ### Strings -/

theorem onOneLine_escapeChar (c : Char) : OnOneLine (escapeChar c) := by
  unfold escapeChar
  split
  iterate 7 · decide
  split
  · rename_i h
    have hescaped : ∀ n : Fin 32, OnOneLine ['\\', 'u', '0', '0',
        Hexadecimal.digitChar (n.val / 16), Hexadecimal.digitChar (n.val % 16)] := by decide
    exact hescaped ⟨c.toNat, h⟩
  · rename_i h
    exact .cons (Char.le_def.mpr (Nat.not_lt.mp h)) .nil

/-! ### Numbers -/

theorem onOneLine_digits {ds : List Nat} (h : ∀ d ∈ ds, d < 10) :
    OnOneLine (ds.map Decimal.digitChar) := by
  have hdigit : ∀ d : Fin 10, ' ' ≤ Decimal.digitChar d.val := by decide
  intro c hc
  obtain ⟨d, hd, rfl⟩ := List.mem_map.mp hc
  exact hdigit ⟨d, h d hd⟩

theorem onOneLine_sign (p : Prop) [Decidable p] : OnOneLine (if p then ['-'] else []) := by
  split
  · decide
  · exact .nil

theorem onOneLine_chars_number {n : Numeral} (hn : n.IsWritten) : OnOneLine n.chars := by
  have hfraction : OnOneLine
      (if n.fraction.isEmpty then [] else '.' :: n.fraction.map Decimal.digitChar) := by
    split
    · exact .nil
    · exact .cons (by decide) (onOneLine_digits hn.fraction_lt)
  refine (((onOneLine_sign _).append (onOneLine_digits hn.whole_lt)).append hfraction).append ?_
  cases n.exponent with
  | none => exact .nil
  | some e =>
    have hdigits : OnOneLine (Decimal.chars e.natAbs) :=
      onOneLine_digits fun _ => Decimal.lt_ten_of_mem_digits
    exact .append (.cons (by decide) (onOneLine_sign _)) hdigits

/-! ### Documents -/

/-- Every token of the list stands on one line. -/
def TokensOnOneLine (ts : List Token) : Prop := ∀ t ∈ ts, OnOneLine t.chars

namespace TokensOnOneLine

theorem nil : TokensOnOneLine [] := List.forall_mem_nil _

theorem number {n : Numeral} (hn : n.IsWritten) : TokensOnOneLine [.number n] :=
  List.forall_mem_singleton.mpr (onOneLine_chars_number hn)

/-- Any other token may stand before tokens on one line. -/
theorem cons {t : Token} (ht : t.isNumber = false) {ts : List Token} (h : TokensOnOneLine ts) :
    TokensOnOneLine (t :: ts) := by
  refine List.forall_mem_cons.mpr ⟨?_, h⟩
  cases t with
  | number n => cases ht
  | string s =>
    cases s with
    | none => decide
    | some s =>
      exact .append (.cons (by decide) (.flatMap fun c _ => onOneLine_escapeChar c)) (by decide)
  | bool b => cases b <;> decide
  | _ => decide

theorem append {ts us : List Token} (hts : TokensOnOneLine ts) (hus : TokensOnOneLine us) :
    TokensOnOneLine (ts ++ us) :=
  fun t ht => (List.mem_append.mp ht).elim (hts t) (hus t)

theorem separate {tss : List (List Token)} (h : ∀ ts ∈ tss, TokensOnOneLine ts) :
    TokensOnOneLine (separate tss) := by
  match tss with
  | [] => exact nil
  | [ts] => exact h ts List.mem_cons_self
  | ts :: us :: rest =>
    exact append (h ts List.mem_cons_self)
      (cons rfl (separate fun vs hvs => h vs (List.mem_cons_of_mem ts hvs)))

end TokensOnOneLine

mutual

/-- The tokens of a document stand on one line. -/
theorem tokensOnOneLine_tokens : ∀ v : Json, v.HasWrittenNumbers → TokensOnOneLine (tokens v)
  | .null, _ => .cons rfl .nil
  | .bool _, _ => .cons rfl .nil
  | .number n, h => .number (h n List.mem_cons_self)
  | .string _, _ => .cons rfl .nil
  | .array items, h =>
    .cons rfl (.append (.separate (tokensOnOneLine_itemTokens items h)) (.cons rfl .nil))
  | .object members, h =>
    .cons rfl (.append (.separate (tokensOnOneLine_memberTokens members h)) (.cons rfl .nil))

theorem tokensOnOneLine_itemTokens : ∀ vs : List Json,
    (∀ n, Atom.numeral n ∈ itemAtoms vs → n.IsWritten) → ∀ ts ∈ itemTokens vs, TokensOnOneLine ts
  | [], _ => List.forall_mem_nil _
  | v :: vs, h => List.forall_mem_cons.mpr
    ⟨tokensOnOneLine_tokens v fun n hn => h n (List.mem_append_left _ hn),
      tokensOnOneLine_itemTokens vs fun n hn => h n (List.mem_append_right _ hn)⟩

theorem tokensOnOneLine_memberTokens : ∀ ms : List (Option String × Json),
    (∀ n, Atom.numeral n ∈ memberAtoms ms → n.IsWritten) → ∀ ts ∈ memberTokens ms,
      TokensOnOneLine ts
  | [], _ => List.forall_mem_nil _
  | (_, v) :: ms, h => List.forall_mem_cons.mpr
    ⟨.cons rfl (.cons rfl
        (tokensOnOneLine_tokens v fun n hn => h n (.tail _ (List.mem_append_left _ hn)))),
      tokensOnOneLine_memberTokens ms fun n hn => h n (.tail _ (List.mem_append_right _ hn))⟩

end

/-- A printed document stands on one line, if its numbers are in the form in which numbers are
written. -/
theorem onOneLine_render {v : Json} (h : v.HasWrittenNumbers) : OnOneLine v.render.toList := by
  rw [render, String.toList_ofList]
  exact .flatMap (tokensOnOneLine_tokens v h)

end HeadScout.Json
