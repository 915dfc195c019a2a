import HeadScout.Json.Document
import HeadScout.Text.Blank
import Mathlib.Tactic.FinCases

/-!
# Blanks between tokens

Only four of the characters that count as white space may stand between the tokens of a document,
and none of them begins a token. A text of white space therefore has no tokens at all, whether it is
refused at its first odd blank or read to its end, and holds no document.

## Main results

* `Json.lex_of_blank` — white space has no tokens
* `Json.trim_ne_empty` — a text that holds a document is not blank
-/

namespace HeadScout.Json

/-- A blank is no digit, and no token begins with it. -/
theorem readToken_of_isBlank {c : Char} (h : Text.isBlank c = true) (s : List Char) :
    readToken c s = none := by
  have hc : c ∈ Text.blanks := List.contains_iff_mem.mp h
  fin_cases hc <;> rfl

theorem lex_of_blank {s : List Char} (h : s.all Text.isBlank = true) :
    lex s = none ∨ lex s = some [] := by
  induction s with
  | nil => exact Or.inr lex.eq_1
  | cons c s ih =>
    rw [List.all_cons, Bool.and_eq_true] at h
    by_cases hspace : isSpace c = true
    · rw [lex, if_pos hspace]
      exact ih h.2
    · -- Reading stops here, so the rest of the text does not matter.
      left
      rw [lex, if_neg hspace]
      split
      · rfl
      · rename_i hsome
        rw [readToken_of_isBlank h.1] at hsome
        cases hsome

/-- A text that holds a document is not blank. -/
theorem trim_ne_empty {body : String} {v : Json} (h : parse? body = some v) :
    Text.trim body ≠ "" := by
  intro hblank
  rw [parse?] at h
  obtain hlex | hlex := lex_of_blank (Text.trim_eq_empty_iff.mp hblank)
  · rw [hlex] at h
    cases h
  · rw [hlex] at h
    cases h

end HeadScout.Json
