/-!
# Blank characters

Header values, environment values and credential names are read without the white space around
them. White space here is the Unicode property of that name, which is wider than ASCII blanks: it
holds the no-break space and the ideographic space, but not the zero-width space.

## Main definitions

* `Text.isBlank` — the property `White_Space`
* `Text.trim` — the text without the blanks at either end
* `Text.isAllBlank` — nothing but blanks

## Main results

* `Text.trim_eq_empty_iff` — trimming leaves nothing exactly from a text of blanks
-/

namespace HeadScout.Text

/-- The characters of the Unicode property `White_Space`. -/
def blanks : List Char :=
  ['\u0009', '\u000A', '\u000B', '\u000C', '\u000D', ' ', '\u0085', '\u00A0', '\u1680',
   '\u2000', '\u2001', '\u2002', '\u2003', '\u2004', '\u2005', '\u2006', '\u2007', '\u2008',
   '\u2009', '\u200A', '\u2028', '\u2029', '\u202F', '\u205F', '\u3000']

/-- Whether the character is white space. -/
def isBlank (c : Char) : Bool := blanks.contains c

/-- The characters left when blanks at both ends are removed. -/
def trimChars (s : List Char) : List Char :=
  ((s.dropWhile isBlank).reverse.dropWhile isBlank).reverse

/-- The text without the blanks at either end. -/
def trim (s : String) : String := String.ofList (trimChars s.toList)

/-- The text without the blanks at its beginning. -/
def trimLeft (s : List Char) : List Char := s.dropWhile isBlank

/-- Whether the text holds nothing but blanks. -/
def isAllBlank (s : String) : Bool := s.toList.all isBlank

theorem dropWhile_eq_nil_iff_all {α : Type} (p : α → Bool) (s : List α) :
    s.dropWhile p = [] ↔ s.all p = true := by
  induction s with
  | nil => simp
  | cons x xs ih =>
    rw [List.dropWhile_cons, List.all_cons]
    by_cases hx : p x = true
    · simp [hx, ih]
    · simp [hx]

theorem dropWhile_dropWhile {α : Type} (p : α → Bool) (s : List α) :
    (s.dropWhile p).dropWhile p = s.dropWhile p := by
  induction s with
  | nil => rfl
  | cons x xs ih =>
    by_cases hx : p x = true
    · simpa [hx] using ih
    · simp [hx]

theorem trimChars_eq_nil_iff {s : List Char} : trimChars s = [] ↔ s.all isBlank = true := by
  rw [trimChars, List.reverse_eq_nil_iff, dropWhile_eq_nil_iff_all, List.all_reverse,
    ← dropWhile_eq_nil_iff_all, dropWhile_dropWhile, dropWhile_eq_nil_iff_all]

/-- Trimming leaves nothing exactly from a text of blanks. -/
theorem trim_eq_empty_iff {s : String} : trim s = "" ↔ isAllBlank s = true := by
  rw [← String.toList_inj, trim, isAllBlank, ← trimChars_eq_nil_iff]
  simp

end HeadScout.Text
