/-!
# ASCII letter case and affixes

Names of owners, repositories and headers are compared without regard to the case of ASCII letters;
every other character counts as written. This module holds that comparison and the cuts at a fixed
beginning, at a fixed ending and at the first separator.

## Main definitions

* `Text.lower` — the text with ASCII capitals made small
* `Text.sameLetters` — equality up to the case of ASCII letters
* `Text.hasPrefix`, `Text.stripPrefix?` — a fixed beginning
* `Text.dropTrailing` — a repeated character cut off at the end
* `Text.splitFirst?` — the two sides of the first separator

## Main results

* `Text.sameLetters_iff` — the comparison is equality of the lowered texts, hence an equivalence
* `Text.stripPrefix?_eq_some_iff` — stripping undoes prepending and does nothing else
* `Text.splitFirst?_eq_some_iff` — the left side holds no separator
-/

namespace HeadScout.Text

/-! ### Letter case -/

/-- The text with its ASCII capital letters made small. -/
def lower (s : String) : String := s.map Char.toLower

/-- Whether two texts are the same up to the case of ASCII letters. -/
def sameLetters (a b : String) : Bool := lower a == lower b

theorem sameLetters_iff {a b : String} : sameLetters a b = true ↔ lower a = lower b := by
  simp [sameLetters]

@[simp] theorem sameLetters_refl (a : String) : sameLetters a a = true := by
  simp [sameLetters]

theorem sameLetters_congr {a a' b b' : String} (ha : sameLetters a a' = true)
    (hb : sameLetters b b' = true) : sameLetters a b = sameLetters a' b' := by
  rw [sameLetters_iff] at ha hb
  rw [sameLetters, sameLetters, ha, hb]

@[simp] theorem toList_lower (s : String) : (lower s).toList = s.toList.map Char.toLower := by
  simp [lower]

/-- A text without capitals is left alone. -/
theorem lower_eq_self {s : String} (h : s.toList.map Char.toLower = s.toList) : lower s = s := by
  rw [← String.toList_inj, toList_lower, h]

/-- The comparison goes character by character. -/
theorem sameLetters_iff_toList {a b : String} :
    sameLetters a b = true ↔ a.toList.map Char.toLower = b.toList.map Char.toLower := by
  rw [sameLetters_iff, ← String.toList_inj, toList_lower, toList_lower]

theorem lower_append (a b : String) : lower (a ++ b) = lower a ++ lower b := by
  rw [← String.toList_inj]; simp

/-! ### Fixed beginnings -/

/-- Whether the text begins with `p`. -/
def hasPrefix (p s : String) : Bool := p.toList.isPrefixOf s.toList

theorem hasPrefix_iff {p s : String} : hasPrefix p s = true ↔ ∃ t, s = p ++ t := by
  rw [hasPrefix, List.isPrefixOf_iff_prefix]
  constructor
  · rintro ⟨t, ht⟩
    exact ⟨String.ofList t, by rw [← String.toList_inj]; simp [← ht]⟩
  · rintro ⟨t, rfl⟩
    exact ⟨t.toList, by simp⟩

/-- The text after the beginning `p`, if it begins so. -/
def stripPrefix? (p s : String) : Option String :=
  if hasPrefix p s then some (String.ofList (s.toList.drop p.toList.length)) else none

theorem stripPrefix?_eq_some_iff {p s t : String} : stripPrefix? p s = some t ↔ s = p ++ t := by
  unfold stripPrefix?
  constructor
  · split
    · rename_i h
      obtain ⟨u, rfl⟩ := hasPrefix_iff.1 h
      simp
    · simp
  · rintro rfl
    simp [hasPrefix_iff.2 ⟨t, rfl⟩]

/-! ### Endings -/

/-- The text without the run of `c` at its end. -/
def dropTrailing (c : Char) (s : String) : String :=
  String.ofList (s.toList.reverse.dropWhile (· == c)).reverse

/-! ### Separators -/

/-- The characters before and after the first `c`. -/
def splitFirstChar? (c : Char) : List Char → Option (List Char × List Char)
  | [] => none
  | x :: xs => if x = c then some ([], xs) else (splitFirstChar? c xs).map fun (a, b) => (x :: a, b)

theorem splitFirstChar?_eq_some_iff {c : Char} {s a b : List Char} :
    splitFirstChar? c s = some (a, b) ↔ c ∉ a ∧ s = a ++ c :: b := by
  induction s generalizing a with
  | nil => simp [splitFirstChar?]
  | cons x xs ih =>
    unfold splitFirstChar?
    split
    · -- The text begins with the separator, so nothing stands before it.
      rename_i hx
      subst hx
      cases a with
      | nil => simp [eq_comm]
      | cons y ys =>
        constructor
        · intro h; simp at h
        · rintro ⟨hc, h⟩
          simp only [List.cons_append, List.cons.injEq] at h
          simp [h.1] at hc
    · -- Any other character belongs to the left side.
      rename_i hx
      cases a with
      | nil => simp [hx]
      | cons y ys =>
        simp only [Option.map_eq_some_iff, Prod.exists, Prod.mk.injEq, List.cons.injEq,
          List.mem_cons, not_or, List.cons_append]
        constructor
        · rintro ⟨a', b', h, ⟨rfl, rfl⟩, rfl⟩
          obtain ⟨hc, rfl⟩ := ih.1 h
          exact ⟨⟨Ne.symm hx, hc⟩, rfl, rfl⟩
        · rintro ⟨⟨_, hc⟩, rfl, rfl⟩
          exact ⟨ys, b, ih.2 ⟨hc, rfl⟩, ⟨rfl, rfl⟩, rfl⟩

/-- The texts before and after the first `c`, if there is one. -/
def splitFirst? (c : Char) (s : String) : Option (String × String) :=
  (splitFirstChar? c s.toList).map fun (a, b) => (String.ofList a, String.ofList b)

theorem splitFirst?_eq_some_iff {c : Char} {s a b : String} :
    splitFirst? c s = some (a, b) ↔ c ∉ a.toList ∧ s = a ++ String.ofList [c] ++ b := by
  simp only [splitFirst?, Option.map_eq_some_iff, Prod.exists, Prod.mk.injEq]
  constructor
  · rintro ⟨x, y, h, rfl, rfl⟩
    obtain ⟨hc, hs⟩ := splitFirstChar?_eq_some_iff.1 h
    exact ⟨by simpa using hc, by rw [← String.toList_inj]; simp [hs]⟩
  · rintro ⟨hc, rfl⟩
    exact ⟨a.toList, b.toList, splitFirstChar?_eq_some_iff.2 ⟨hc, by simp⟩, by simp, by simp⟩

end HeadScout.Text
