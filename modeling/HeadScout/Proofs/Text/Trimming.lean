import HeadScout.Text.Ascii
import HeadScout.Text.Blank
import Mathlib.Tactic.FinCases

/-!
# Words between blanks

Trimming a text finds the one word that stands in it with nothing but blanks around it, where a word
neither begins nor ends with a blank. What is read only after trimming may therefore be told without
it, by saying which word stands in the text.

## Main definitions

* `Text.HoldsWord` — nothing but blanks stands around a word
* `Text.IsTight` — a word has no blank at either end

## Main results

* `Text.trim_eq_iff` — what trimming finds
* `Text.isTight_of_isTight_lower` — a word is as tight as its small letters
-/

namespace HeadScout.Text

/-- Nothing but blanks stands around the word in the text. -/
def HoldsWord (text word : String) : Prop :=
  ∃ before after, text = before ++ word ++ after ∧
    (∀ c ∈ before.toList, isBlank c = true) ∧ ∀ c ∈ after.toList, isBlank c = true

/-- The word neither begins nor ends with a blank. -/
def IsTight (word : String) : Prop :=
  (∀ c ∈ word.toList.head?, isBlank c = false) ∧ ∀ c ∈ word.toList.getLast?, isBlank c = false

instance (word : String) : Decidable (IsTight word) :=
  decidable_of_iff (word.toList.head?.all (!isBlank ·) = true ∧
    word.toList.getLast?.all (!isBlank ·) = true) (by simp [IsTight, Option.all_eq_true])

theorem HoldsWord.of_all {text word : String} (before after : String)
    (htext : text = before ++ word ++ after) (hbefore : before.toList.all isBlank = true)
    (hafter : after.toList.all isBlank = true) : HoldsWord text word :=
  ⟨before, after, htext, List.all_eq_true.mp hbefore, List.all_eq_true.mp hafter⟩

theorem HoldsWord.self (word : String) : HoldsWord word word :=
  .of_all "" "" (by simp) rfl rfl

/-! ### Runs of blanks -/

theorem dropWhile_eq_self {s : List Char} (h : ∀ c ∈ s.head?, isBlank c = false) :
    s.dropWhile isBlank = s := by
  cases s with
  | nil => rfl
  | cons c s => rw [List.dropWhile_cons_of_neg (Bool.eq_false_iff.mp (h c rfl))]

/-- What is left of a list without the blanks in front begins with no blank. -/
theorem isBlank_head?_dropWhile {s : List Char} {c : Char}
    (hc : c ∈ (s.dropWhile isBlank).head?) : isBlank c = false := by
  have hfirst := List.head?_dropWhile_not isBlank s
  rw [Option.mem_def.mp hc] at hfirst
  exact hfirst

theorem isBlank_of_mem_takeWhile {s : List Char} {c : Char} (hc : c ∈ s.takeWhile isBlank) :
    isBlank c = true :=
  List.all_eq_true.mp List.all_takeWhile c hc

/-- Behind the blanks in front stands what trimming leaves, and then only blanks. -/
theorem exists_dropWhile_eq (s : List Char) :
    ∃ after, s.dropWhile isBlank = trimChars s ++ after ∧ ∀ c ∈ after, isBlank c = true := by
  let t := s.dropWhile isBlank
  refine ⟨(t.reverse.takeWhile isBlank).reverse, ?_, ?_⟩
  · rw [trimChars, ← List.reverse_append, List.takeWhile_append_dropWhile, List.reverse_reverse]
  · exact fun c hc => isBlank_of_mem_takeWhile (List.mem_reverse.mp hc)

theorem trimChars_append {before w after : List Char} (hbefore : ∀ c ∈ before, isBlank c = true)
    (hafter : ∀ c ∈ after, isBlank c = true) (hfirst : ∀ c ∈ w.head?, isBlank c = false)
    (hlast : ∀ c ∈ w.getLast?, isBlank c = false) : trimChars (before ++ w ++ after) = w := by
  cases w with
  | nil =>
    -- Then the whole list is blank, and it does not matter which part is whose.
    rw [trimChars_eq_nil_iff, List.append_nil, List.all_append, Bool.and_eq_true, List.all_eq_true,
      List.all_eq_true]
    exact ⟨hbefore, hafter⟩
  | cons c w =>
    have hfront : (before ++ (c :: w) ++ after).dropWhile isBlank = (c :: w) ++ after := by
      rw [List.append_assoc, List.dropWhile_append_of_pos hbefore]
      exact dropWhile_eq_self hfirst
    have hback : ∀ d ∈ after.reverse, isBlank d = true :=
      fun d hd => hafter d (List.mem_reverse.mp hd)
    have hend : ∀ d ∈ (c :: w).reverse.head?, isBlank d = false := by
      rw [List.head?_reverse]
      exact hlast
    rw [trimChars, hfront, List.reverse_append, List.dropWhile_append_of_pos hback,
      dropWhile_eq_self hend, List.reverse_reverse]

/-! ### What trimming finds -/

@[simp] theorem toList_trim (s : String) : (trim s).toList = trimChars s.toList :=
  String.toList_ofList

theorem isTight_trim (s : String) : IsTight (trim s) := by
  rw [IsTight, toList_trim]
  refine ⟨?_, ?_⟩
  · -- The first character left is also the first one behind the blanks in front.
    intro c hc
    obtain ⟨after, hs, -⟩ := exists_dropWhile_eq s.toList
    refine isBlank_head?_dropWhile (s := s.toList) ?_
    rw [hs, List.head?_append, Option.mem_def.mp hc]
    rfl
  · intro c hc
    rw [trimChars, List.getLast?_reverse] at hc
    exact isBlank_head?_dropWhile hc

theorem holdsWord_trim (s : String) : HoldsWord s (trim s) := by
  obtain ⟨after, hs, hafter⟩ := exists_dropWhile_eq s.toList
  refine ⟨String.ofList (s.toList.takeWhile isBlank), String.ofList after, ?_, ?_, ?_⟩
  · rw [← String.toList_inj, String.toList_append, String.toList_append, toList_trim,
      String.toList_ofList, String.toList_ofList, List.append_assoc, ← hs,
      List.takeWhile_append_dropWhile]
  · rw [String.toList_ofList]
    exact fun c => isBlank_of_mem_takeWhile
  · rw [String.toList_ofList]
    exact hafter

/-- Trimming finds the tight word that stands in the text between blanks. -/
theorem trim_eq_iff {text word : String} :
    trim text = word ↔ HoldsWord text word ∧ IsTight word := by
  constructor
  · rintro rfl
    exact ⟨holdsWord_trim text, isTight_trim text⟩
  · rintro ⟨⟨before, after, rfl, hbefore, hafter⟩, hfirst, hlast⟩
    rw [← String.toList_inj, toList_trim, String.toList_append, String.toList_append]
    exact trimChars_append hbefore hafter hfirst hlast

/-! ### Letter case -/

/-- No blank is a letter. -/
theorem isBlank_toLower {c : Char} (h : isBlank c = true) : isBlank c.toLower = true := by
  have hmem : c ∈ blanks := List.contains_iff_mem.mp h
  fin_cases hmem <;> decide

theorem isTight_of_isTight_lower {word : String} (h : IsTight (lower word)) : IsTight word := by
  have hletter : ∀ c : Char, isBlank c.toLower = false → isBlank c = false := fun c hc =>
    Bool.eq_false_iff.mpr fun hblank => Bool.eq_false_iff.mp hc (isBlank_toLower hblank)
  rw [IsTight, toList_lower, List.head?_map, List.getLast?_map] at h
  exact ⟨fun c hc => hletter c (h.1 _ (Option.mem_map_of_mem _ hc)),
    fun c hc => hletter c (h.2 _ (Option.mem_map_of_mem _ hc))⟩

end HeadScout.Text
