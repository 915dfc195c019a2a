import Mathlib.Tactic.SplitIfs

/-!
# The order of texts and of their octets

Texts are ordered by their characters, the first difference deciding. Written as octets they are
ordered in the same way: an octet that begins a longer code is greater than one that begins a
shorter code, and of two codes of one length that of the greater character has the greater octet
where they first differ. No code is the beginning of another one, so what follows a character never
matters before the character itself.

## Main definitions

* `Text.octets` — a text in UTF-8

## Main results

* `Text.octets_lt_octets` — a smaller text has smaller octets
-/

namespace HeadScout.Text

/-- The octets of a text in UTF-8. -/
def octets (s : String) : List UInt8 := s.toUTF8.data.toList

theorem octets_eq_flatMap (s : String) : octets s = s.toList.flatMap String.utf8EncodeChar := by
  have h : s.toUTF8 = s.toList.utf8Encode := by
    rw [String.toUTF8_eq_toByteArray, ← String.toByteArray_ofList, String.ofList_toList]
  rw [octets, h, List.utf8Encode, List.data_toByteArray]

/-- The digits of a character's code are those of its number to the base 64. -/
theorem div_eq_div_div (n : Nat) : n / 4096 = n / 64 / 64 ∧ n / 262144 = n / 64 / 64 / 64 := by
  constructor
  · rw [Nat.div_div_eq_div_mul]
  · rw [Nat.div_div_eq_div_mul, Nat.div_div_eq_div_mul]

/-- Of two characters the smaller one has the smaller code, whatever follows it. -/
theorem encode_append_lt {c d : Char} (h : c < d) (as bs : List UInt8) :
    String.utf8EncodeChar c ++ as < String.utf8EncodeChar d ++ bs := by
  have hlt : c.val.toNat < d.val.toNat := h
  have hd : d.val.toNat < 0x110000 := by
    have hvalid := d.valid
    unfold UInt32.isValidChar Nat.isValidChar at hvalid
    omega
  unfold String.utf8EncodeChar
  simp only [div_eq_div_div]
  generalize c.val.toNat = n at hlt ⊢
  generalize d.val.toNat = m at hlt hd ⊢
  -- One case for each pair of lengths; where the first code is the longer one, the characters are
  -- in the wrong order.
  split_ifs
  all_goals
    simp only [List.cons_append, List.nil_append, List.cons_lt_cons_iff, UInt8.lt_iff_toNat_lt,
      ← UInt8.toNat_inj, UInt8.toNat_ofNat']
    omega

theorem flatMap_encode_lt {cs ds : List Char} (h : cs < ds) :
    cs.flatMap String.utf8EncodeChar < ds.flatMap String.utf8EncodeChar := by
  induction cs generalizing ds with
  | nil =>
    cases ds with
    | nil => exact absurd h (List.not_lt_nil _)
    | cons d ds =>
      -- No code is empty.
      obtain ⟨b, bs, hcode⟩ := List.exists_cons_of_ne_nil (String.utf8EncodeChar_ne_nil (c := d))
      rw [List.flatMap_cons, hcode]
      exact List.nil_lt_cons _ _
  | cons c cs ih =>
    cases ds with
    | nil => exact absurd h (List.not_lt_nil _)
    | cons d ds =>
      rw [List.flatMap_cons, List.flatMap_cons]
      obtain hlt | ⟨rfl, hrest⟩ := List.cons_lt_cons_iff.mp h
      · exact encode_append_lt hlt _ _
      · exact List.append_left_lt (ih hrest)

/-- A smaller text has smaller octets. -/
theorem octets_lt_octets {s t : String} (h : compare s t = .lt) : octets s < octets t := by
  have hlt : s.toList < t.toList := String.lt_iff.mp (compareOfLessAndEq_eq_lt.mp h)
  rw [octets_eq_flatMap, octets_eq_flatMap]
  exact flatMap_encode_lt hlt

end HeadScout.Text
