import HeadScout.Timestamp
import HeadScout.Proofs.Calendar
import Mathlib.Data.List.Induction

/-!
# The text form of a point in time

A point in time is read back from its text form. Every part of the text has a fixed number of digits
or ends before a character that is no digit, so no part takes digits of the next one. What is read
from any text is a point in time that can be written.

## Main definitions

* `Timestamp.IsValid` — the points in time that a clock can show

## Main results

* `Timestamp.read?_render` — a point in time is read back from its text form
* `Timestamp.isValid_of_read?` — a text names a point in time that a clock can show
-/

namespace HeadScout

/-! ### Numbers of fixed width -/

namespace Decimal

theorem value_replicate_zero_append (k : Nat) (ds : List Nat) :
    value (List.replicate k 0 ++ ds) = value ds := by
  induction k with
  | zero => rfl
  | succ k ih => exact ih

/-- A number has no more digits than the power of ten that it stays below. -/
theorem length_digits_le {n k : Nat} (hk : 0 < k) (h : n < Nat.pow 10 k) :
    (digits n).length ≤ k := by
  induction k generalizing n with
  | zero => exact absurd hk (Nat.lt_irrefl 0)
  | succ k ih =>
    rw [digits]
    by_cases hn : n < 10
    · rw [if_pos hn, List.length_singleton]
      omega
    · rw [if_neg hn, List.length_append, List.length_singleton]
      have hquotient : n / 10 < Nat.pow 10 k :=
        Nat.div_lt_of_lt_mul (by rw [Nat.mul_comm]; exact h)
      have hpos : 0 < k := by
        rcases k with _ | k
        · exact absurd h (by omega)
        · exact Nat.succ_pos k
      exact Nat.succ_le_succ (ih hpos hquotient)

/-- Digits of a number are less than the power of ten with as many zeros. -/
theorem value_lt_pow {ds : List Nat} (h : ∀ d ∈ ds, d < 10) : value ds < Nat.pow 10 ds.length := by
  induction ds using List.reverseRecOn with
  | nil => exact Nat.one_pos
  | append_singleton ds d ih =>
    have hlt := ih fun e he => h e (List.mem_append_left _ he)
    have hd : d < 10 := h d (List.mem_append_right _ (List.mem_singleton_self d))
    rw [value_append_singleton, List.length_append, List.length_singleton]
    change _ < Nat.pow 10 ds.length * 10
    omega

/-- What a run of digits stands for is less than the power of ten with as many zeros. -/
theorem lt_pow_of_read? {s : List Char} {n : Nat} (h : read? s = some n) :
    n < Nat.pow 10 s.length := by
  have hdigits : ∀ {s : List Char} {ds : List Nat}, s.mapM digit? = some ds →
      ds.length = s.length ∧ ∀ d ∈ ds, d < 10 := by
    intro s
    induction s with
    | nil =>
      rintro _ ⟨⟩
      exact ⟨rfl, List.forall_mem_nil _⟩
    | cons c s ih =>
      intro ds hds
      simp only [List.mapM_cons, bind, Option.bind_eq_some_iff, pure, Option.some.injEq] at hds
      obtain ⟨d, hd, ds, hds, rfl⟩ := hds
      obtain ⟨hlength, hlt⟩ := ih hds
      exact ⟨congrArg Nat.succ hlength, List.forall_mem_cons.mpr ⟨lt_ten_of_digit? hd, hlt⟩⟩
  rw [read?] at h
  split at h
  · cases h
  · obtain ⟨ds, hds, rfl⟩ := Option.map_eq_some_iff.mp h
    obtain ⟨hlength, hlt⟩ := hdigits hds
    rw [← hlength]
    exact value_lt_pow hlt

end Decimal

namespace Timestamp

theorem isDigit_digitChar {d : Nat} (hd : d < 10) : (Decimal.digitChar d).isDigit = true := by
  have hfin : ∀ d : Fin 10, (Decimal.digitChar d).isDigit = true := by decide
  exact hfin ⟨d, hd⟩

theorem padded_eq (width n : Nat) :
    padded width n = (List.replicate (width - (Decimal.chars n).length) 0 ++
      Decimal.digits n).map Decimal.digitChar := by
  rw [padded, List.map_append, List.map_replicate]
  rfl

theorem lt_ten_of_mem_replicate_append {n k d : Nat}
    (h : d ∈ List.replicate k 0 ++ Decimal.digits n) : d < 10 := by
  rcases List.mem_append.mp h with hzero | hdigit
  · rw [List.eq_of_mem_replicate hzero]
    exact Nat.succ_pos 9
  · exact Decimal.lt_ten_of_mem_digits hdigit

theorem isDigit_of_mem_padded {width n : Nat} {c : Char} (h : c ∈ padded width n) :
    c.isDigit = true := by
  rw [padded_eq] at h
  obtain ⟨d, hd, rfl⟩ := List.mem_map.mp h
  exact isDigit_digitChar (lt_ten_of_mem_replicate_append hd)

theorem read?_padded (width n : Nat) : Decimal.read? (padded width n) = some n := by
  have hne : (padded width n).isEmpty = false := by
    rw [padded_eq, List.isEmpty_eq_false_iff, ne_eq, List.map_eq_nil_iff, List.append_eq_nil_iff]
    exact fun h => Decimal.digits_ne_nil n h.2
  rw [Decimal.read?, hne, padded_eq,
    Decimal.mapM_digit?_map_digitChar fun d hd => lt_ten_of_mem_replicate_append hd,
    if_neg Bool.false_ne_true, Option.map_some, Decimal.value_replicate_zero_append,
    Decimal.value_digits]

theorem length_padded {width n : Nat} (hwidth : 0 < width) (h : n < Nat.pow 10 width) :
    (padded width n).length = width := by
  have hlength := Decimal.length_digits_le hwidth h
  rw [padded_eq, List.length_map, List.length_append, List.length_replicate, Decimal.chars,
    List.length_map]
  omega

/-! ### Parts of the text -/

/-- A run of digits is read to its end, where the width ends or no digit follows. -/
theorem readNumber_append {width n : Nat} {cs rest : List Char} (hcs : ∀ c ∈ cs, c.isDigit = true)
    (hread : Decimal.read? cs = some n) (hwidth : cs.length ≤ width)
    (hend : (rest.take (width - cs.length)).takeWhile Char.isDigit = []) :
    readNumber width (cs ++ rest) = some (n, rest) := by
  have hdigits : ((cs ++ rest).take width).takeWhile Char.isDigit = cs := by
    rw [List.take_append, List.take_of_length_le hwidth, List.takeWhile_append_of_pos hcs, hend,
      List.append_nil]
  rw [readNumber, hdigits, hread, List.drop_left]
  rfl

theorem readNumber_two {n : Nat} (h : n < 100) (rest : List Char) :
    readNumber 2 (padded 2 n ++ rest) = some (n, rest) :=
  readNumber_append (fun _ => isDigit_of_mem_padded) (read?_padded 2 n)
    (Nat.le_of_eq (length_padded Nat.two_pos h)) (by rw [length_padded Nat.two_pos h]; rfl)

theorem trimLeft_cons {c : Char} (hc : Text.isBlank c = false) (s : List Char) :
    Text.trimLeft (c :: s) = c :: s :=
  List.dropWhile_cons_of_neg (Bool.eq_false_iff.mp hc)

/-- A padded number begins with a digit. -/
theorem exists_padded_eq_cons (width n : Nat) :
    ∃ d cs, padded width n = Decimal.digitChar d :: cs ∧ d < 10 := by
  have hmem : ∀ d ∈ List.replicate (width - (Decimal.chars n).length) 0 ++ Decimal.digits n,
      d < 10 := fun d => lt_ten_of_mem_replicate_append
  rw [padded_eq]
  cases hds : List.replicate (width - (Decimal.chars n).length) 0 ++ Decimal.digits n with
  | nil => exact absurd (List.append_eq_nil_iff.mp hds).2 (Decimal.digits_ne_nil n)
  | cons d ds => exact ⟨d, _, rfl, hmem d (hds ▸ List.mem_cons_self)⟩

/-- Digits are not blank. -/
theorem trimLeft_padded (width n : Nat) (rest : List Char) :
    Text.trimLeft (padded width n ++ rest) = padded width n ++ rest := by
  have hblank : ∀ d : Fin 10, Text.isBlank (Decimal.digitChar d) = false := by decide
  obtain ⟨d, cs, hcs, hd⟩ := exists_padded_eq_cons width n
  rw [hcs]
  exact trimLeft_cons (hblank ⟨d, hd⟩) _

theorem readPartAfter_cons {c : Char} (hc : Text.isBlank c = false) {n : Nat} (h : n < 100)
    (rest : List Char) : readPartAfter c (c :: (padded 2 n ++ rest)) = some (n, rest) := by
  rw [readPartAfter, trimLeft_cons hc]
  simp only [if_true, trimLeft_padded, readNumber_two h]

/-- Behind a sign any run of digits is read. -/
theorem readNumber_padded_length (width n : Nat) {c : Char} (hc : c.isDigit = false)
    (rest : List Char) :
    readNumber (padded width n ++ c :: rest).length (padded width n ++ c :: rest) =
      some (n, c :: rest) := by
  refine readNumber_append (fun _ => isDigit_of_mem_padded) (read?_padded width n) ?_ ?_
  · rw [List.length_append]
    exact Nat.le_add_right _ _
  · rw [List.length_append, Nat.add_sub_cancel_left, List.take_length]
    exact List.takeWhile_cons_of_neg (Bool.eq_false_iff.mp hc)

theorem readYear_yearChars (year : Int) {c : Char} (hc : c.isDigit = false) (rest : List Char) :
    readYear (yearChars year ++ c :: rest) = some (year, c :: rest) := by
  rw [yearChars]
  split_ifs with hfour hnegative
  · have hlength : (padded 4 year.toNat).length = 4 :=
      length_padded (by decide) (by change year.toNat < 10000; omega)
    have hread : readNumber 4 (padded 4 year.toNat ++ c :: rest) = some (year.toNat, c :: rest) :=
      readNumber_append (fun _ => isDigit_of_mem_padded) (read?_padded 4 _) (Nat.le_of_eq hlength)
        (by rw [hlength]; rfl)
    obtain ⟨d, cs, hcs, hd⟩ := exists_padded_eq_cons 4 year.toNat
    have hsign : Decimal.digitChar d ≠ '-' ∧ Decimal.digitChar d ≠ '+' := by
      have hfin : ∀ d : Fin 10,
          Decimal.digitChar d ≠ '-' ∧ Decimal.digitChar d ≠ '+' := by decide
      exact hfin ⟨d, hd⟩
    rw [hcs, List.cons_append] at hread ⊢
    -- The first digit is no sign, so four digits are read.
    rw [readYear, hread]
    · simp only [Option.map_some, Int.toNat_of_nonneg hfour.1]
    · intro r hr
      exact hsign.1 (List.cons.inj hr).1
    · intro r hr
      exact hsign.2 (List.cons.inj hr).1
  · rw [List.cons_append, readYear, readNumber_padded_length 4 _ hc]
    simp only [Option.map_some]
    congr 2
    omega
  · rw [List.cons_append, readYear, readNumber_padded_length 4 _ hc]
    simp only [Option.map_some]
    congr 2
    omega

/-- A year begins with a digit or a sign, which are not blank. -/
theorem trimLeft_yearChars (year : Int) (rest : List Char) :
    Text.trimLeft (yearChars year ++ rest) = yearChars year ++ rest := by
  rw [yearChars]
  split_ifs
  · exact trimLeft_padded 4 _ rest
  · exact trimLeft_cons (by decide) _
  · exact trimLeft_cons (by decide) _

theorem readFraction_fractionChars {nano : Nat} (h : nano < 1000000000) {c : Char}
    (hc : c.isDigit = false) (hpoint : c ≠ '.') (rest : List Char) :
    readFraction (fractionChars nano ++ c :: rest) = some (nano, c :: rest) := by
  have hdigits : ∀ width n, (padded width n ++ c :: rest).takeWhile Char.isDigit =
      padded width n := by
    intro width n
    rw [List.takeWhile_append_of_pos fun _ => isDigit_of_mem_padded,
      List.takeWhile_cons_of_neg (Bool.eq_false_iff.mp hc), List.append_nil]
  have hread : ∀ width n, 0 < width → width ≤ 9 → n < Nat.pow 10 width →
      readFraction ('.' :: padded width n ++ c :: rest) =
        some (n * Nat.pow 10 (9 - width), c :: rest) := by
    intro width n hpos hwidth hn
    have hlength := length_padded hpos hn
    rw [List.cons_append, readFraction, hdigits, List.take_of_length_le (by omega), read?_padded,
      Option.map_some, List.drop_left, hlength]
  rw [fractionChars]
  -- Groups of three digits are left out only if they are zero.
  split_ifs with hzero hmillis hmicros
  · rw [hzero, List.nil_append, readFraction]
    rintro r ⟨⟩
    exact hpoint rfl
  · rw [hread 3 _ (by decide) (by decide) (by change _ < 1000; omega)]
    congr 2
    change nano / 1000000 * 1000000 = nano
    omega
  · rw [hread 6 _ (by decide) (by decide) (by change _ < 1000000; omega)]
    congr 2
    change nano / 1000 * 1000 = nano
    omega
  · rw [hread 9 _ (by decide) (by decide) h]
    congr 2
    exact Nat.mul_one nano

/-! ### Points in time -/

/-- The point in time is one that a clock can show: the second lies in a day, its nanoseconds in the
second, which lasts longer only at the end of a minute, and the day has a date. -/
structure IsValid (t : Timestamp) : Prop where
  second_lt : t.second < 86400
  nano_lt : t.nano < 1000000000 ∨ t.second % 60 = 59 ∧ t.nano < 2000000000
  yearInRange : yearInRange (Calendar.Date.ofDays t.day).year = true

variable {t : Timestamp}

/-- A point in time is that of its own date and time of day. -/
theorem ofLocal?_of_isValid (h : t.IsValid) :
    ofLocal? (Calendar.Date.ofDays t.day) (t.second / 3600) (t.second / 60 % 60)
      (t.second % 60 + t.nano / 1000000000) (t.nano % 1000000000) 0 = some t := by
  obtain ⟨hsecond, hnano, hyear⟩ := h
  obtain ⟨leap, hleap⟩ : ∃ leap, t.nano / 1000000000 = leap := ⟨_, rfl⟩
  -- The second of a minute is the sixtieth exactly if it is a leap second.
  have hsixty : (if t.second % 60 + leap = 60 then 1 else 0) = leap := by
    split_ifs <;> omega
  have hclock : ((t.second / 3600 : Nat) * 60 + (t.second / 60 % 60 : Nat)) * 60 +
      ((t.second % 60 + leap - leap : Nat) : Int) - 0 = t.second := by omega
  have hday : (Calendar.Date.ofDays t.day).toDays + (t.second : Int) / 86400 = t.day := by
    rw [Calendar.Date.toDays_ofDays]
    omega
  have hrest : ((t.second : Int) % 86400).toNat = t.second := by omega
  have hnanos : leap * 1000000000 + t.nano % 1000000000 = t.nano := by omega
  have hhour : t.second / 3600 < 24 := by omega
  have hminute : t.second / 60 % 60 < 60 := by omega
  have hlast : t.second % 60 + leap ≤ 60 := by omega
  simp only [ofLocal?, hleap, hsixty, hclock, hday, hrest, hnanos, hyear,
    Calendar.Date.isValid_ofDays, hhour, hminute, hlast]
  rfl

/-- A point in time is read back from its text form. -/
theorem read?_render (h : t.IsValid) : read? t.render = some t := by
  obtain ⟨hmonth, hday⟩ := Calendar.Date.bounds_of_isValid (Calendar.Date.isValid_ofDays t.day)
  have hsecond := h.second_lt
  have hsixty : t.second % 60 + t.nano / 1000000000 < 100 := by
    have hnano := h.nano_lt
    omega
  have hoffset : readOffset (Text.trimLeft ['Z']) = some (0, []) := by decide +kernel
  rw [read?, render, String.toList_ofList, localChars]
  simp only [List.append_assoc, List.cons_append]
  rw [readChars?, trimLeft_yearChars, readYear_yearChars _ rfl]
  simp only [bind, Option.bind_some]
  rw [readPartAfter_cons (by decide) (by omega), Option.bind_some,
    readPartAfter_cons (by decide) (by omega), Option.bind_some]
  simp only [true_or, if_true]
  rw [trimLeft_padded, readNumber_two (by omega), Option.bind_some,
    readPartAfter_cons (by decide) (by omega), Option.bind_some,
    readPartAfter_cons (by decide) hsixty, Option.bind_some,
    readFraction_fractionChars (Nat.mod_lt _ (by decide)) (by decide) (by decide),
    Option.bind_some, hoffset, Option.bind_some]
  exact ofLocal?_of_isValid h

/-! ### What can be read -/

theorem lt_of_readFraction {s rest : List Char} {nano : Nat}
    (h : readFraction s = some (nano, rest)) : nano < 1000000000 := by
  unfold readFraction at h
  split at h
  · rename_i r
    obtain ⟨n, hn, hnano⟩ := Option.map_eq_some_iff.mp h
    obtain rfl := (Prod.mk.inj hnano).1
    -- Nine digits at most are kept, and zeros stand for those that are missing.
    have hkept := List.length_take_le 9 (r.takeWhile Char.isDigit)
    generalize (r.takeWhile Char.isDigit).take 9 = kept at hn hkept
    calc n * Nat.pow 10 (9 - kept.length)
        < Nat.pow 10 kept.length * Nat.pow 10 (9 - kept.length) :=
          Nat.mul_lt_mul_of_pos_right (Decimal.lt_pow_of_read? hn) (Nat.pow_pos (by decide))
      _ = Nat.pow 10 (kept.length + (9 - kept.length)) := (Nat.pow_add 10 _ _).symm
      _ = 1000000000 := by rw [Nat.add_sub_cancel' hkept]
  · cases h
    decide

/-- Offsets are told in minutes. -/
theorem mod_sixty_of_readOffset {s rest : List Char} {offset : Int}
    (h : readOffset s = some (offset, rest)) : offset % 60 = 0 := by
  unfold readOffset at h
  split at h
  · cases h
    rfl
  · split at h
    · cases h
      rfl
    · cases h
      rfl
    · split at h
      · simp only [bind, Option.bind_eq_some_iff, Prod.exists] at h
        obtain ⟨hours, r, -, minutes, r', -, h⟩ := h
        split at h
        · cases h
          split <;> omega
        · cases h
      · cases h
    · cases h

theorem isValid_of_ofLocal? {date : Calendar.Date} {hour minute second nano : Nat} {offset : Int}
    (hnano : nano < 1000000000) (hoffset : offset % 60 = 0)
    (h : ofLocal? date hour minute second nano offset = some t) : t.IsValid := by
  simp only [ofLocal?] at h
  generalize hleap : (if second = 60 then 1 else 0) = leap at h
  have hsixty : leap = 0 ∨ leap = 1 ∧ second = 60 := by
    split_ifs at hleap <;> omega
  split_ifs at h with hranges
  simp only [Bool.and_eq_true, decide_eq_true_iff] at hranges
  obtain ⟨-, hyear⟩ := hranges
  cases h
  refine ⟨?_, ?_, hyear⟩
  · dsimp only
    omega
  · dsimp only
    obtain rfl | ⟨rfl, rfl⟩ := hsixty
    · left
      omega
    · right
      constructor
      · -- The minute ends with the leap second, since offsets are told in minutes.
        omega
      · omega

/-- A text names a point in time that a clock can show. -/
theorem isValid_of_read? {s : String} (h : read? s = some t) : t.IsValid := by
  simp only [read?, readChars?, bind, Option.bind_eq_some_iff, Prod.exists] at h
  obtain ⟨year, s, -, month, s, -, day, s, -, h⟩ := h
  split at h
  · cases h
  · split_ifs at h
    simp only [Option.bind_eq_some_iff, Prod.exists] at h
    obtain ⟨hour, s, -, minute, s, -, second, s, -, nano, s, hnano, offset, s, hoffset, h⟩ := h
    split_ifs at h
    exact isValid_of_ofLocal? (lt_of_readFraction hnano) (mod_sixty_of_readOffset hoffset) h

end Timestamp

end HeadScout
