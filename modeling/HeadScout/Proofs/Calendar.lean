import HeadScout.Calendar

/-!
# Days and dates

Every count of days belongs to one date. An era of 400 years has four centuries of 36524 days, of
which the last one has a day more. A century has 25 cycles of four years with 1461 days, of which
the last one may lack a day. A cycle has four years of 365 days, of which the last one may have a
day more. The years go from March to February, so all these odd days are the last day of a February.

## Main results

* `Calendar.exists_cycles` — a day of an era by centuries, cycles and years
* `Calendar.Date.toDays_ofDays` — the date of a day stands for that day
* `Calendar.Date.isValid_ofDays` — and is a date of the calendar
-/

namespace HeadScout.Calendar

/-- The centuries of an era that have gone by before one of its days. -/
theorem exists_century {n : Int} (h0 : 0 ≤ n) (h : n < 146097) :
    ∃ century day : Int, n = 36524 * century + day ∧ n / 36524 - n / 146096 = century ∧
      0 ≤ century ∧ century ≤ 3 ∧ 0 ≤ day ∧ (day < 36524 ∨ day = 36524 ∧ century = 3) :=
  ⟨n / 36524 - n / 146096, n - 36524 * (n / 36524 - n / 146096), by omega, rfl, by omega, by omega,
    by omega, by omega⟩

/-- The years of a cycle that have gone by before one of its days. -/
theorem exists_year {n : Int} (h0 : 0 ≤ n) (h : n ≤ 1460) :
    ∃ year day : Int, n = 365 * year + day ∧ 0 ≤ year ∧ year ≤ 3 ∧ 0 ≤ day ∧ day ≤ 365 ∧
      (day = 365 ↔ n = 1460) ∧ (n < 1460 → n / 365 = year) ∧ (1364 ≤ n → year = 3) := by
  by_cases hlast : n = 1460
  · exact ⟨3, 365, by omega, by omega, by omega, by omega, by omega, by omega, by omega, by omega⟩
  · exact ⟨n / 365, n % 365, by omega, by omega, by omega, by omega, by omega, by omega,
      fun _ => rfl, by omega⟩

/-- A day of an era lies in a century, in a cycle of four years, and in a year of the cycle. Only
the fourth year of a cycle can have 366 days, and then the next year number is that of a leap
year. -/
theorem exists_cycles {n : Int} (h0 : 0 ≤ n) (h : n < 146097) :
    ∃ century cycle year day : Int, n = 36524 * century + 1461 * cycle + 365 * year + day ∧
      (n - n / 1460 + n / 36524 - n / 146096) / 365 = 100 * century + 4 * cycle + year ∧
      0 ≤ century ∧ century ≤ 3 ∧ 0 ≤ cycle ∧ cycle ≤ 24 ∧ 0 ≤ year ∧ year ≤ 3 ∧
      0 ≤ day ∧ day ≤ 365 ∧ (day = 365 → year = 3 ∧ (cycle < 24 ∨ century = 3)) := by
  obtain ⟨century, m, hm, hcentury, hcentury0, hcentury3, hm0, hmlast⟩ := exists_century h0 h
  obtain ⟨cycle, rest, hrest, hcycle0, hcycle24, hrest0, hrest1460, hshort⟩ : ∃ cycle rest : Int,
      m = 1461 * cycle + rest ∧ 0 ≤ cycle ∧ cycle ≤ 24 ∧ 0 ≤ rest ∧ rest ≤ 1460 ∧
        (rest = 1460 → cycle < 24 ∨ century = 3) :=
    ⟨m / 1461, m % 1461, by omega, by omega, by omega, by omega, by omega, by omega⟩
  obtain ⟨year, day, hday, hyear0, hyear3, hday0, hday365, hlast, hyear, hfourth⟩ :=
    exists_year hrest0 hrest1460
  refine ⟨century, cycle, year, day, by omega, ?_, hcentury0, hcentury3, hcycle0, hcycle24, hyear0,
    hyear3, hday0, hday365, fun h365 => ⟨by omega, hshort (hlast.mp h365)⟩⟩
  have hsum : n - n / 1460 + n / 36524 - n / 146096 = n - n / 1460 + century := by omega
  rw [hsum]
  clear hsum hcentury hmlast h hshort hlast
  -- Leap days are counted by cycles, and in the last days of a cycle one too early.
  have hleap : n / 1460 = 25 * century + cycle ∧ rest < 1460 ∨
      n / 1460 = 25 * century + cycle + 1 ∧ 1364 ≤ rest := by omega
  obtain ⟨hcount, hearly⟩ | ⟨hcount, hlate⟩ := hleap
  · have hyear' := hyear hearly
    rw [hcount]
    omega
  · have hyear' := hfourth hlate
    rw [hcount]
    omega

/-- How many cycles, centuries and eras have gone by before a year. -/
theorem counts_of_year (era : Int) {century cycle year : Int} (hc0 : 0 ≤ century)
    (hc3 : century ≤ 3) (hcycle0 : 0 ≤ cycle) (hcycle24 : cycle ≤ 24) (hy0 : 0 ≤ year)
    (hy3 : year ≤ 3) :
    (100 * century + 4 * cycle + year + era * 400) / 4 = 25 * century + cycle + 100 * era ∧
      (100 * century + 4 * cycle + year + era * 400) / 100 = century + 4 * era ∧
      (100 * century + 4 * cycle + year + era * 400) / 400 = era := by
  refine ⟨?_, ?_, ?_⟩ <;> omega

namespace Date

/-- The date of a day of a year that begins with March. -/
def ofMarch (year day : Int) : Date :=
  let monthFromMarch := (5 * day + 2) / 153
  let month := if monthFromMarch < 10 then monthFromMarch + 3 else monthFromMarch - 9
  ⟨year + (if month ≤ 2 then 1 else 0), month.toNat,
    (day - (153 * monthFromMarch + 2) / 5 + 1).toNat⟩

/-- Every count of days is that of a day of some year, and the 366th day of a year ends the February
of a leap year. -/
theorem exists_ofDays_eq_ofMarch (n : Int) :
    ∃ year day : Int, ofDays n = ofMarch year day ∧ 0 ≤ day ∧ day ≤ 365 ∧
      (day = 365 → isLeap (year + 1) = true) ∧
      n + 719468 = 365 * year + year / 4 - year / 100 + year / 400 + day := by
  obtain ⟨era, dayOfEra, hn, h0, h1, hera, hdayOfEra⟩ : ∃ era dayOfEra : Int,
      n + 719468 = era * 146097 + dayOfEra ∧ 0 ≤ dayOfEra ∧ dayOfEra < 146097 ∧
        (n + 719468) / 146097 = era ∧ (n + 719468) % 146097 = dayOfEra :=
    ⟨_, _, by omega, by omega, by omega, rfl, rfl⟩
  obtain ⟨century, cycle, year, day, hday, hyear, hc0, hc3, hcycle0, hcycle24, hy0, hy3, hd0,
    hd365, hleap⟩ := exists_cycles h0 h1
  obtain ⟨hcycles, hcenturies, heras⟩ :=
    counts_of_year era hc0 hc3 hcycle0 hcycle24 hy0 hy3
  refine ⟨100 * century + 4 * cycle + year + era * 400, day, ?_, hd0, hd365, ?_, ?_⟩
  · have hdayOfYear : dayOfEra - (365 * (100 * century + 4 * cycle + year) +
        (100 * century + 4 * cycle + year) / 4 - (100 * century + 4 * cycle + year) / 100) =
          day := by
      -- The same counts of cycles and centuries, in the first era.
      obtain ⟨hcycles, hcenturies, -⟩ := counts_of_year 0 hc0 hc3 hcycle0 hcycle24 hy0 hy3
      rw [Int.zero_mul, Int.add_zero] at hcycles hcenturies
      rw [hcycles, hcenturies]
      clear hyear hera hdayOfEra hcycles hcenturies
      omega
    simp only [ofDays, hera, hdayOfEra, hyear, hdayOfYear]
    rfl
  · intro h365
    obtain ⟨rfl, hshort⟩ := hleap h365
    clear hyear hera hdayOfEra hcycles hcenturies heras hn hday
    simp only [isLeap, Bool.and_eq_true, Bool.or_eq_true, beq_iff_eq, bne_iff_ne]
    omega
  · rw [hcycles, hcenturies, heras]
    clear hyear hera hdayOfEra hcycles hcenturies heras
    omega

/-- Months begin where the count of their days says, and there are twelve of them. -/
theorem month_bounds {day : Int} (h0 : 0 ≤ day) (h : day ≤ 365) :
    0 ≤ (5 * day + 2) / 153 ∧ (5 * day + 2) / 153 ≤ 11 ∧
      0 ≤ day - (153 * ((5 * day + 2) / 153) + 2) / 5 + 1 := by
  exact ⟨by omega, by omega, by omega⟩

/-- Eras and the years in them count the same days as years alone. -/
theorem days_of_year (year : Int) :
    year / 400 * 146097 + (year % 400 * 365 + year % 400 / 4 - year % 400 / 100) =
      365 * year + year / 4 - year / 100 + year / 400 := by
  have hcycles : year % 400 / 4 = year / 4 - 100 * (year / 400) := by omega
  have hcenturies : year % 400 / 100 = year / 100 - 4 * (year / 400) := by omega
  rw [hcycles, hcenturies]
  omega

/-- A date stands for the days of the years before it, and the days of its own year. -/
theorem toDays_ofMarch (year : Int) {day : Int} (h0 : 0 ≤ day) (h : day ≤ 365) :
    (ofMarch year day).toDays =
      365 * year + year / 4 - year / 100 + year / 400 + day - 719468 := by
  obtain ⟨hmonth0, hmonth11, hday0⟩ := month_bounds h0 h
  rw [← days_of_year, ofMarch]
  generalize (5 * day + 2) / 153 = month at hmonth0 hmonth11 hday0 ⊢
  have hday := Int.toNat_of_nonneg hday0
  generalize (day - (153 * month + 2) / 5 + 1).toNat = dayOfMonth at hday ⊢
  by_cases hearly : month < 10
  · -- The date lies in March or later.
    have hlate : ¬ (month + 3).toNat ≤ 2 := by omega
    have hlate' : ¬ month + 3 ≤ 2 := by omega
    have hcast : ((month + 3).toNat : Int) = month + 3 := Int.toNat_of_nonneg (by omega)
    simp only [toDays, if_pos hearly, if_neg hlate, if_neg hlate', hcast, hday]
    have hback : month + 3 - 3 = month := by omega
    rw [hback, Int.add_zero]
    omega
  · -- The date lies in January or February, which belong to the next year.
    have hlate : (month - 9).toNat ≤ 2 := by omega
    have hlate' : month - 9 ≤ 2 := by omega
    have hcast : ((month - 9).toNat : Int) = month - 9 := Int.toNat_of_nonneg (by omega)
    simp only [toDays, if_neg hearly, if_pos hlate, if_pos hlate', hcast, hday]
    have hback : month - 9 + 9 = month := by omega
    have hyear : year + 1 - 1 = year := by omega
    rw [hback, hyear]
    omega

theorem isValid_ofMarch {year day : Int} (h0 : 0 ≤ day) (h : day ≤ 365)
    (hleap : day = 365 → isLeap (year + 1) = true) : (ofMarch year day).isValid = true := by
  rw [ofMarch]
  obtain ⟨month, hmonth⟩ : ∃ month : Int, (5 * day + 2) / 153 = month := ⟨_, rfl⟩
  have hcases : month = 0 ∨ month = 1 ∨ month = 2 ∨ month = 3 ∨ month = 4 ∨ month = 5 ∨
      month = 6 ∨ month = 7 ∨ month = 8 ∨ month = 9 ∨ month = 10 ∨ month = 11 := by omega
  simp only [isValid, hmonth, Bool.and_eq_true, decide_eq_true_iff]
  -- The months from March to January have a number of days of their own, whatever the year.
  rcases hcases with rfl | rfl | rfl | rfl | rfl | rfl | rfl | rfl | rfl | rfl | rfl | rfl
  iterate 11
    · simp [daysInMonth]
      omega
  · -- February has the day that a leap year has more.
    simp only [daysInMonth]
    cases hfebruary : isLeap (year + 1) with
    | true => simp [hfebruary]; omega
    | false =>
      have hlast : day ≠ 365 := fun h365 => by rw [hleap h365] at hfebruary; cases hfebruary
      simp [hfebruary]
      omega

/-- The date of a day stands for that day. -/
theorem toDays_ofDays (n : Int) : (ofDays n).toDays = n := by
  obtain ⟨year, day, hdate, h0, h365, -, hn⟩ := exists_ofDays_eq_ofMarch n
  rw [hdate, toDays_ofMarch year h0 h365]
  omega

/-- There is such a date. -/
theorem isValid_ofDays (n : Int) : (ofDays n).isValid = true := by
  obtain ⟨year, day, hdate, h0, h365, hleap, -⟩ := exists_ofDays_eq_ofMarch n
  rw [hdate]
  exact isValid_ofMarch h0 h365 hleap

theorem bounds_of_isValid {d : Date} (h : d.isValid = true) : d.month ≤ 12 ∧ d.day ≤ 31 := by
  rw [isValid, Bool.and_eq_true, decide_eq_true_iff, decide_eq_true_iff] at h
  obtain ⟨h1, hday⟩ := h
  unfold daysInMonth at hday
  split at hday <;> first | omega | (split at hday <;> omega)

end Date

end HeadScout.Calendar
