import HeadScout.Proofs.Json.Printing
import HeadScout.Proofs.Json.Record

/-!
# Records as they are written

A record is written as an object with exactly its fields, in their order. Reading finds each field
again, and what was absent as absent. Numbers are written without sign, point and exponent, so
documents are read back from their text, and numbers of 64 bits can also be kept.

## Main results

* `Json.hasWrittenNumbers_record` — records of fields that can be printed and read back are such
* `Json.members?_record` — a written record has its fields
* `Json.nullable?_orNull` — what may be absent is read as it was written
* `Json.list?_map` — so is a list
* `Json.Numeral.isFinite_ofNat` — a number of 64 bits can be kept
-/

namespace HeadScout.Json

/-! ### Numbers -/

theorem Numeral.isWritten_ofNat (n : Nat) : (ofNat n).IsWritten where
  whole_ne_nil := Decimal.digits_ne_nil n
  whole_lt _ := Decimal.lt_ten_of_mem_digits
  tail_eq_nil h := by
    rcases Nat.eq_zero_or_pos n with rfl | hpos
    · rw [ofNat, Decimal.digits, if_pos (by decide)]
      rfl
    · exact absurd h (Decimal.head?_digits_ne_zero hpos)
  fraction_lt _ h := absurd h List.not_mem_nil

/-- Digits that stay below the bound are all gathered. -/
theorem gather_eq {significand : Nat} {ds : List Nat}
    (h : ds.foldl (fun n d => 10 * n + d) significand < Nat.pow 2 64) :
    gather significand ds = (ds.foldl (fun n d => 10 * n + d) significand, []) := by
  induction ds generalizing significand with
  | nil => rfl
  | cons d ds ih =>
    -- Further digits make a number only larger, so it was below the bound before them.
    have hle : ∀ (ds : List Nat) (n : Nat), n ≤ ds.foldl (fun n d => 10 * n + d) n := by
      intro ds
      induction ds with
      | nil => exact Nat.le_refl
      | cons d ds ih =>
        intro n
        exact Nat.le_trans (by omega) (ih (10 * n + d))
    have hlt : 10 * significand + d < Nat.pow 2 64 := Nat.lt_of_le_of_lt (hle ds _) h
    rw [gather, if_pos hlt, ih h]
    rfl

/-- Rounding at most doubles a number. -/
theorem roundBinary_le {bits : Nat} (hbits : 0 < bits) (n : Nat) : roundBinary bits n ≤ 2 * n := by
  rw [roundBinary]
  split_ifs with hsmall
  · exact Nat.le_mul_of_pos_left n Nat.two_pos
  · have hn : n ≠ 0 := by
      rintro rfl
      exact hsmall (Nat.pow_pos Nat.two_pos)
    have hunit : Nat.pow 2 (n.log2 + 1 - bits) ≤ n :=
      Nat.le_trans (Nat.pow_le_pow_right Nat.two_pos (by omega)) (Nat.log2_self_le hn)
    have hquotient := Nat.div_mul_le_self n (Nat.pow 2 (n.log2 + 1 - bits))
    dsimp only
    split_ifs
    · omega
    · -- Rounding up adds one unit, which is no more than the number itself.
      rw [Nat.add_mul, Nat.one_mul]
      omega

/-- A number of 64 bits can be kept. -/
theorem Numeral.isFinite_ofNat {n : Nat} (h : n < UInt64.size) : (ofNat n).isFinite = true := by
  have hvalue : (Decimal.digits n).foldl (fun n d => 10 * n + d) 0 = n := Decimal.value_digits n
  have hgather : gather 0 (Decimal.digits n) = (n, []) := by
    rw [gather_eq (by rw [hvalue]; exact h), hvalue]
  have hscaled : (ofNat n).scaled = (n, 0) := by
    simp [scaled, ofNat, hgather, gather]
  have hone : roundBinary 53 (Nat.pow 10 (0 : Int).toNat) = 1 := by decide
  have hrounded : roundBinary 53 n < overflowBound :=
    Nat.lt_of_lt_of_le (Nat.lt_of_le_of_lt (roundBinary_le (by decide) n)
      (Nat.mul_lt_mul_of_pos_left h Nat.two_pos)) (by decide +kernel)
  rw [isFinite, hscaled]
  dsimp only
  rw [hone, Nat.mul_one, decide_eq_true hrounded]
  simp

@[simp] theorem isStorable_text (s : String) (depth : Nat) : (text s).isStorable depth = true := rfl

theorem isStorable_nat {n : Nat} (h : n < UInt64.size) (depth : Nat) :
    (nat n).isStorable depth = true := Numeral.isFinite_ofNat h

/-! ### Documents that can be printed and read back -/

@[simp] theorem hasWrittenNumbers_null : HasWrittenNumbers .null :=
  fun _ h => absurd h List.not_mem_nil

@[simp] theorem hasWrittenNumbers_bool (b : Bool) : (bool b).HasWrittenNumbers :=
  fun _ h => absurd h List.not_mem_nil

@[simp] theorem hasWrittenNumbers_text (s : String) : (text s).HasWrittenNumbers := by
  intro n h
  cases List.mem_singleton.mp h

@[simp] theorem hasWrittenNumbers_nat (n : Nat) : (nat n).HasWrittenNumbers := by
  intro m h
  cases List.mem_singleton.mp h
  exact Numeral.isWritten_ofNat n

variable {α : Type}

theorem hasWrittenNumbers_orNull {write : α → Json} (h : ∀ a, (write a).HasWrittenNumbers)
    (o : Option α) : (orNull write o).HasWrittenNumbers := by
  cases o with
  | none => exact hasWrittenNumbers_null
  | some a => exact h a

theorem hasWrittenNumbers_array {vs : List Json} (h : ∀ v ∈ vs, v.HasWrittenNumbers) :
    (array vs).HasWrittenNumbers := by
  induction vs with
  | nil => exact fun _ hn => absurd hn List.not_mem_nil
  | cons v vs ih =>
    intro n hn
    rcases List.mem_append.mp hn with hn | hn
    · exact h v List.mem_cons_self n hn
    · exact ih (fun w hw => h w (List.mem_cons_of_mem v hw)) n hn

theorem hasWrittenNumbers_record {ms : List (String × Json)}
    (h : ∀ m ∈ ms, m.2.HasWrittenNumbers) : (record ms).HasWrittenNumbers := by
  induction ms with
  | nil => exact fun _ hn => absurd hn List.not_mem_nil
  | cons m ms ih =>
    intro n hn
    rcases List.mem_cons.mp hn with hn | hn
    · cases hn
    · rcases List.mem_append.mp hn with hn | hn
      · exact h m List.mem_cons_self n hn
      · exact ih (fun w hw => h w (List.mem_cons_of_mem m hw)) n hn

/-! ### Reading what was written -/

variable {fields : List Field} {ms : List (String × Json)}

/-- Every member of a written record is one of its fields. -/
theorem known_record (h : ∀ m ∈ ms, fields.any (·.name == m.1) = true) :
    known fields (ms.map fun (name, v) => (some name, v)) = ms := by
  induction ms with
  | nil => rfl
  | cons m ms ih =>
    rw [List.map_cons, known_cons_some, if_pos (h m List.mem_cons_self),
      ih fun m' hm' => h m' (List.mem_cons_of_mem m hm')]

@[simp] theorem text?_text (s : String) : (text s).text? = some s := rfl

/-- A written record has its fields. -/
theorem members?_record (hnames : ms.map Prod.fst = fields.map (·.name))
    (hnodup : (fields.map (·.name)).Nodup) (repeats : Repeats) :
    (record ms).members? fields repeats = some ms := by
  have hfields : ∀ m ∈ ms, fields.any (·.name == m.1) = true := by
    intro m hm
    have hname : m.1 ∈ fields.map (·.name) := hnames ▸ List.mem_map_of_mem hm
    obtain ⟨f, hf, hfm⟩ := List.mem_map.mp hname
    exact List.any_eq_true.mpr ⟨f, hf, beq_iff_eq.mpr hfm⟩
  rw [record, members?, known_record hfields, hnames]
  simp [hnodup]

/-- A value that may be `null`. -/
def nullable? (read : Json → Option α) : Json → Option (Option α)
  | .null => some none
  | v => (read v).map some

theorem optional_eq (ms : Members) (name : String) (read : Json → Option α) :
    ms.optional name read = (ms.get? name).elim (some none) (nullable? read) := by
  rw [Members.optional]
  cases ms.get? name with
  | none => rfl
  | some v => cases v <;> rfl

/-- What may be absent is read as it was written. -/
theorem nullable?_orNull {read : Json → Option α} {write : α → Json}
    (hread : ∀ a, nullable? read (write a) = some (some a)) (o : Option α) :
    nullable? read (orNull write o) = some o := by
  cases o with
  | none => rfl
  | some a => exact hread a

/-- A list is read as it was written. -/
theorem list?_map {read : Json → Option α} {write : α → Json} {as : List α}
    (h : ∀ a ∈ as, read (write a) = some a) : list? read (.array (as.map write)) = some as := by
  rw [list?]
  induction as with
  | nil => rfl
  | cons a as ih =>
    rw [List.map_cons, List.mapM_cons, h a List.mem_cons_self,
      ih fun b hb => h b (List.mem_cons_of_mem a hb)]
    rfl

/-- What holds of all that is read holds of the items of a list that is read. -/
theorem list?_forall {read : Json → Option α} {P : α → Prop} (h : ∀ v a, read v = some a → P a)
    {v : Json} {as : List α} (hread : list? read v = some as) : ∀ a ∈ as, P a := by
  cases v with
  | array vs =>
    rw [list?] at hread
    induction vs generalizing as with
    | nil =>
      cases hread
      exact List.forall_mem_nil P
    | cons v vs ih =>
      simp only [List.mapM_cons, bind, Option.bind_eq_some_iff, pure, Option.some.injEq] at hread
      obtain ⟨a, ha, as, has, rfl⟩ := hread
      exact List.forall_mem_cons.mpr ⟨h v a ha, ih has⟩
  | _ => cases hread

theorem partition_of_head {β : Type} {p : β → Bool} {b : β} {bs : List β} (hb : p b = true)
    (hbs : ∀ c ∈ bs, p c = false) : (b :: bs).partition p = ([b], bs) := by
  rw [List.partition_eq_filter_filter, List.filter_cons_of_pos hb,
    List.filter_cons_of_neg (by simp [hb]), List.filter_eq_nil_iff.mpr (by simpa using hbs),
    List.filter_eq_self.mpr (by simpa using hbs)]

/-- A tagged record is told by its tag, if its other members can be kept. -/
theorem tagged?_record {tag kind : String} {depth : Nat} (hne : ∀ m ∈ ms, m.1 ≠ tag)
    (hstorable : ∀ m ∈ ms, m.2.isStorable (depth + 1) = true) :
    (record ((tag, text kind) :: ms)).tagged? tag depth = some (kind, record ms) := by
  have hothers : ∀ m ∈ ms.map fun m => (some m.1, m.2), (m.1 == some tag) = false := by
    intro m hm
    obtain ⟨m', hm', rfl⟩ := List.mem_map.mp hm
    simpa using hne m' hm'
  -- The tag stands first, and no other member has its name.
  have hpartition : ((some tag, text kind) :: ms.map fun m => (some m.1, m.2)).partition
      (fun m => m.1 == some tag) = ([(some tag, text kind)], ms.map fun m => (some m.1, m.2)) :=
    partition_of_head (beq_self_eq_true _) hothers
  have hkept : membersStorable (depth + 1) (ms.map fun m => (some m.1, m.2)) = true := by
    rw [membersStorable_eq_all, List.all_map, List.all_eq_true]
    exact hstorable
  simp only [record, List.map_cons, tagged?]
  rw [hpartition]
  exact if_pos hkept

end HeadScout.Json
