import HeadScout.Payload.RepositoryBody

/-!
# Identity of repositories

Two repositories are the same if their owners and their names are, whatever the case of letters. A
repository can also be compared with a full name, and then owner and name are joined before they are
compared. The two comparisons could differ: a slash that belongs to an owner looks like the one that
ends it, so `a/b` with the name `c` has the full name of `a` with the name `b/c`. A full name is cut
at its first slash, so no owner that was read from one holds a slash, and for such repositories the
comparisons agree.

## Main definitions

* `Repository.IsQualified` — the repository was read from a full name

## Main results

* `Repository.IsQualified.slash_not_mem_owner` — its owner holds no slash
* `Repository.matchesFullName_iff_isSameAs` — both comparisons agree
-/

namespace HeadScout

/-! ### Slashes and the case of letters -/

theorem Text.toLower_eq_slash_iff (c : Char) : c.toLower = '/' ↔ c = '/' := by
  constructor
  · intro h
    by_cases hcapital : c.val ≥ 'A'.val ∧ c.val ≤ 'Z'.val
    · -- A capital is mapped to a small letter, and a slash is none.
      have hval := congrArg Char.val ((dif_pos hcapital).symm.trans h)
      have hnat := congrArg UInt32.toNat hval
      simp only [ge_iff_le, UInt32.le_iff_toNat_le] at hcapital
      simp only [UInt32.toNat_add] at hnat
      simp at hcapital hnat
      omega
    · exact (dif_neg hcapital).symm.trans h
  · rintro rfl
    rfl

theorem Text.slash_mem_lower_iff (s : String) :
    '/' ∈ (lower s).toList ↔ '/' ∈ s.toList := by
  rw [toList_lower, List.mem_map]
  constructor
  · rintro ⟨c, hc, hlower⟩
    exact (toLower_eq_slash_iff c).mp hlower ▸ hc
  · intro h
    exact ⟨'/', h, rfl⟩

namespace Repository

variable {a b : Repository}

/-! ### Same parts -/

theorem isSameAs_iff :
    a.isSameAs b = true ↔
      Text.lower a.owner.text = Text.lower b.owner.text ∧
        Text.lower a.name.text = Text.lower b.name.text := by
  rw [isSameAs, Bool.and_eq_true, Identifier.sameName, Identifier.sameName, Text.sameLetters_iff,
    Text.sameLetters_iff]

theorem isSameAs_comm (a b : Repository) : a.isSameAs b = b.isSameAs a := by
  rw [Bool.eq_iff_iff, isSameAs_iff, isSameAs_iff, eq_comm, and_congr_right_iff]
  exact fun _ => eq_comm

/-! ### Same full names -/

theorem lower_fullName (a : Repository) :
    Text.lower a.fullName =
      Text.lower a.owner.text ++ String.ofList ['/'] ++ Text.lower a.name.text := by
  have hslash : Text.lower "/" = String.ofList ['/'] := Text.lower_eq_self rfl
  rw [fullName, Text.lower_append, Text.lower_append, hslash]

/-- Cutting a full name in small letters gives owner and name, unless the owner holds a slash. -/
theorem splitFirst?_lower_fullName (ha : '/' ∉ a.owner.text.toList) :
    Text.splitFirst? '/' (Text.lower a.fullName) =
      some (Text.lower a.owner.text, Text.lower a.name.text) :=
  Text.splitFirst?_eq_some_iff.mpr ⟨mt (Text.slash_mem_lower_iff _).mp ha, a.lower_fullName⟩

/-- Whether two repositories are the same can be told from their full names, if no owner holds a
slash. -/
theorem matchesFullName_iff_isSameAs (ha : '/' ∉ a.owner.text.toList)
    (hb : '/' ∉ b.owner.text.toList) :
    a.matchesFullName b.fullName = true ↔ a.isSameAs b = true := by
  rw [matchesFullName, Text.sameLetters_iff, isSameAs_iff]
  constructor
  · intro h
    have hsplit := splitFirst?_lower_fullName ha
    rw [h, splitFirst?_lower_fullName hb] at hsplit
    obtain ⟨howner, hname⟩ := Prod.mk.inj (Option.some.inj hsplit)
    exact ⟨howner.symm, hname.symm⟩
  · rintro ⟨howner, hname⟩
    rw [lower_fullName, lower_fullName, howner, hname]

/-! ### Where repositories come from -/

/-- The repository was read from a full name, which stood alone or in a body of Cloud. -/
def IsQualified (r : Repository) : Prop :=
  (∃ s, ofFullName? s = some r) ∨
    ∃ document body, Payload.CloudRepository.toRepository document body = .ok r

theorem slash_not_mem_owner_of_ofFullName? {s : String} {r : Repository}
    (h : ofFullName? s = some r) : '/' ∉ r.owner.text.toList := by
  obtain ⟨owner, name, -, hslash, -, -, rfl⟩ := ofFullName?_eq_some_iff.mp h
  exact hslash

theorem IsQualified.slash_not_mem_owner {r : Repository} (h : r.IsQualified) :
    '/' ∉ r.owner.text.toList := by
  obtain ⟨s, hs⟩ | ⟨document, body, hbody⟩ := h
  · exact slash_not_mem_owner_of_ofFullName? hs
  · obtain ⟨known, hknown, howner, -⟩ :=
      Payload.CloudRepository.toRepository_eq_ok_iff.mp hbody
    rw [howner]
    exact slash_not_mem_owner_of_ofFullName? hknown

/-- The two comparisons agree on repositories that were read from full names. -/
theorem IsQualified.matchesFullName_iff (ha : a.IsQualified) (hb : b.IsQualified) :
    a.matchesFullName b.fullName = true ↔ a.isSameAs b = true :=
  matchesFullName_iff_isSameAs ha.slash_not_mem_owner hb.slash_not_mem_owner

end Repository

end HeadScout
