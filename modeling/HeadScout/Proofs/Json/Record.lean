import HeadScout.Json.Record
import Mathlib.Data.List.Nodup

/-!
# Records in objects and arrays

A record is read from the members of an object that bear the names of its fields. Here the fields
are taken one at a time: an object is a record exactly if all its names are text and no field is
given twice, and a field then holds the last value that the members give it, whatever stands between
them. An array gives the fields their values by place.

## Main definitions

* `Json.valuesOf` — the values that some members give a name

## Main results

* `Json.get?_known` — the value of a field
* `Json.members?_object_eq_some_iff`, `Json.members?_array_eq_some_iff` — the objects and the arrays
  that are records
-/

namespace HeadScout.Json

/-- The values that some members give a name, in their order. -/
def valuesOf (name : String) (ms : List (Option String × Json)) : List Json :=
  ms.filterMap fun m => if m.1 = some name then some m.2 else none

variable {fields : List Field} {name : String} {ms : List (Option String × Json)}

/-! ### Looking up -/

theorem Members.get?_append_cons {v : Json} {xs ys : Members} (h : name ∉ ys.map Prod.fst) :
    Members.get? (xs ++ (name, v) :: ys) name = some v := by
  have hlast : ys.reverse.find? (·.1 == name) = none := by
    rw [List.find?_eq_none]
    intro m hm hname
    exact h (List.mem_map.mpr ⟨m, List.mem_reverse.mp hm, eq_of_beq hname⟩)
  simp [Members.get?, List.find?_append, hlast]

theorem Members.get?_append_cons_of_ne {n : String} {v : Json} {xs ys : Members} (h : n ≠ name) :
    Members.get? (xs ++ (name, v) :: ys) n = Members.get? (xs ++ ys) n := by
  simp [Members.get?, List.find?_append, beq_false_of_ne h.symm]

theorem notMem_zip {names : List String} {ws : List Json} (h : name ∉ names) :
    name ∉ (names.zip ws).map Prod.fst := by
  intro hmem
  obtain ⟨⟨n, w⟩, hzip, rfl⟩ := List.mem_map.mp hmem
  exact h (List.of_mem_zip hzip).1

/-! ### Objects -/

theorem valuesOf_cons_self (v : Json) :
    valuesOf name ((some name, v) :: ms) = v :: valuesOf name ms :=
  List.filterMap_cons_some (if_pos rfl)

theorem valuesOf_cons_of_ne {m : Option String × Json} (h : m.1 ≠ some name) :
    valuesOf name (m :: ms) = valuesOf name ms :=
  List.filterMap_cons_none (if_neg h)

theorem mem_valuesOf {m : Option String × Json} (hm : m ∈ ms) (hname : m.1 = some name) :
    m.2 ∈ valuesOf name ms :=
  List.mem_filterMap.mpr ⟨m, hm, if_pos hname⟩

theorem known_cons_none (v : Json) : known fields ((none, v) :: ms) = known fields ms := rfl

theorem known_cons_some (n : String) (v : Json) :
    known fields ((some n, v) :: ms) =
      if fields.any (·.name == n) then (n, v) :: known fields ms else known fields ms := by
  unfold known
  rw [List.filterMap_cons]
  simp only [Option.bind_some]
  split_ifs <;> rfl

/-- Among the members that are fields, a field has all the values that it has in the object. -/
theorem filterMap_known (h : fields.any (·.name == name) = true) :
    ((known fields ms).filter (·.1 == name)).map Prod.snd = valuesOf name ms := by
  induction ms with
  | nil => rfl
  | cons m ms ih =>
    obtain ⟨n, v⟩ := m
    cases n with
    | none =>
      rw [known_cons_none, ih, valuesOf_cons_of_ne (Option.some_ne_none name).symm]
    | some n =>
      rw [known_cons_some]
      by_cases hn : n = name
      · subst hn
        rw [if_pos h, valuesOf_cons_self, List.filter_cons_of_pos (by simp), List.map_cons, ih]
      · rw [valuesOf_cons_of_ne (by simpa using hn), ← ih]
        split_ifs
        · rw [List.filter_cons_of_neg (by simpa using hn)]
        · rfl

/-- A field holds the last value that the members give it. -/
theorem get?_known (h : fields.any (·.name == name) = true) :
    (known fields ms).get? name = (valuesOf name ms).getLast? := by
  rw [Members.get?, ← List.head?_filter, List.filter_reverse, List.head?_reverse,
    ← filterMap_known h, List.getLast?_map]

/-- A field that no member has cannot be read where it must be given. -/
theorem required_known_of_missing {α : Type} (h : valuesOf name ms = [])
    (hname : fields.any (·.name == name) = true) (read : Json → Option α) :
    (known fields ms).required name read = none := by
  rw [Members.required, get?_known hname, h]
  rfl

theorem length_valuesOf (h : fields.any (·.name == name) = true) :
    (valuesOf name ms).length = ((known fields ms).map (·.1)).count name := by
  rw [← filterMap_known h, List.length_map, ← List.countP_eq_length_filter, List.count,
    List.countP_map]
  rfl

theorem mem_map_fst_known (h : name ∈ (known fields ms).map (·.1)) :
    fields.any (·.name == name) = true := by
  obtain ⟨⟨n, v⟩, hm, rfl⟩ := List.mem_map.mp h
  obtain ⟨⟨m, w⟩, -, hsome⟩ := List.mem_filterMap.mp hm
  obtain ⟨k, -, hk⟩ := Option.bind_eq_some_iff.mp hsome
  split_ifs at hk with hany
  cases hk
  exact hany

/-- No field is given twice, told for each field on its own. -/
theorem nodup_known_iff :
    ((known fields ms).map (·.1)).Nodup ↔ ∀ f ∈ fields, (valuesOf f.name ms).length ≤ 1 := by
  rw [List.nodup_iff_count_le_one]
  constructor
  · intro h f hf
    rw [length_valuesOf (List.any_eq_true.mpr ⟨f, hf, beq_self_eq_true _⟩)]
    exact h f.name
  · intro h name
    by_cases hmem : name ∈ (known fields ms).map (·.1)
    · have hany := mem_map_fst_known hmem
      obtain ⟨f, hf, hname⟩ := List.any_eq_true.mp hany
      rw [← length_valuesOf hany, ← eq_of_beq hname]
      exact h f hf
    · -- The name of no field is found not even once.
      rw [List.count_eq_zero_of_not_mem hmem]
      exact Nat.zero_le 1

/-- An object is a record exactly if its names are text and no field is given twice. -/
theorem members?_object_eq_some_iff {found : Members} :
    members? fields .refused (.object ms) = some found ↔
      (∀ m ∈ ms, m.1.isSome = true) ∧ (∀ f ∈ fields, (valuesOf f.name ms).length ≤ 1) ∧
        found = known fields ms := by
  have hrepeats : (Repeats.refused == Repeats.lastStays) = false := rfl
  rw [members?, hrepeats, Bool.false_or, ← nodup_known_iff]
  split_ifs with h
  · rw [Bool.and_eq_true, List.all_eq_true, decide_eq_true_iff] at h
    rw [Option.some_inj, eq_comm]
    exact ⟨fun hfound => ⟨h.1, h.2, hfound⟩, fun hall => hall.2.2⟩
  · rw [Bool.and_eq_true, List.all_eq_true, decide_eq_true_iff] at h
    exact ⟨nofun, fun hall => absurd ⟨hall.1, hall.2.1⟩ h⟩

/-! ### Arrays -/

/-- An array is a record whose last field must be given exactly if it has a value for each field. -/
theorem members?_array_eq_some_iff {repeats : Repeats} {ws : List Json} {found : Members}
    (hlast : ∃ f, fields.getLast? = some f ∧ f.hasDefault = false) :
    (array ws).members? fields repeats = some found ↔
      ws.length = fields.length ∧ found = (fields.map (·.name)).zip ws := by
  obtain ⟨f, hf, hdefault⟩ := hlast
  have hall : (ws.length ≤ fields.length ∧ (fields.drop ws.length).all (·.hasDefault) = true) ↔
      ws.length = fields.length := by
    constructor
    · rintro ⟨hle, hrest⟩
      by_contra hne
      have hlt : ws.length < fields.length := Nat.lt_of_le_of_ne hle hne
      -- The last field is among those that are left out, and has no default.
      have hmem : f ∈ fields.drop ws.length := by
        refine List.mem_of_getLast? ?_
        rw [List.getLast?_drop, if_neg (Nat.not_le.mpr hlt), hf]
      rw [List.all_eq_true.mp hrest f hmem] at hdefault
      cases hdefault
    · intro heq
      rw [heq, List.drop_length]
      exact ⟨Nat.le_refl _, rfl⟩
  simp only [members?, Bool.and_eq_true, decide_eq_true_iff, hall]
  split_ifs with heq
  · rw [Option.some_inj, eq_comm]
    exact (and_iff_right heq).symm
  · exact iff_of_false not_false fun h => heq h.1

end HeadScout.Json
