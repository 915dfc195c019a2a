/-!
# Tables in key order

A table holds at most one value for a key and lists its entries by ascending key. Putting a value
under a key that is taken replaces the value there, so of several values the last one stays.

## Main definitions

* `SortedTable κ α` — entries with strictly ascending keys
* `SortedTable.put`, `SortedTable.get?`, `SortedTable.ofList`
* `SortedTable.keys`, `SortedTable.values`

## Main results

* `SortedTable.mem_entries_iff`, `SortedTable.mem_keys_iff` — entries and keys are what is found
* `SortedTable.nodup_keys` — no key occurs twice
* `SortedTable.get?_put` — a look-up after `put`
* `SortedTable.get?_ofList` — of entries with one key the last one stays
-/

namespace HeadScout

variable {κ α : Type} [Ord κ]

/-- Entries with strictly ascending keys. -/
structure SortedTable (κ α : Type) [Ord κ] where
  /-- The entries by ascending key. -/
  entries : List (κ × α)
  /-- Keys ascend strictly, so no key occurs twice. -/
  ascending : entries.Pairwise fun a b => compare a.1 b.1 = .lt

namespace SortedTable

/-- The table without entries. -/
def empty : SortedTable κ α := ⟨[], .nil⟩

/-- The keys in ascending order. -/
def keys (t : SortedTable κ α) : List κ := t.entries.map (·.1)

/-- The values by ascending key. -/
def values (t : SortedTable κ α) : List α := t.entries.map (·.2)

/-- The value under a key. -/
def get? (t : SortedTable κ α) (k : κ) : Option α :=
  (t.entries.find? fun e => compare k e.1 == .eq).map (·.2)

/-! ### Putting an entry -/

/-- The entries with `v` put under `k`. -/
def putEntries (k : κ) (v : α) : List (κ × α) → List (κ × α)
  | [] => [(k, v)]
  | (k', v') :: rest =>
    match compare k k' with
    | .lt => (k, v) :: (k', v') :: rest
    | .eq => (k, v) :: rest
    | .gt => (k', v') :: putEntries k v rest

theorem mem_putEntries {k : κ} {v : α} {es : List (κ × α)} {e : κ × α}
    (h : e ∈ putEntries k v es) : e = (k, v) ∨ e ∈ es := by
  induction es with
  | nil => simpa [putEntries] using h
  | cons x xs ih =>
    unfold putEntries at h
    split at h
    · simpa using h
    · rcases List.mem_cons.1 h with h | h
      · exact .inl h
      · exact .inr (List.mem_cons_of_mem _ h)
    · rcases List.mem_cons.1 h with h | h
      · exact .inr (h ▸ List.mem_cons_self)
      · rcases ih h with h | h
        · exact .inl h
        · exact .inr (List.mem_cons_of_mem _ h)

theorem putEntries_ascending [Std.TransOrd κ] [Std.LawfulEqOrd κ] (k : κ) (v : α)
    {es : List (κ × α)} (h : es.Pairwise fun a b => compare a.1 b.1 = .lt) :
    (putEntries k v es).Pairwise fun a b => compare a.1 b.1 = .lt := by
  induction es with
  | nil => simp [putEntries]
  | cons x xs ih =>
    obtain ⟨hx, hxs⟩ := List.pairwise_cons.1 h
    unfold putEntries
    split
    · -- The new key comes before every other.
      rename_i hk
      refine List.pairwise_cons.2 ⟨?_, h⟩
      intro e he
      rcases List.mem_cons.1 he with rfl | he
      · exact hk
      · exact Std.TransCmp.lt_trans hk (hx e he)
    · -- The key is taken, and the value there is replaced.
      rename_i hk
      have := Std.LawfulEqOrd.eq_of_compare hk
      subst this
      exact List.pairwise_cons.2 ⟨hx, hxs⟩
    · -- The new key has its place further back.
      rename_i hk
      refine List.pairwise_cons.2 ⟨?_, ih hxs⟩
      intro e he
      rcases mem_putEntries he with rfl | he
      · exact Std.OrientedCmp.lt_of_gt hk
      · exact hx e he

@[simp] theorem get?_empty (k : κ) : (empty : SortedTable κ α).get? k = none := rfl

theorem find?_putEntries [Std.LawfulEqOrd κ] (k k' : κ) (v : α) (es : List (κ × α))
    (h : es.Pairwise fun a b => compare a.1 b.1 = .lt) :
    ((putEntries k v es).find? fun e => compare k' e.1 == .eq).map (·.2) =
      if compare k' k = .eq then some v
      else (es.find? fun e => compare k' e.1 == .eq).map (·.2) := by
  induction es with
  | nil =>
    by_cases hk : compare k' k = .eq <;> simp [putEntries, hk]
  | cons x xs ih =>
    obtain ⟨hx, hxs⟩ := List.pairwise_cons.1 h
    unfold putEntries
    split
    · by_cases hk : compare k' k = .eq <;> simp [hk]
    · rename_i hk
      have := Std.LawfulEqOrd.eq_of_compare hk
      subst this
      by_cases hk' : compare k' x.1 = .eq <;> simp [hk']
    · rename_i hk
      by_cases hx' : compare k' x.1 = .eq
      · -- The key looked up stands in front, so it is not the one that was put.
        have hne : compare k' k ≠ .eq := by
          intro he
          have h1 := Std.LawfulEqOrd.eq_of_compare hx'
          have h2 := Std.LawfulEqOrd.eq_of_compare he
          rw [← h1, ← h2] at hk
          simp at hk
        simp [hx', hne]
      · simp only [List.find?_cons, beq_eq_false_iff_ne.2 hx', ih hxs]

/-- The entries are what is found under the keys. -/
theorem mem_entries_iff [Std.LawfulEqOrd κ] (t : SortedTable κ α) {k : κ} {v : α} :
    (k, v) ∈ t.entries ↔ t.get? k = some v := by
  obtain ⟨es, hes⟩ := t
  change (k, v) ∈ es ↔ (es.find? fun e => compare k e.1 == .eq).map (·.2) = some v
  induction es with
  | nil => simp
  | cons e es ih =>
    obtain ⟨he, hrest⟩ := List.pairwise_cons.1 hes
    rw [List.mem_cons, ih hrest, List.find?_cons]
    by_cases hk : compare k e.1 = .eq
    · -- The first entry has the key, so no entry behind it has.
      have hkey := Std.LawfulEqOrd.eq_of_compare hk
      subst hkey
      have hnone : (es.find? fun x => compare e.1 x.1 == .eq) = none := by
        rw [List.find?_eq_none]
        intro x hx
        simp [he x hx]
      rw [hnone]
      simp [Prod.ext_iff, eq_comm]
    · have hne : (k, v) ≠ e := by
        rintro rfl
        exact hk Std.ReflOrd.compare_self
      rw [beq_eq_false_iff_ne.2 hk, or_iff_right hne]

/-- The keys are those under which something is found. -/
theorem mem_keys_iff [Std.LawfulEqOrd κ] (t : SortedTable κ α) {k : κ} :
    k ∈ t.keys ↔ (t.get? k).isSome := by
  rw [keys, List.mem_map, Option.isSome_iff_exists]
  constructor
  · rintro ⟨⟨_, v⟩, hmem, rfl⟩
    exact ⟨v, t.mem_entries_iff.mp hmem⟩
  · rintro ⟨v, hget⟩
    exact ⟨(k, v), t.mem_entries_iff.mpr hget, rfl⟩

/-- No key occurs twice. -/
theorem nodup_keys [Std.LawfulEqOrd κ] (t : SortedTable κ α) : t.keys.Nodup := by
  rw [keys, List.Nodup, List.pairwise_map]
  refine t.ascending.imp ?_
  intro a b hlt heq
  rw [heq, Std.ReflOrd.compare_self] at hlt
  cases hlt

variable [Std.TransOrd κ] [Std.LawfulEqOrd κ]

/-- The table with `v` under `k`, in the place of any value that was there. -/
def put (t : SortedTable κ α) (k : κ) (v : α) : SortedTable κ α :=
  ⟨putEntries k v t.entries, putEntries_ascending k v t.ascending⟩

/-- The table of a list of entries; of entries with one key the last one stays. -/
def ofList (es : List (κ × α)) : SortedTable κ α :=
  es.foldl (fun t e => t.put e.1 e.2) empty

/-! ### Looking up -/

/-- A look-up after `put` sees the new value under its key and the old ones elsewhere. -/
theorem get?_put (t : SortedTable κ α) (k k' : κ) (v : α) :
    (t.put k v).get? k' = if compare k' k = .eq then some v else t.get? k' :=
  find?_putEntries k k' v t.entries t.ascending

theorem get?_foldl_put (es : List (κ × α)) (t : SortedTable κ α) (k : κ) :
    (es.foldl (fun t e => t.put e.1 e.2) t).get? k =
      ((es.reverse.find? fun e => compare k e.1 == .eq).map (·.2)).or (t.get? k) := by
  induction es generalizing t with
  | nil => simp
  | cons e es ih =>
    rw [List.foldl_cons, ih, get?_put, List.reverse_cons, List.find?_append]
    cases hf : es.reverse.find? fun e => compare k e.1 == .eq with
    | some _ => simp
    | none => by_cases hk : compare k e.1 = .eq <;> simp [hk]

/-- Of the listed entries with one key, the last one stays. -/
theorem get?_ofList (es : List (κ × α)) (k : κ) :
    (ofList es).get? k = (es.reverse.find? fun e => compare k e.1 == .eq).map (·.2) := by
  rw [ofList, get?_foldl_put]; simp

end SortedTable

end HeadScout
