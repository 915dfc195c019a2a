import HeadScout.Webhook.ChangeGroups
import Mathlib.Data.List.Induction
import Mathlib.Data.List.Nodup

/-!
# The groups of a list of changes

The groups are built change by change, each change going behind the others of its type or into a
group of its own. What has been built after some changes can be told from these changes alone: it
has one group for each type among them, in the order in which the types first appear, and the group
of a type holds exactly the changes of that type, in their order. Losing, doubling or reordering a
change would break this invariant at the step where it happens.

## Main definitions

* `ChangeGroups.types` — the types among some changes, by first appearance
* `ChangeGroups.ofType` — the changes of one type
* `ChangeGroups.byType` — one group for each type

## Main results

* `ChangeGroups.insert_byType` — what one more change does to the groups
* `ChangeGroups.groups_foldl_add` — the groups after any number of changes
-/

namespace HeadScout.ChangeGroups

variable {t t' : EventType} {c : Change} {cs : List Change}

/-- The types among some changes, in the order in which they first appear. -/
def types (cs : List Change) : List EventType := (cs.filterMap Change.eventType?).eraseDups

/-- The changes of one type, in their order. -/
def ofType (t : EventType) (cs : List Change) : List Change :=
  cs.filter fun c => c.eventType? = some t

/-- One group for each type among some changes. -/
def byType (cs : List Change) : List (EventType × List Change) :=
  (types cs).map fun t => (t, ofType t cs)

theorem mem_types_iff : t ∈ types cs ↔ ∃ c ∈ cs, c.eventType? = some t := by
  rw [types, List.mem_eraseDups, List.mem_filterMap]

theorem ofType_ne_nil_iff : ofType t cs ≠ [] ↔ t ∈ types cs := by
  rw [mem_types_iff, ofType, Ne, List.filter_eq_nil_iff]
  simp

theorem ofType_append (t : EventType) (cs cs' : List Change) :
    ofType t (cs ++ cs') = ofType t cs ++ ofType t cs' :=
  List.filter_append cs cs'

theorem ofType_concat_self (h : c.eventType? = some t) :
    ofType t (cs ++ [c]) = ofType t cs ++ [c] := by
  rw [ofType_append, ofType, ofType, List.filter_cons_of_pos (by simp [h]), List.filter_nil]

theorem ofType_concat_of_ne (h : c.eventType? ≠ some t) :
    ofType t (cs ++ [c]) = ofType t cs := by
  rw [ofType_append, ofType, ofType, List.filter_cons_of_neg (by simp [h]), List.filter_nil,
    List.append_nil]

/-! ### Types, change by change -/

theorem eraseDups_concat (ts : List EventType) (t : EventType) :
    (ts ++ [t]).eraseDups = if t ∈ ts then ts.eraseDups else ts.eraseDups ++ [t] := by
  rw [List.eraseDups_append]
  split_ifs with h <;> simp [List.removeAll, List.eraseDups_cons, h]

theorem types_concat_of_none (h : c.eventType? = none) : types (cs ++ [c]) = types cs := by
  simp [types, List.filterMap_append, h]

theorem types_concat_of_some (h : c.eventType? = some t) :
    types (cs ++ [c]) = if t ∈ types cs then types cs else types cs ++ [t] := by
  simp only [types, List.mem_eraseDups]
  rw [List.filterMap_append, List.filterMap_cons_some h, List.filterMap_nil, eraseDups_concat]

/-- No type is listed twice. -/
theorem nodup_types (cs : List Change) : (types cs).Nodup := by
  induction cs using List.reverseRecOn with
  | nil => exact List.nodup_nil
  | append_singleton cs c ih =>
    cases h : c.eventType? with
    | none =>
      rw [types_concat_of_none h]
      exact ih
    | some t =>
      rw [types_concat_of_some h]
      split_ifs with ht
      · exact ih
      · refine ih.append (List.nodup_singleton t) ?_
        simpa using ht

/-! ### Groups, change by change -/

theorem map_fst_byType (cs : List Change) : (byType cs).map Prod.fst = types cs := by
  rw [byType, List.map_map]
  exact List.map_id _

theorem insert_of_notMem {gs : List (EventType × List Change)} (h : t ∉ gs.map Prod.fst) :
    insert t c gs = gs ++ [(t, [c])] := by
  induction gs with
  | nil => rfl
  | cons g gs ih =>
    obtain ⟨t', cs⟩ := g
    simp only [List.map_cons, List.mem_cons, not_or] at h
    rw [insert, if_neg (Ne.symm h.1), ih h.2, List.cons_append]

/-- One more change goes behind the others of its type and leaves the other groups alone. -/
theorem insert_map {f : EventType → List Change} {ts : List EventType} (hts : ts.Nodup)
    (ht : t ∈ ts) :
    insert t c (ts.map fun t' => (t', f t')) =
      ts.map fun t' => (t', if t' = t then f t' ++ [c] else f t') := by
  induction ts with
  | nil => cases ht
  | cons u ts ih =>
    obtain ⟨hu, hts⟩ := List.nodup_cons.mp hts
    rw [List.map_cons, List.map_cons, insert]
    by_cases h : u = t
    · -- Its group comes first, so no later group is of the same type.
      subst h
      have hrest : ∀ t' ∈ ts, (t', if t' = u then f t' ++ [c] else f t') = (t', f t') := by
        intro t' ht'
        have hne : t' ≠ u := fun h' => hu (h' ▸ ht')
        rw [if_neg hne]
      rw [if_pos rfl, if_pos rfl, List.map_congr_left hrest]
    · have ht : t ∈ ts := (List.mem_cons.mp ht).resolve_left (Ne.symm h)
      rw [if_neg h, if_neg h, ih hts ht]

theorem byType_concat_of_none (h : c.eventType? = none) : byType (cs ++ [c]) = byType cs := by
  have hsame : ∀ t, ofType t (cs ++ [c]) = ofType t cs := fun t =>
    ofType_concat_of_ne (by simp [h])
  simp only [byType, types_concat_of_none h, hsame]

/-- Inserting a change into the groups of some changes gives the groups with that change. -/
theorem insert_byType (h : c.eventType? = some t) :
    insert t c (byType cs) = byType (cs ++ [c]) := by
  by_cases ht : t ∈ types cs
  · rw [byType, byType, insert_map (nodup_types cs) ht, types_concat_of_some h, if_pos ht]
    refine List.map_congr_left fun t' _ => ?_
    by_cases h' : t' = t
    · rw [if_pos h', h', ofType_concat_self h]
    · rw [if_neg h', ofType_concat_of_ne (by simpa [h] using Ne.symm h')]
  · -- The change is the first of its type, and the groups so far are as they were.
    have hnew : ofType t cs = [] := by
      by_contra hne
      exact ht (ofType_ne_nil_iff.mp hne)
    have hold : ∀ t' ∈ types cs, (t', ofType t' cs) = (t', ofType t' (cs ++ [c])) := by
      intro t' ht'
      have hne : c.eventType? ≠ some t' := by
        rw [h]
        exact fun he => ht (Option.some.inj he ▸ ht')
      rw [ofType_concat_of_ne hne]
    rw [insert_of_notMem (by rwa [map_fst_byType]), byType, byType, types_concat_of_some h,
      if_neg ht, List.map_append, List.map_congr_left hold, List.map_singleton,
      ofType_concat_self h, hnew, List.nil_append]

/-- The invariant of building groups: after any changes they are the groups of these changes. -/
theorem groups_foldl_add (cs : List Change) : (cs.foldl add empty).groups = byType cs := by
  induction cs using List.reverseRecOn with
  | nil => rfl
  | append_singleton cs c ih =>
    rw [List.foldl_append, List.foldl_cons, List.foldl_nil]
    cases h : c.eventType? with
    | none =>
      simp only [add, h]
      rw [ih, byType_concat_of_none h]
    | some t =>
      simp only [add, h]
      rw [ih, insert_byType h]

end HeadScout.ChangeGroups
