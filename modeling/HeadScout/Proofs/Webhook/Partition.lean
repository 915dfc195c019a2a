import HeadScout.Proofs.Webhook.Grouping
import Mathlib.Data.List.Basic
import Mathlib.Data.List.Perm.Basic

/-!
# Groups as a partition

The groups of some changes and the changes put aside hold every change exactly once. What is asked
for by type, listed group by group or put aside are parts of the changes in their own order, and the
groups stand in the order in which their types first appear among the changes. Groups that are
already apart stay as they are when their changes are grouped again, one group after the other.

## Main definitions

* `ChangeGroups.grouped` — the changes of all groups
* `ChangeGroups.firstAt` — where a type first appears
* `ChangeGroups.Partitions` — groups hold some changes, each in its place

## Main results

* `ChangeGroups.perm_foldl_add` — no change is lost or doubled, whatever was grouped before
* `ChangeGroups.pairwise_types` — types are listed as they first appear
* `ChangeGroups.foldl_add_flatMap` — groups that are apart are built again as they are
* `ChangeGroups.partitions_ofChanges` — what grouping gives
-/

namespace HeadScout.ChangeGroups

variable {t t' : EventType} {c : Change} {cs cs' : List Change} {g : ChangeGroups}
  {gs : List (EventType × List Change)}

/-- The changes of all groups, one group after the other. -/
def grouped (g : ChangeGroups) : List Change := g.groups.flatMap Prod.snd

/-- Where the first change of a type stands among some changes. -/
def firstAt (t : EventType) (cs : List Change) : Nat := cs.findIdx fun c => c.eventType? = some t

/-- Every change stands in the group of its type or is put aside, in the order of the changes, and
the groups stand in the order in which their types first appear. -/
structure Partitions (g : ChangeGroups) (cs : List Change) : Prop where
  distinct : (g.groups.map Prod.fst).Nodup
  filled : ∀ group ∈ g.groups, group.2 ≠ []
  ordered : g.groups.Pairwise fun group group' => firstAt group.1 cs < firstAt group'.1 cs
  /-- What is found under a type is its group, or nothing if it has none. -/
  found : ∀ t part, (t, part) ∈ g.groups ↔ g.get t = part ∧ part ≠ []
  get_eq : ∀ t, g.get t = cs.filter fun c => c.eventType? = some t
  dropped_eq : g.dropped = cs.filter fun c => c.eventType? = none
  perm : (g.grouped ++ g.dropped).Perm cs

/-! ### No change is lost -/

theorem perm_flatMap_insert (t : EventType) (c : Change) (gs : List (EventType × List Change)) :
    ((insert t c gs).flatMap Prod.snd).Perm (c :: gs.flatMap Prod.snd) := by
  induction gs with
  | nil => exact .refl _
  | cons group gs ih =>
    obtain ⟨t', part⟩ := group
    rw [insert]
    split_ifs
    · -- The change ends its group here, and the later groups are as they were.
      rw [List.flatMap_cons, List.flatMap_cons, List.append_assoc]
      exact List.perm_middle
    · rw [List.flatMap_cons, List.flatMap_cons]
      exact (ih.append_left part).trans List.perm_middle

/-- One more change is in a group or put aside, and so are the changes before. -/
theorem perm_add (g : ChangeGroups) (c : Change) :
    ((g.add c).grouped ++ (g.add c).dropped).Perm (g.grouped ++ g.dropped ++ [c]) := by
  rw [add]
  cases c.eventType? with
  | none => rw [List.append_assoc]; exact .refl _
  | some t =>
    have hinsert := (perm_flatMap_insert t c g.groups).append_right g.dropped
    exact hinsert.trans (List.perm_append_singleton c _).symm

theorem perm_foldl_add (g : ChangeGroups) (cs : List Change) :
    ((cs.foldl add g).grouped ++ (cs.foldl add g).dropped).Perm (g.grouped ++ g.dropped ++ cs) := by
  induction cs generalizing g with
  | nil => rw [List.append_nil]; exact .refl _
  | cons c cs ih =>
    have hstep := (ih (g.add c)).trans ((perm_add g c).append_right cs)
    rwa [List.append_assoc, List.singleton_append] at hstep

/-- The changes put aside, told by the changes so far. -/
theorem dropped_foldl_add (cs : List Change) :
    (cs.foldl add empty).dropped = cs.filter fun c => c.eventType? = none := by
  induction cs using List.reverseRecOn with
  | nil => rfl
  | append_singleton cs c ih =>
    rw [List.foldl_append, List.foldl_cons, List.foldl_nil, List.filter_append, ← ih, add]
    cases h : c.eventType? with
    | none => rw [List.filter_cons_of_pos (by simp [h]), List.filter_nil]
    | some t => rw [List.filter_cons_of_neg (by simp [h]), List.filter_nil, List.append_nil]

/-! ### The order of the groups -/

theorem firstAt_lt_length_iff : firstAt t cs < cs.length ↔ t ∈ types cs := by
  rw [firstAt, List.findIdx_lt_length, mem_types_iff]
  simp

theorem firstAt_append_of_mem (h : t ∈ types cs) : firstAt t (cs ++ cs') = firstAt t cs := by
  rw [firstAt, List.findIdx_append]
  exact if_pos (firstAt_lt_length_iff.mpr h)

theorem length_le_firstAt_append (h : t ∉ types cs) : cs.length ≤ firstAt t (cs ++ cs') := by
  rw [firstAt, List.findIdx_append]
  split_ifs with hlt
  · exact absurd (firstAt_lt_length_iff.mp hlt) h
  · exact Nat.le_add_left _ _

/-- A type is listed before another one if it appears before it. -/
theorem pairwise_types (cs : List Change) :
    (types cs).Pairwise fun t t' => firstAt t cs < firstAt t' cs := by
  induction cs using List.reverseRecOn with
  | nil => exact .nil
  | append_singleton cs c ih =>
    -- The types so far keep their places, whatever comes last.
    have hkept : (types cs).Pairwise fun t t' =>
        firstAt t (cs ++ [c]) < firstAt t' (cs ++ [c]) := by
      refine ih.imp_of_mem fun ht ht' hlt => ?_
      rwa [firstAt_append_of_mem ht, firstAt_append_of_mem ht']
    cases h : c.eventType? with
    | none => rwa [types_concat_of_none h]
    | some t =>
      rw [types_concat_of_some h]
      split_ifs with ht
      · exact hkept
      · refine List.pairwise_append.mpr ⟨hkept, List.pairwise_singleton _ t, ?_⟩
        intro u hu t' ht'
        obtain rfl := List.mem_singleton.mp ht'
        calc firstAt u (cs ++ [c]) = firstAt u cs := firstAt_append_of_mem hu
          _ < cs.length := firstAt_lt_length_iff.mpr hu
          _ ≤ firstAt t' (cs ++ [c]) := length_le_firstAt_append ht

/-! ### Looking up a type -/

theorem get_of_groups_eq (h : g.groups = byType cs) (t : EventType) : g.get t = ofType t cs := by
  rw [get, h, byType]
  by_cases ht : t ∈ types cs
  · rw [List.lookup_graph (fun t => ofType t cs) ht, Option.getD_some]
  · have hnone : ((types cs).map fun t => (t, ofType t cs)).lookup t = none := by
      rw [List.lookup_eq_none_iff]
      intro group hgroup
      obtain ⟨t', ht', rfl⟩ := List.mem_map.mp hgroup
      exact bne_iff_ne.mpr fun he => ht (he ▸ ht')
    rw [hnone, Option.getD_none]
    exact (not_not.mp (mt ofType_ne_nil_iff.mp ht)).symm

theorem mem_byType_iff {part : List Change} :
    (t, part) ∈ byType cs ↔ ofType t cs = part ∧ part ≠ [] := by
  rw [byType, List.mem_map]
  constructor
  · rintro ⟨t', ht', he⟩
    obtain ⟨rfl, rfl⟩ := Prod.mk.inj he
    exact ⟨rfl, ofType_ne_nil_iff.mpr ht'⟩
  · rintro ⟨rfl, hne⟩
    exact ⟨t, ofType_ne_nil_iff.mp hne, rfl⟩

theorem partitions_foldl_add (cs : List Change) : (cs.foldl add empty).Partitions cs := by
  have hgroups := groups_foldl_add cs
  have hget := get_of_groups_eq hgroups
  constructor
  case distinct =>
    rw [hgroups, map_fst_byType]
    exact nodup_types cs
  case filled =>
    rw [hgroups]
    exact fun group hgroup => (mem_byType_iff.mp hgroup).2
  case ordered =>
    rw [hgroups, byType, List.pairwise_map]
    exact pairwise_types cs
  case found =>
    intro t part
    rw [hget, hgroups]
    exact mem_byType_iff
  case get_eq => exact hget
  case dropped_eq => exact dropped_foldl_add cs
  case perm => exact perm_foldl_add empty cs

/-! ### Grouping once more -/

/-- A change of the type of the last group goes to the end of it. -/
theorem insert_concat_of_notMem {part : List Change} (h : t ∉ gs.map Prod.fst) :
    insert t c (gs ++ [(t, part)]) = gs ++ [(t, part ++ [c])] := by
  induction gs with
  | nil => exact if_pos rfl
  | cons group gs ih =>
    obtain ⟨t', part'⟩ := group
    simp only [List.map_cons, List.mem_cons, not_or] at h
    rw [List.cons_append, insert, if_neg (Ne.symm h.1), ih h.2, List.cons_append]

/-- Changes of one type that is new make up one more group. -/
theorem foldl_add_of_notMem {part : List Change} (h : t ∉ g.groups.map Prod.fst)
    (hne : part ≠ []) (hpart : ∀ c ∈ part, c.eventType? = some t) :
    part.foldl add g = { g with groups := g.groups ++ [(t, part)] } := by
  induction part using List.reverseRecOn with
  | nil => exact absurd rfl hne
  | append_singleton part c ih =>
    have hc : c.eventType? = some t := hpart c List.mem_concat_self
    rw [List.foldl_append, List.foldl_cons, List.foldl_nil]
    -- The first change opens the group, and each later one goes to its end.
    rcases eq_or_ne part [] with rfl | hrest
    · rw [List.foldl_nil, add, hc, List.nil_append]
      exact congrArg (ChangeGroups.mk · g.dropped) (insert_of_notMem h)
    · rw [ih hrest fun d hd => hpart d (List.mem_append_left _ hd), add, hc]
      exact congrArg (ChangeGroups.mk · g.dropped) (insert_concat_of_notMem h)

/-- Groups of distinct types that are filled with changes of their types are built again as they
are, behind the groups before. -/
theorem foldl_add_flatMap (hdistinct : ((g.groups ++ gs).map Prod.fst).Nodup)
    (hfilled : ∀ group ∈ gs, group.2 ≠ [])
    (hpure : ∀ group ∈ gs, ∀ c ∈ group.2, c.eventType? = some group.1) :
    (gs.flatMap Prod.snd).foldl add g = { g with groups := g.groups ++ gs } := by
  -- The groups before grow by one group at each step, so they vary in the induction.
  induction gs generalizing g with
  | nil => rw [List.append_nil]; rfl
  | cons group gs ih =>
    have hassoc : g.groups ++ group :: gs = g.groups ++ [group] ++ gs := by
      rw [List.append_assoc, List.singleton_append]
    have hnew : group.1 ∉ g.groups.map Prod.fst := by
      rw [List.map_append, List.map_cons] at hdistinct
      exact fun h => (List.nodup_append.mp hdistinct).2.2 _ h _ List.mem_cons_self rfl
    rw [List.flatMap_cons, List.foldl_append, hassoc,
      foldl_add_of_notMem hnew (hfilled group List.mem_cons_self) (hpure group List.mem_cons_self)]
    exact ih (by rwa [← hassoc]) (fun _ h => hfilled _ (List.mem_cons_of_mem _ h))
      (fun _ h => hpure _ (List.mem_cons_of_mem _ h))

/-- Groups that hold some changes are built again from the changes they hold. -/
theorem Partitions.foldl_add_grouped (h : g.Partitions cs) :
    g.grouped.foldl add empty = ⟨g.groups, []⟩ := by
  refine foldl_add_flatMap (g := empty) h.distinct h.filled ?_
  intro group hgroup c hc
  rw [← ((h.found group.1 group.2).mp hgroup).1, h.get_eq] at hc
  exact of_decide_eq_true (List.mem_filter.mp hc).2

/-- Grouping puts each change into the group of its type or aside, loses none and keeps their order,
and grouping the changes of the groups once more gives the same groups and puts nothing aside. -/
theorem partitions_ofChanges (cs : List Change) :
    (ofChanges cs).value.Partitions cs ∧
      (ofChanges (ofChanges cs).value.grouped).value = ⟨(ofChanges cs).value.groups, []⟩ :=
  ⟨partitions_foldl_add cs, (partitions_foldl_add cs).foldl_add_grouped⟩

end HeadScout.ChangeGroups
