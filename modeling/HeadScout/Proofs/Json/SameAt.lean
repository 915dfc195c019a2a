import HeadScout.Proofs.Json.Shape
import Mathlib.Data.List.Forall2

/-!
# Documents that say the same

What a document says depends on the place where it stands. Where a record is read, the order of the
members does not matter, and neither do members that the record does not know. They must not be
given twice, though, and if the record is kept before it is read, then what stands under other names
must be something that can be kept. Where a list is read, the items count in their order. Anywhere
else a value is taken as it stands; it may be an object all the same, and then its members have no
order either.

Two documents say the same if one of them comes from the other by such steps, taken at any depth. A
reader that only looks for what is known at a place finds the same in both.

## Main definitions

* `Json.Place` — what is looked for at a place
* `Json.SameAt` — two documents that say the same at a place
* `Json.Place.Determines` — what a reader finds is told by what the document says at the place
* `Json.Place.KeptAt` — what may stand at a place can be kept there

## Main results

* `Json.SameAt.isStorable_eq` — both documents can be kept or none of them
* `Json.rel_members?_object` — a record finds the same in both documents
* `Json.Place.determines_record` — and so does what is made of it
* `Json.Place.Determines.list?` — a list reads the same from both documents
-/

namespace HeadScout.Json

/-- A place in a document, told by what is looked for there. -/
inductive Place where
  /-- A value that is taken as it stands. -/
  | value
  | list (item : Place)
  /-- The fields of a record with their places, and what may stand under other names. -/
  | record (fields : List (String × Place)) (other : Json → Prop)

namespace Place

/-- The place of a member. Under a name that a record does not know stands a value. -/
def member : Place → String → Place
  | record fields _, name => (fields.lookup name).getD value
  | _, _ => value

/-- The place of an item. A record has none, as it is written as an object here. -/
def item? : Place → Option Place
  | value => some value
  | list p => some p
  | record .. => none

end Place

/-- Two documents that say the same at a place. -/
inductive SameAt : Place → Json → Json → Prop where
  | refl (p : Place) (v : Json) : SameAt p v v
  | symm {p : Place} {v w : Json} (h : SameAt p v w) : SameAt p w v
  | trans {p : Place} {u v w : Json} (h : SameAt p u v) (h' : SameAt p v w) : SameAt p u w
  /-- The members stand in another order. -/
  | perm {p : Place} {ms ns : List (Option String × Json)} (hnames : (ms.map Prod.fst).Nodup)
      (h : ms.Perm ns) : SameAt p (.object ms) (.object ns)
  /-- There is one member more, which the record does not know. -/
  | unknown {fields : List (String × Place)} {other : Json → Prop} {name : String} {v : Json}
      (ms ms' : List (Option String × Json)) (hname : name ∉ fields.map Prod.fst) (hv : other v) :
      SameAt (.record fields other) (.object (ms ++ ms')) (.object (ms ++ (some name, v) :: ms'))
  /-- One of the members says the same at its place. -/
  | member {p : Place} {name : String} {v w : Json} (ms ms' : List (Option String × Json))
      (h : SameAt (p.member name) v w) :
      SameAt p (.object (ms ++ (some name, v) :: ms')) (.object (ms ++ (some name, w) :: ms'))
  /-- One of the items says the same at its place. -/
  | item {p q : Place} {v w : Json} (vs vs' : List Json) (hitem : p.item? = some q)
      (h : SameAt q v w) : SameAt p (.array (vs ++ v :: vs')) (.array (vs ++ w :: vs'))

/-! ### Values -/

/-- Whether the document is an array or an object. -/
def isBracketed : Json → Bool
  | .array _ => true
  | .object _ => true
  | _ => false

namespace SameAt

variable {p : Place} {v w : Json}

/-- Only documents in brackets can say the same without being the same. -/
theorem eq_or_isBracketed (h : SameAt p v w) :
    v = w ∨ v.isBracketed = true ∧ w.isBracketed = true := by
  induction h with
  | refl => exact Or.inl rfl
  | symm _ ih =>
    obtain rfl | ⟨hv, hw⟩ := ih
    · exact Or.inl rfl
    · exact Or.inr ⟨hw, hv⟩
  | trans _ _ ih ih' =>
    obtain rfl | ⟨hu, hv⟩ := ih
    · exact ih'
    · obtain rfl | ⟨-, hw⟩ := ih'
      · exact Or.inr ⟨hu, hv⟩
      · exact Or.inr ⟨hu, hw⟩
  | perm | unknown | member | item => exact Or.inr ⟨rfl, rfl⟩

theorem eq_null_iff (h : SameAt p v w) : v = .null ↔ w = .null := by
  obtain rfl | ⟨hv, hw⟩ := h.eq_or_isBracketed
  · exact Iff.rfl
  · refine iff_of_false ?_ ?_
    · rintro rfl
      cases hv
    · rintro rfl
      cases hw

end SameAt

/-- What the reader finds is told by what the document says at the place. -/
def Place.Determines {α : Type} (p : Place) (read : Json → α) : Prop :=
  ∀ v w, SameAt p v w → read v = read w

namespace Place

variable (p : Place)

/-- A reader that finds nothing in brackets takes a value as it stands. -/
theorem determines_of_isBracketed {α : Type} {read : Json → Option α}
    (h : ∀ v, v.isBracketed = true → read v = none) : p.Determines read := by
  intro v w hsame
  obtain rfl | ⟨hv, hw⟩ := hsame.eq_or_isBracketed
  · rfl
  · rw [h v hv, h w hw]

theorem determines_text? : p.Determines text? := by
  refine p.determines_of_isBracketed fun v hv => ?_
  cases v <;> first | rfl | cases hv

theorem determines_bool? : p.Determines bool? := by
  refine p.determines_of_isBracketed fun v hv => ?_
  cases v <;> first | rfl | cases hv

end Place

/-! ### Documents that are kept -/

/-- Whatever may stand at the place, its known parts aside, can be kept there. -/
inductive Place.KeptAt : Nat → Place → Prop where
  | value (depth : Nat) : KeptAt depth .value
  | list {depth : Nat} {p : Place} (h : KeptAt (depth + 1) p) : KeptAt depth (.list p)
  | record {depth : Nat} {fields : List (String × Place)} {other : Json → Prop}
      (hfields : ∀ f ∈ fields, KeptAt (depth + 1) f.2)
      (hother : ∀ v, other v → v.isStorable (depth + 1) = true) :
      KeptAt depth (.record fields other)

namespace Place.KeptAt

variable {p q : Place} {depth : Nat}

theorem member (h : p.KeptAt depth) (name : String) : (p.member name).KeptAt (depth + 1) := by
  cases h with
  | value | list => exact .value _
  | @record _ fields other hfields hother =>
    rw [Place.member]
    cases hname : fields.lookup name with
    | none => exact .value _
    | some q =>
      obtain ⟨before, after, rfl, -⟩ := List.lookup_eq_some_iff.mp hname
      exact hfields (name, q) (List.mem_append_right before List.mem_cons_self)

theorem item (h : p.KeptAt depth) (hitem : p.item? = some q) : q.KeptAt (depth + 1) := by
  cases h with
  | value =>
    cases hitem
    exact .value _
  | list h =>
    cases hitem
    exact h
  | record => cases hitem

end Place.KeptAt

/-- Both documents can be kept at the place, or none of them. -/
theorem SameAt.isStorable_eq {p : Place} {v w : Json} (h : SameAt p v w) {depth : Nat}
    (hp : p.KeptAt depth) : v.isStorable depth = w.isStorable depth := by
  -- Along the steps: what stands in brackets is kept one by one, and a step changes one part.
  induction h generalizing depth with
  | refl => rfl
  | symm _ ih => exact (ih hp).symm
  | trans _ _ ih ih' => exact (ih hp).trans (ih' hp)
  | perm _ hperm =>
    rw [isStorable, isStorable, membersStorable_eq_all, membersStorable_eq_all, hperm.all_eq]
  | unknown ms ms' _ hv =>
    cases hp with
    | record _ hother =>
      simp [isStorable, membersStorable_eq_all, hother _ hv]
  | @member p name v w ms ms' _ ih =>
    simp only [isStorable, membersStorable_eq_all, List.all_append, List.all_cons,
      ih (hp.member name)]
  | item vs vs' hitem _ ih =>
    simp only [isStorable, areStorable_eq_all, List.all_append, List.all_cons, ih (hp.item hitem)]

/-! ### Lists -/

namespace Place

variable {p : Place} {α : Type}

/-- What is made of a list is told by what its items say, if nothing is made of an object. -/
theorem determines_list {read : Json → α} (hobject : ∀ ms ns, read (.object ms) = read (.object ns))
    (hitem : ∀ vs vs' v w, SameAt p v w →
      read (.array (vs ++ v :: vs')) = read (.array (vs ++ w :: vs'))) :
    (list p).Determines read := by
  intro v w h
  -- Every step is taken at the one place, so the induction must not forget that it is a list.
  generalize hplace : list p = place at h
  induction h with
  | refl => rfl
  | symm _ ih => exact (ih hplace).symm
  | trans _ _ ih ih' => exact (ih hplace).trans (ih' hplace)
  | perm | member => exact hobject _ _
  | unknown => cases hplace
  | item vs vs' hitem' h =>
    subst hplace
    cases hitem'
    exact hitem vs vs' _ _ h

theorem Determines.list? {read : Json → Option α} (h : p.Determines read) :
    (list p).Determines (Json.list? read) := by
  refine determines_list (fun _ _ => rfl) fun vs vs' v w hsame => ?_
  simp only [Json.list?, List.mapM_append, List.mapM_cons, h v w hsame]

end Place

/-! ### Records -/

/-- The fields of a record hold what says the same at their places. -/
def SameFields (fields : List (String × Place)) (found found' : Members) : Prop :=
  ∀ f ∈ fields, Option.Rel (SameAt f.2) (found.get? f.1) (found'.get? f.1)

theorem valuesOf_append (name : String) (ms ns : List (Option String × Json)) :
    valuesOf name (ms ++ ns) = valuesOf name ms ++ valuesOf name ns := List.filterMap_append

theorem forall₂_sameAt_self (p : Place) (vs : List Json) : List.Forall₂ (SameAt p) vs vs :=
  List.forall₂_same.mpr fun v _ => .refl p v

theorem rel_head? {p : Place} {vs ws : List Json} (h : List.Forall₂ (SameAt p) vs ws) :
    Option.Rel (SameAt p) vs.head? ws.head? := by
  cases h with
  | nil => exact .none
  | cons hhead => exact .some hhead

theorem rel_getLast? {p : Place} {vs ws : List Json} (h : List.Forall₂ (SameAt p) vs ws) :
    Option.Rel (SameAt p) vs.getLast? ws.getLast? := by
  rw [List.getLast?_eq_head?_reverse, List.getLast?_eq_head?_reverse]
  exact rel_head? (List.rel_reverse h)

theorem eq_none_or_some_of_rel {α : Type} {r : α → α → Prop} {o o' : Option α}
    (h : Option.Rel r o o') :
    (o = none ∧ o' = none) ∨ ∃ a a', o = some a ∧ o' = some a' ∧ r a a' := by
  cases h with
  | none => exact Or.inl ⟨rfl, rfl⟩
  | some h => exact Or.inr ⟨_, _, rfl, rfl, h⟩

section Members

variable {places : List (String × Place)} {ms ns : List (Option String × Json)}

theorem length_valuesOf_le_one (hnames : (ms.map Prod.fst).Nodup) (name : String) :
    (valuesOf name ms).length ≤ 1 := by
  have hcount : (valuesOf name ms).length = (ms.map Prod.fst).count (some name) := by
    rw [valuesOf, List.length_filterMap_eq_countP, List.count, List.countP_map]
    refine List.countP_congr fun m _ => ?_
    by_cases hm : m.1 = some name <;> simp [hm]
  rw [hcount]
  exact List.nodup_iff_count_le_one.mp hnames _

/-- Without a name given twice there is at most one value of it to put in order. -/
theorem valuesOf_eq_of_perm (hnames : (ms.map Prod.fst).Nodup) (h : ms.Perm ns) (name : String) :
    valuesOf name ms = valuesOf name ns := by
  have hperm : (valuesOf name ms).Perm (valuesOf name ns) := h.filterMap _
  have hone := length_valuesOf_le_one hnames name
  cases hvalues : valuesOf name ms with
  | nil =>
    rw [hvalues] at hperm
    exact (List.nil_perm.mp hperm).symm
  | cons v vs =>
    rw [hvalues] at hone hperm
    obtain rfl := List.length_eq_zero_iff.mp (Nat.le_zero.mp (Nat.le_of_succ_le_succ hone))
    exact List.singleton_perm.mp hperm

/-- Objects with legible names have the same fields if each field has values that say the same. -/
theorem rel_members?_object {fields : List Field}
    (hfields : fields.map (·.name) = places.map Prod.fst) (repeats : Repeats)
    (hnames : (∀ m ∈ ms, m.1.isSome = true) ↔ ∀ m ∈ ns, m.1.isSome = true)
    (hvalues : ∀ f ∈ places, List.Forall₂ (SameAt f.2) (valuesOf f.1 ms) (valuesOf f.1 ns)) :
    Option.Rel (SameFields places) ((object ms).members? fields repeats)
      ((object ns).members? fields repeats) := by
  have hall : ms.all (·.1.isSome) = ns.all (·.1.isSome) := by
    rw [Bool.eq_iff_iff, List.all_eq_true, List.all_eq_true]
    exact hnames
  -- A field is given twice in both or in neither, as it has as many values in both.
  have hnodup : ((known fields ms).map (·.1)).Nodup ↔ ((known fields ns).map (·.1)).Nodup := by
    rw [nodup_known_iff, nodup_known_iff]
    refine forall₂_congr fun f hf => ?_
    have hmem : f.name ∈ places.map Prod.fst := hfields ▸ List.mem_map_of_mem hf
    obtain ⟨d, hd, hname⟩ := List.mem_map.mp hmem
    rw [← hname, (hvalues d hd).length_eq]
  rw [members?, members?, hall, show decide _ = decide _ from decide_eq_decide.mpr hnodup]
  split_ifs
  · refine .some fun d hd => ?_
    have hmem : d.1 ∈ fields.map (·.name) := hfields ▸ List.mem_map_of_mem hd
    obtain ⟨f, hf, hname⟩ := List.mem_map.mp hmem
    have hany : fields.any (·.name == d.1) = true :=
      List.any_eq_true.mpr ⟨f, hf, beq_iff_eq.mpr hname⟩
    rw [get?_known hany, get?_known hany]
    exact rel_getLast? (hvalues d hd)
  · exact .none

end Members

namespace Place

variable {places : List (String × Place)} {other : Json → Prop} {α β : Type}

theorem lookup_of_mem (hplaces : (places.map Prod.fst).Nodup) {f : String × Place}
    (h : f ∈ places) : places.lookup f.1 = some f.2 := by
  obtain ⟨before, after, rfl⟩ := List.append_of_mem h
  refine List.lookup_eq_some_iff.mpr ⟨before, after, rfl, fun g hg => bne_iff_ne.mpr fun heq => ?_⟩
  rw [List.map_append, List.nodup_append] at hplaces
  obtain ⟨-, -, hdisjoint⟩ := hplaces
  exact hdisjoint g.1 (List.mem_map_of_mem hg) f.1 List.mem_cons_self heq.symm

/-- What is made of the members of a record is told by what its fields say. -/
theorem determines_record {fields : List Field} {repeats : Repeats} {make : Option Members → α}
    (hfields : fields.map (·.name) = places.map Prod.fst) (hplaces : (places.map Prod.fst).Nodup)
    (h : ∀ found found', SameFields places found found' → make (some found) = make (some found')) :
    (record places other).Determines fun v => make (v.members? fields repeats) := by
  have hobject {ms ns : List (Option String × Json)}
      (hnames : (∀ m ∈ ms, m.1.isSome = true) ↔ ∀ m ∈ ns, m.1.isSome = true)
      (hvalues : ∀ f ∈ places, List.Forall₂ (SameAt f.2) (valuesOf f.1 ms) (valuesOf f.1 ns)) :
      make ((object ms).members? fields repeats) = make ((object ns).members? fields repeats) := by
    obtain ⟨hms, hns⟩ | ⟨found, found', hms, hns, hfound⟩ :=
      eq_none_or_some_of_rel (rel_members?_object hfields repeats hnames hvalues)
    · rw [hms, hns]
    · rw [hms, hns]
      exact h found found' hfound
  intro v w hsame
  generalize hplace : record places other = place at hsame
  induction hsame with
  | refl => rfl
  | symm _ ih => exact (ih hplace).symm
  | trans _ _ ih ih' => exact (ih hplace).trans (ih' hplace)
  | @perm _ ms ns hnames hperm =>
    -- No name is given twice, so each field keeps its only value.
    refine hobject (forall_congr' fun _ => imp_congr_left hperm.mem_iff) fun d _ => ?_
    rw [valuesOf_eq_of_perm hnames hperm]
    exact forall₂_sameAt_self d.2 _
  | unknown ms ms' hname _ =>
    cases hplace
    -- The new member has the name of no field, and its name is text.
    refine hobject ?_ fun d hd => ?_
    · simp only [List.forall_mem_append, List.forall_mem_cons, Option.isSome_some, true_and]
    rw [valuesOf_append, valuesOf_append, valuesOf_cons_of_ne]
    · exact forall₂_sameAt_self d.2 _
    · intro heq
      exact hname (List.mem_map.mpr ⟨d, hd, (Option.some.inj heq).symm⟩)
  | @member _ name v w ms ms' hmember =>
    subst hplace
    refine hobject ?_ fun d hd => ?_
    · simp only [List.forall_mem_append, List.forall_mem_cons, Option.isSome_some]
    rw [valuesOf_append, valuesOf_append]
    -- Only the field of this name, if there is one, has another value.
    refine List.rel_append (forall₂_sameAt_self d.2 _) ?_
    by_cases hname : d.1 = name
    · subst hname
      rw [valuesOf_cons_self, valuesOf_cons_self]
      rw [Place.member, lookup_of_mem hplaces hd] at hmember
      exact .cons hmember (forall₂_sameAt_self d.2 _)
    · have hne : some name ≠ some d.1 := fun heq => hname (Option.some.inj heq).symm
      rw [valuesOf_cons_of_ne hne, valuesOf_cons_of_ne hne]
      exact forall₂_sameAt_self d.2 _
  | item _ _ hitem =>
    subst hplace
    exact absurd hitem (Option.some_ne_none _).symm

/-- What is made of a record that is read is told by what its fields say. -/
theorem determines_map_bind {fields : List Field} {repeats : Repeats} {body : Members → Option α}
    {f : α → β} (hfields : fields.map (·.name) = places.map Prod.fst)
    (hplaces : (places.map Prod.fst).Nodup)
    (h : ∀ found found', SameFields places found found' →
      (body found).map f = (body found').map f) :
    (record places other).Determines fun v => ((v.members? fields repeats).bind body).map f := by
  have hrecord := @determines_record places other (Option β) fields repeats
    (fun found => (found.bind body).map f) hfields hplaces
  exact hrecord h

theorem determines_bind {fields : List Field} {repeats : Repeats} {body : Members → Option α}
    (hfields : fields.map (·.name) = places.map Prod.fst) (hplaces : (places.map Prod.fst).Nodup)
    (h : ∀ found found', SameFields places found found' → body found = body found') :
    (record places other).Determines fun v => (v.members? fields repeats).bind body := by
  have hrecord := @determines_record places other (Option α) fields repeats
    (fun found => found.bind body) hfields hplaces
  exact hrecord h

end Place

/-! ### Fields -/

section Fields

variable {α β : Type} {p : Place} {read : Json → Option α} {found found' : Members} {name : String}

theorem required_congr (hread : p.Determines read)
    (h : Option.Rel (SameAt p) (found.get? name) (found'.get? name)) :
    found.required name read = found'.required name read := by
  obtain ⟨hget, hget'⟩ | ⟨v, w, hget, hget', hsame⟩ := eq_none_or_some_of_rel h
  · rw [Members.required, Members.required, hget, hget']
  · rw [Members.required, Members.required, hget, hget']
    exact hread v w hsame

theorem withDefault_congr {default : α} (hread : p.Determines read)
    (h : Option.Rel (SameAt p) (found.get? name) (found'.get? name)) :
    found.withDefault name default read = found'.withDefault name default read := by
  obtain ⟨hget, hget'⟩ | ⟨v, w, hget, hget', hsame⟩ := eq_none_or_some_of_rel h
  · rw [Members.withDefault, Members.withDefault, hget, hget']
  · rw [Members.withDefault, Members.withDefault, hget, hget']
    exact hread v w hsame

/-- A field that may be missing, seen through what is made of its values. -/
theorem map_optional_congr {f : α → β} (hread : p.Determines fun v => (read v).map f)
    (h : Option.Rel (SameAt p) (found.get? name) (found'.get? name)) :
    (found.optional name read).map (Option.map f) =
      (found'.optional name read).map (Option.map f) := by
  obtain ⟨hget, hget'⟩ | ⟨v, w, hget, hget', hsame⟩ := eq_none_or_some_of_rel h
  · rw [Members.optional, Members.optional, hget, hget']
  · -- A field that is `null` counts as missing, and it is `null` in both or in neither.
    by_cases hnull : v = .null
    · rw [optional_of_missing (Or.inr (hnull ▸ hget)),
        optional_of_missing (Or.inr (hsame.eq_null_iff.mp hnull ▸ hget'))]
    · rw [optional_of_ne_null hget hnull,
        optional_of_ne_null hget' (mt hsame.eq_null_iff.mpr hnull), Option.map_map, Option.map_map]
      have hmap := congrArg (Option.map some) (hread v w hsame)
      rwa [Option.map_map, Option.map_map] at hmap

theorem optional_congr (hread : p.Determines read)
    (h : Option.Rel (SameAt p) (found.get? name) (found'.get? name)) :
    found.optional name read = found'.optional name read := by
  have hread' : p.Determines fun v => (read v).map id := by
    intro v w hsame
    exact congrArg (Option.map id) (hread v w hsame)
  simpa only [Option.map_id_fun, id_eq] using map_optional_congr hread' h

end Fields

end HeadScout.Json
