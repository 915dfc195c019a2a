import HeadScout.Json.Storable
import HeadScout.Proofs.Json.Record

/-!
# Objects by what they hold

What a provider sends is described by what stands under some names. Their order does not matter, and
neither do other members among them. A description is met by many documents, and a record reads the
same from all of them.

Such a record may also be written as an array that holds what is demanded by place. There no place
may be left out, if the last field has no default.

A document that is kept before it is read must also be one that can be kept. Whether it is depends
on the other members too, and on nothing but them where the described ones can be kept.

## Main definitions

* `Json.IsRecord` — an object that holds what is demanded of it
* `Json.IsRecordOrArray` — such an object, or an array of what is demanded
* `Json.IsList` — an array whose items stand for some values, one by one

## Main results

* `Json.IsRecord.exists_members?` — what a record finds in such an object
* `Json.IsRecord.isStorable` — such an object can be kept
* `Json.isRecordOrArray_iff` — the documents in which a record finds what is demanded
* `Json.IsList.exists_list?` — the items are read one by one
-/

namespace HeadScout.Json

/-! ### Objects -/

/-- What an object must hold under a name, if it holds anything there. -/
abbrev Demand := String × (Option Json → Prop)

/-- Something stands there, and it is such a value. -/
def Holds (p : Json → Prop) (o : Option Json) : Prop := ∃ v, o = some v ∧ p v

/-- Nothing stands there, or `null`. -/
def Missing (o : Option Json) : Prop := o = none ∨ o = some .null

/-- An object whose names spell text. It holds what is demanded, each of it at most once, and under
other names it may hold other values. -/
def IsRecord (demands : List Demand) (other : Json → Prop) (v : Json) : Prop :=
  ∃ ms, v = .object ms ∧
    (∀ m ∈ ms, ∃ name, m.1 = some name ∧ (name ∉ demands.map Prod.fst → other m.2)) ∧
    ∀ d ∈ demands, ∃ o : Option Json, valuesOf d.1 ms = o.toList ∧ d.2 o

namespace IsRecord

variable {demands : List Demand} {other : Json → Prop} {v : Json}

/-- A record with exactly the demanded fields finds what is demanded. -/
theorem exists_members? (h : IsRecord demands other v) (fields : List Field) (repeats : Repeats)
    (hfields : fields.map (·.name) = demands.map Prod.fst) :
    ∃ found, v.members? fields repeats = some found ∧ ∀ d ∈ demands, d.2 (found.get? d.1) := by
  obtain ⟨ms, rfl, hnames, hholds⟩ := h
  refine ⟨known fields ms, ?_, ?_⟩
  · have htext : ∀ m ∈ ms, m.1.isSome = true := by
      intro m hm
      obtain ⟨name, hname, -⟩ := hnames m hm
      rw [hname, Option.isSome_some]
    cases repeats with
    | refused =>
      refine members?_object_eq_some_iff.mpr ⟨htext, ?_, rfl⟩
      intro f hf
      have hmem : f.name ∈ demands.map Prod.fst := hfields ▸ List.mem_map_of_mem hf
      obtain ⟨d, hd, hname⟩ := List.mem_map.mp hmem
      obtain ⟨o, ho, -⟩ := hholds d hd
      -- Each demand speaks of one value at most, so no field is repeated.
      rw [← hname, ho]
      exact Option.length_toList_le
    | lastStays =>
      have hall : ms.all (·.1.isSome) = true := List.all_eq_true.mpr htext
      rw [members?, hall]
      rfl
  · intro d hd
    have hmem : d.1 ∈ fields.map (·.name) := hfields ▸ List.mem_map_of_mem hd
    obtain ⟨f, hf, hname⟩ := List.mem_map.mp hmem
    obtain ⟨o, ho, hd⟩ := hholds d hd
    rw [get?_known (List.any_eq_true.mpr ⟨f, hf, beq_iff_eq.mpr hname⟩), ho]
    cases o with
    | none => exact hd
    | some w => exact hd

/-- An object without other members. -/
theorem of_record (ms : List (String × Json)) (hnames : ∀ m ∈ ms, m.1 ∈ demands.map Prod.fst)
    (hholds : ∀ d ∈ demands, ∃ o : Option Json,
      valuesOf d.1 (ms.map fun (name, v) => (some name, v)) = o.toList ∧ d.2 o) :
    IsRecord demands other (record ms) := by
  refine ⟨_, rfl, ?_, hholds⟩
  intro m hm
  obtain ⟨m', hm', rfl⟩ := List.mem_map.mp hm
  exact ⟨m'.1, rfl, fun hother => absurd (hnames m' hm') hother⟩

theorem ne_null (h : IsRecord demands other v) : v ≠ .null := by
  obtain ⟨ms, rfl, -⟩ := h
  nofun

/-- The object can be kept if whatever is demanded and the other values can be kept within it. -/
theorem isStorable {depth : Nat}
    (h : IsRecord demands (fun w => Json.isStorable (depth + 1) w = true) v)
    (hdepth : depth + 1 < nestingLimit)
    (hdemands : ∀ d ∈ demands, ∀ w, d.2 (some w) → Json.isStorable (depth + 1) w = true) :
    v.isStorable depth = true := by
  obtain ⟨ms, rfl, hnames, hholds⟩ := h
  rw [Json.isStorable, membersStorable_eq_all, decide_eq_true hdepth, Bool.true_and,
    List.all_eq_true]
  intro m hm
  obtain ⟨name, hname, hother⟩ := hnames m hm
  rw [hname, Option.isSome_some, Bool.true_and]
  by_cases hmem : name ∈ demands.map Prod.fst
  · obtain ⟨d, hd, rfl⟩ := List.mem_map.mp hmem
    obtain ⟨o, ho, hholdsd⟩ := hholds d hd
    have hvalue := mem_valuesOf hm hname
    rw [ho, Option.mem_toList] at hvalue
    rw [Option.mem_def.mp hvalue] at hholdsd
    exact hdemands d hd m.2 hholdsd
  · exact hother hmem

/-- An object in which a record finds what is demanded holds it. -/
theorem of_members? {fields : List Field} (hfields : fields.map (·.name) = demands.map Prod.fst)
    {ms : List (Option String × Json)} {found : Members}
    (hfound : (object ms).members? fields .refused = some found)
    (hholds : ∀ d ∈ demands, d.2 (found.get? d.1)) :
    IsRecord demands (fun _ => True) (object ms) := by
  obtain ⟨hnames, honce, rfl⟩ := members?_object_eq_some_iff.mp hfound
  refine ⟨ms, rfl, fun m hm => ?_, fun d hd => ?_⟩
  · obtain ⟨name, hname⟩ := Option.isSome_iff_exists.mp (hnames m hm)
    exact ⟨name, hname, fun _ => trivial⟩
  · have hmem : d.1 ∈ fields.map (·.name) := hfields ▸ List.mem_map_of_mem hd
    obtain ⟨f, hf, hname⟩ := List.mem_map.mp hmem
    have hvalue := hholds d hd
    rw [get?_known (List.any_eq_true.mpr ⟨f, hf, beq_iff_eq.mpr hname⟩)] at hvalue
    have hone := honce f hf
    rw [hname] at hone
    -- There is at most one value, which then is the last one.
    rcases hvalues : valuesOf d.1 ms with _ | ⟨w, _ | ⟨w', ws⟩⟩
    · rw [hvalues] at hvalue
      exact ⟨none, rfl, hvalue⟩
    · rw [hvalues] at hvalue
      exact ⟨some w, rfl, hvalue⟩
    · rw [hvalues] at hone
      exact absurd hone (by simp)

end IsRecord

/-! ### Objects and arrays -/

/-- A record that is written as an object which holds what is demanded, or as an array of the
demanded values in their order. -/
def IsRecordOrArray (demands : List Demand) (v : Json) : Prop :=
  IsRecord demands (fun _ => True) v ∨
    ∃ ws, v = .array ws ∧ List.Forall₂ (fun d w => d.2 (some w)) demands ws

/-- In an array each field has the value at its place. -/
theorem forall_get?_zip_iff {demands : List Demand} (hnodup : (demands.map Prod.fst).Nodup)
    {ws : List Json} (hlength : ws.length = demands.length) :
    (∀ d ∈ demands, d.2 (Members.get? ((demands.map Prod.fst).zip ws) d.1)) ↔
      List.Forall₂ (fun d w => d.2 (some w)) demands ws := by
  induction demands generalizing ws with
  | nil =>
    obtain rfl := List.length_eq_zero_iff.mp hlength
    exact iff_of_true (List.forall_mem_nil _) .nil
  | cons d demands ih =>
    obtain ⟨w, ws, rfl⟩ := List.exists_cons_of_length_eq_add_one hlength
    -- No name comes twice, so the first item is that of the first field and of no other one.
    rw [List.map_cons, List.nodup_cons] at hnodup
    obtain ⟨hfresh, hnodup⟩ := hnodup
    have hself : Members.get? ((d.1, w) :: (demands.map Prod.fst).zip ws) d.1 = some w :=
      @Members.get?_append_cons d.1 w [] _ (notMem_zip hfresh)
    have hother : ∀ d' ∈ demands,
        Members.get? ((d.1, w) :: (demands.map Prod.fst).zip ws) d'.1 =
          Members.get? ((demands.map Prod.fst).zip ws) d'.1 := by
      intro d' hd'
      have hne : d'.1 ≠ d.1 := fun h => hfresh (h ▸ List.mem_map_of_mem hd')
      exact @Members.get?_append_cons_of_ne d.1 d'.1 w [] _ hne
    rw [List.map_cons, List.zip_cons_cons, List.forall_mem_cons, hself, List.forall₂_cons,
      ← ih hnodup (Nat.succ.inj hlength)]
    refine and_congr_right fun _ => forall₂_congr fun d' hd' => ?_
    rw [hother d' hd']

/-- What a record finds in a document, where each field is demanded and the last one has no default.
-/
theorem isRecordOrArray_iff (fields : List Field) {demands : List Demand} {v : Json}
    (hfields : fields.map (·.name) = demands.map Prod.fst)
    (hnodup : (fields.map (·.name)).Nodup)
    (hlast : ∃ f, fields.getLast? = some f ∧ f.hasDefault = false) :
    IsRecordOrArray demands v ↔
      ∃ found, v.members? fields .refused = some found ∧ ∀ d ∈ demands, d.2 (found.get? d.1) := by
  have hlength : fields.length = demands.length := by simpa using congrArg List.length hfields
  rw [hfields] at hnodup
  constructor
  · rintro (hrecord | ⟨ws, rfl, hws⟩)
    · exact hrecord.exists_members? fields .refused hfields
    · have hplaces : ws.length = demands.length := hws.length_eq.symm
      refine ⟨_, (members?_array_eq_some_iff hlast).mpr ⟨hplaces.trans hlength.symm, rfl⟩, ?_⟩
      rw [hfields]
      exact (forall_get?_zip_iff hnodup hplaces).mpr hws
  · rintro ⟨found, hfound, hholds⟩
    cases v with
    | object ms => exact Or.inl (.of_members? hfields hfound hholds)
    | array ws =>
      obtain ⟨hws, rfl⟩ := (members?_array_eq_some_iff hlast).mp hfound
      rw [hfields] at hholds
      exact Or.inr ⟨ws, rfl, (forall_get?_zip_iff hnodup (hws.trans hlength)).mp hholds⟩
    | null | bool | number | string => cases hfound

/-! ### Fields -/

variable {α β : Type} {found : Members} {name : String} {read : Json → Option α}

theorem optional_of_missing (h : Missing (found.get? name)) :
    found.optional name read = some none := by
  obtain hget | hget := h <;> rw [Members.optional, hget]

theorem text_ne_null (s : String) : text s ≠ .null := nofun

theorem optional_of_ne_null {v : Json} (hget : found.get? name = some v) (hv : v ≠ .null) :
    found.optional name read = (read v).map some := by
  rw [Members.optional, hget]
  cases v with
  | null => exact absurd rfl hv
  | _ => rfl

/-! ### Arrays -/

/-- An array whose items stand for some values, one by one. -/
def IsList (stands : β → Json → Prop) (bs : List β) (v : Json) : Prop :=
  ∃ vs, v = .array vs ∧ List.Forall₂ stands bs vs

theorem IsList.of_map {stands : β → Json → Prop} {write : β → Json}
    (h : ∀ b, stands b (write b)) (bs : List β) : IsList stands bs (.array (bs.map write)) :=
  ⟨bs.map write, rfl, List.forall₂_map_right_iff.mpr (List.forall₂_same.mpr fun b _ => h b)⟩

theorem IsList.exists_list? {stands : β → Json → Prop} {bs : List β} {v : Json}
    (h : IsList stands bs v) {means : β → α → Prop}
    (hread : ∀ b w, stands b w → ∃ a, read w = some a ∧ means b a) :
    ∃ as, list? read v = some as ∧ List.Forall₂ means bs as := by
  obtain ⟨vs, rfl, hvs⟩ := h
  induction hvs with
  | nil => exact ⟨[], rfl, .nil⟩
  | @cons b w bs vs hw _ ih =>
    obtain ⟨a, ha, hmeans⟩ := hread b w hw
    obtain ⟨as, has, hrest⟩ := ih
    refine ⟨a :: as, ?_, .cons hmeans hrest⟩
    have htail : vs.mapM read = some as := has
    rw [list?, List.mapM_cons, ha, htail]
    rfl

end HeadScout.Json
