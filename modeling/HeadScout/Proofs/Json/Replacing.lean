import HeadScout.Proofs.Json.Record

/-!
# One field replaced

Two documents may differ in the value of one field alone. In an object that is the value of one
member, whatever the order of the members and whatever else there is; in an array it is the item in
the place of the field. If one of the documents is read as a record, then so is the other, and all
other fields hold the same.

## Main definitions

* `Json.DifferAt` — two documents that differ in the value of one field

## Main results

* `Json.DifferAt.exists_members?` — what a record finds in the other document
-/

namespace HeadScout.Json

/-- A document with the value `v` in a field, and the one with `w` instead. -/
inductive DifferAt (fields : List Field) (name : String) (v w : Json) : Json → Json → Prop where
  /-- A member bears the name of the field. -/
  | member (ms ms' : List (Option String × Json)) :
    DifferAt fields name v w (.object (ms ++ (some name, v) :: ms'))
      (.object (ms ++ (some name, w) :: ms'))
  /-- The item stands in the place of the field. -/
  | item (items items' : List Json) (hplace : (fields.map (·.name))[items.length]? = some name) :
    DifferAt fields name v w (.array (items ++ v :: items')) (.array (items ++ w :: items'))

variable {fields : List Field} {name n : String} {v w document document' : Json}

/-! ### Reading the other document -/

theorem known_append_cons (hname : fields.any (·.name == name) = true)
    (ms ms' : List (Option String × Json)) (v : Json) :
    known fields (ms ++ (some name, v) :: ms') =
      known fields ms ++ (name, v) :: known fields ms' := by
  have happend : known fields (ms ++ (some name, v) :: ms') =
      known fields ms ++ known fields ((some name, v) :: ms') := List.filterMap_append
  rw [happend, known_cons_some, if_pos hname]

theorem exists_eq_append_cons {α : Type} {as : List α} {a : α} {k : Nat} (h : as[k]? = some a) :
    ∃ front back, as = front ++ a :: back ∧ front.length = k := by
  obtain ⟨hlt, rfl⟩ := List.getElem?_eq_some_iff.mp h
  refine ⟨as.take k, as.drop (k + 1), ?_, List.length_take_of_le (Nat.le_of_lt hlt)⟩
  rw [← List.drop_eq_getElem_cons hlt, List.take_append_drop]

/-- What a record finds in one document and in the other is the same in front of the field and
behind it. -/
theorem DifferAt.exists_split (h : DifferAt fields name v w document document')
    (hfields : (fields.map (·.name)).Nodup) (hname : name ∈ fields.map (·.name)) {found : Members}
    (hfound : document.members? fields .refused = some found) :
    ∃ xs ys, found = xs ++ (name, v) :: ys ∧ name ∉ ys.map Prod.fst ∧
      document'.members? fields .refused = some (xs ++ (name, w) :: ys) := by
  cases h with
  | member ms ms' =>
    have hany : fields.any (·.name == name) = true := by
      obtain ⟨f, hf, heq⟩ := List.mem_map.mp hname
      exact List.any_eq_true.mpr ⟨f, hf, beq_iff_eq.mpr heq⟩
    obtain ⟨hnames, honce, rfl⟩ := members?_object_eq_some_iff.mp hfound
    have hnodup := nodup_known_iff.mpr honce
    rw [known_append_cons hany, List.map_append, List.map_cons] at hnodup
    refine ⟨known fields ms, known fields ms', known_append_cons hany ms ms' v, ?_, ?_⟩
    · exact (List.nodup_cons.mp (List.nodup_append.mp hnodup).2.1).1
    · -- The names are the same in both objects, and only they decide whether it is a record.
      refine members?_object_eq_some_iff.mpr ⟨?_, ?_, (known_append_cons hany ms ms' w).symm⟩
      · rw [List.forall_mem_append, List.forall_mem_cons] at hnames ⊢
        exact hnames
      · rw [← nodup_known_iff, known_append_cons hany, List.map_append, List.map_cons]
        exact hnodup
  | item items items' hplace =>
    obtain ⟨front, back, hnames, hlength⟩ := exists_eq_append_cons hplace
    have hzip : ∀ u, (fields.map (·.name)).zip (items ++ u :: items') =
        front.zip items ++ (name, u) :: back.zip items' := by
      intro u
      rw [hnames, List.zip_append hlength, List.zip_cons_cons]
    rw [members?, Option.ite_none_right_eq_some, Option.some_inj] at hfound
    obtain ⟨hread, rfl⟩ := hfound
    refine ⟨_, _, hzip v, ?_, ?_⟩
    · rw [hnames] at hfields
      exact notMem_zip (List.nodup_cons.mp (List.nodup_append.mp hfields).2.1).1
    · rw [members?, ← hzip w, if_pos]
      simpa using hread

/-- A record is read from both documents or from none, and only the one field tells them apart. -/
theorem DifferAt.exists_members? (h : DifferAt fields name v w document document')
    (hfields : (fields.map (·.name)).Nodup) (hname : name ∈ fields.map (·.name)) {found : Members}
    (hfound : document.members? fields .refused = some found) :
    found.get? name = some v ∧
      ∃ found', document'.members? fields .refused = some found' ∧ found'.get? name = some w ∧
        ∀ n, n ≠ name → found'.get? n = found.get? n := by
  obtain ⟨xs, ys, rfl, hlast, hfound'⟩ := h.exists_split hfields hname hfound
  refine ⟨Members.get?_append_cons hlast, _, hfound', Members.get?_append_cons hlast, ?_⟩
  intro n hn
  rw [Members.get?_append_cons_of_ne hn, Members.get?_append_cons_of_ne hn]

end HeadScout.Json
