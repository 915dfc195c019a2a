import HeadScout.DeliveryId

/-!
# Delivery identifiers are read back

The grouped form of an identifier has 36 characters, which no other form has, so it is read as what
it is.

## Main results

* `DeliveryId.read?_render` — an identifier is read back from its grouped form
-/

namespace HeadScout.DeliveryId

theorem digit?_digitChar (d : Fin 16) : digit? (Hexadecimal.digitChar d.val) = some d := by
  rw [digit?, Hexadecimal.digit?_digitChar d.isLt, Option.bind_some, dif_pos d.isLt]

theorem mapM_digit?_map_digitChar (ds : List (Fin 16)) :
    (ds.map fun d => Hexadecimal.digitChar d.val).mapM digit? = some ds := by
  induction ds with
  | nil => rfl
  | cons d ds ih =>
    rw [List.map_cons, List.mapM_cons, digit?_digitChar, ih]
    rfl

/-- The digits of an identifier are those of the identifier. -/
theorem ofDigits?_map_digitChar (i : DeliveryId) :
    ofDigits? (i.digits.toList.map fun d => Hexadecimal.digitChar d.val) = some i := by
  have hsize : i.digits.toList.toArray.size = 32 := by
    rw [List.size_toArray, Vector.length_toList]
  rw [ofDigits?, mapM_digit?_map_digitChar]
  simp only [bind, Option.bind_some, dif_pos hsize]
  rfl

/-- The groups are put together again. -/
theorem ungroup?_groups (a b c d e : List Char) (ha : a.length = 8) (hb : b.length = 4)
    (hc : c.length = 4) (hd : d.length = 4) (he : e.length = 12) :
    (a ++ '-' :: b ++ '-' :: c ++ '-' :: d ++ '-' :: e).length = 36 ∧
      ungroup? (a ++ '-' :: b ++ '-' :: c ++ '-' :: d ++ '-' :: e) =
        some (a ++ b ++ c ++ d ++ e) := by
  have hlength : (a ++ '-' :: b ++ '-' :: c ++ '-' :: d ++ '-' :: e).length = 36 := by
    simp [ha, hb, hc, hd, he]
  have hhyphens : [8, 13, 18, 23].all (fun i =>
      (a ++ '-' :: b ++ '-' :: c ++ '-' :: d ++ '-' :: e)[i]? == some '-') = true := by
    simp [List.getElem?_append, List.getElem?_cons, ha, hb, hc, hd]
  refine ⟨hlength, ?_⟩
  rw [ungroup?, if_pos ⟨hlength, hhyphens⟩]
  simp [List.drop_append, List.drop_of_length_le, ha, hb, hc, hd]

/-- An identifier is read back from its grouped form. -/
theorem read?_render (i : DeliveryId) : read? i.render = some i := by
  have hlength : (i.digits.toList.map fun d => Hexadecimal.digitChar d.val).length = 32 := by
    rw [List.length_map, Vector.length_toList]
  have hread := ofDigits?_map_digitChar i
  rw [read?, render, String.toList_ofList]
  generalize (i.digits.toList.map fun d => Hexadecimal.digitChar d.val) = cs at hlength hread ⊢
  obtain ⟨hgrouped, hungroup⟩ := ungroup?_groups (cs.take 8) ((cs.drop 8).take 4)
    ((cs.drop 12).take 4) ((cs.drop 16).take 4) (cs.drop 20) (by simp [hlength])
    (by simp [hlength]) (by simp [hlength]) (by simp [hlength]) (by simp [hlength])
  rw [readChars?, hgrouped]
  simp only [Nat.reduceEqDiff, if_false]
  -- Each group is cut off in front of what the next ones are cut from.
  have hstep : ∀ n, (cs.drop n).take 4 ++ cs.drop (n + 4) = cs.drop n := by
    intro n
    rw [← List.drop_drop, List.take_append_drop]
  rw [hungroup, List.append_assoc, hstep 16, List.append_assoc, hstep 12, List.append_assoc,
    hstep 8, List.take_append_drop]
  exact hread

end HeadScout.DeliveryId
