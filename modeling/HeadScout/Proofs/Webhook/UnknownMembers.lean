import HeadScout.Proofs.Json.SameAt
import HeadScout.Proofs.Webhook.ChangeEntries
import HeadScout.Proofs.Webhook.PushForms

/-!
# What stands beside the known members

Providers add members to their bodies, and write them in any order. Neither has a bearing on what is
read: bodies that differ only in the order of members, and in members that are not known at their
places, say the same push, or fail for the same reason. The entries of a list of changes on Server
are kept before they are read, so what stands beside the known members of an entry, or of its ref,
must be something that can be kept. Elsewhere it may be anything.

## Main definitions

* `Push.place` — what is looked for in the body of an event

## Main results

* `Push.determines_ofDocument` — what a document says is told by what stands at the known places
* `Push.read_of_sameAt` — bodies that say the same are read alike
-/

namespace HeadScout

open Json (Place SameAt SameFields required_congr withDefault_congr optional_congr
  map_optional_congr)
open Payload
open RefUpdate (CanBeKept)

/-! ### Repositories -/

def linkPlace : Place := .record [("href", .value), ("name", .value)] anything

def linksPlace : Place := .record [("clone", .list linkPlace)] anything

def projectPlace : Place := .record [("key", .value)] anything

def serverRepositoryPlace : Place :=
  .record [("slug", .value), ("project", projectPlace), ("links", linksPlace)] anything

def cloudRepositoryPlace : Place :=
  .record [("full_name", .value), ("links", linksPlace)] anything

theorem determines_link : linkPlace.Determines NamedLink.ofJson? := by
  refine Place.determines_bind rfl (by decide) fun found found' h => ?_
  simp only [SameFields, List.forall_mem_cons] at h
  obtain ⟨hhref, hname, -⟩ := h
  rw [required_congr (Place.determines_text? _) hhref,
    withDefault_congr (Place.determines_text? _) hname]

theorem determines_links : linksPlace.Determines linksOfJson? := by
  refine Place.determines_bind rfl (by decide) fun found found' h => ?_
  simp only [SameFields, List.forall_mem_cons] at h
  obtain ⟨hclone, -⟩ := h
  rw [withDefault_congr determines_link.list? hclone]

theorem determines_projectKey : projectPlace.Determines ServerRepository.projectKeyOfJson? := by
  refine Place.determines_bind rfl (by decide) fun found found' h => ?_
  simp only [SameFields, List.forall_mem_cons] at h
  obtain ⟨hkey, -⟩ := h
  rw [required_congr (Place.determines_text? _) hkey]

theorem determines_serverRepository :
    serverRepositoryPlace.Determines ServerRepository.ofJson? := by
  refine Place.determines_bind rfl (by decide) fun found found' h => ?_
  simp only [SameFields, List.forall_mem_cons] at h
  obtain ⟨hslug, hproject, hlinks, -⟩ := h
  rw [required_congr (Place.determines_text? _) hslug,
    required_congr determines_projectKey hproject, withDefault_congr determines_links hlinks]

theorem determines_cloudRepository : cloudRepositoryPlace.Determines CloudRepository.ofJson? := by
  refine Place.determines_bind rfl (by decide) fun found found' h => ?_
  simp only [SameFields, List.forall_mem_cons] at h
  obtain ⟨hname, hlinks, -⟩ := h
  rw [required_congr (Place.determines_text? _) hname, withDefault_congr determines_links hlinks]

/-! ### Bodies of Cloud -/

def cloudTargetPlace : Place := .record [("hash", .value)] anything

def cloudStatePlace : Place :=
  .record [("type", .value), ("name", .value), ("target", cloudTargetPlace)] anything

def cloudChangePlace : Place :=
  .record [("new", cloudStatePlace), ("old", cloudStatePlace), ("created", .value),
    ("closed", .value)] anything

/-- The changes of a push within the body. -/
def cloudChangesPlace : Place := .record [("changes", .list cloudChangePlace)] anything

def cloudPushPlace : Place :=
  .record [("repository", cloudRepositoryPlace), ("push", cloudChangesPlace)] anything

theorem determines_cloudTarget : cloudTargetPlace.Determines CloudState.hashOfJson? := by
  refine Place.determines_bind rfl (by decide) fun found found' h => ?_
  simp only [SameFields, List.forall_mem_cons] at h
  obtain ⟨hhash, -⟩ := h
  rw [optional_congr (Place.determines_text? _) hhash]

theorem determines_cloudState : cloudStatePlace.Determines CloudState.ofJson? := by
  refine Place.determines_bind rfl (by decide) fun found found' h => ?_
  simp only [SameFields, List.forall_mem_cons] at h
  obtain ⟨htype, hname, htarget, -⟩ := h
  rw [withDefault_congr (Place.determines_text? _) htype,
    required_congr (Place.determines_text? _) hname, optional_congr determines_cloudTarget htarget]

theorem determines_cloudChange : cloudChangePlace.Determines CloudChange.ofJson? := by
  refine Place.determines_bind rfl (by decide) fun found found' h => ?_
  simp only [SameFields, List.forall_mem_cons] at h
  obtain ⟨hnew, hold, hcreated, hclosed, -⟩ := h
  rw [optional_congr determines_cloudState hnew, optional_congr determines_cloudState hold,
    withDefault_congr (Place.determines_bool? _) hcreated,
    withDefault_congr (Place.determines_bool? _) hclosed]

theorem determines_cloudChanges : cloudChangesPlace.Determines CloudPush.changesOfJson? := by
  refine Place.determines_bind rfl (by decide) fun found found' h => ?_
  simp only [SameFields, List.forall_mem_cons] at h
  obtain ⟨hchanges, -⟩ := h
  rw [withDefault_congr determines_cloudChange.list? hchanges]

theorem determines_cloudPush : cloudPushPlace.Determines CloudPush.ofJson? := by
  refine Place.determines_bind rfl (by decide) fun found found' h => ?_
  simp only [SameFields, List.forall_mem_cons] at h
  obtain ⟨hrepository, hpush, -⟩ := h
  rw [required_congr determines_cloudRepository hrepository,
    optional_congr determines_cloudChanges hpush]

/-! ### Entries of Server -/

def serverRefPlace : Place :=
  .record [("id", .value), ("displayId", .value), ("type", .value)] (CanBeKept 4)

def serverChangePlace : Place :=
  .record [("ref", serverRefPlace), ("fromHash", .value), ("toHash", .value), ("type", .value)]
    (CanBeKept 3)

theorem keptAt_serverChange : serverChangePlace.KeptAt 2 := by
  -- An entry stands within the brackets of its list and of the body, and its ref within one more.
  have hvalue (depth : Nat) : Place.value.KeptAt depth := .value depth
  have href : serverRefPlace.KeptAt 3 := by
    refine .record ?_ fun _ hv => hv
    simp [hvalue]
  refine .record ?_ fun _ hv => hv
  simp [hvalue, href]

theorem determines_serverRef : serverRefPlace.Determines ServerRef.ofJson? := by
  refine Place.determines_bind rfl (by decide) fun found found' h => ?_
  simp only [SameFields, List.forall_mem_cons] at h
  obtain ⟨hid, hdisplay, htype, -⟩ := h
  rw [withDefault_congr (Place.determines_text? _) hid,
    withDefault_congr (Place.determines_text? _) hdisplay,
    withDefault_congr (Place.determines_text? _) htype]

theorem determines_changeTag (p : Place) : p.Determines ChangeTag.ofJson? := by
  intro v w h
  rw [ChangeTag.ofJson?, ChangeTag.ofJson?, p.determines_text? v w h]

theorem determines_serverChange : serverChangePlace.Determines serverChange? := by
  have hread : serverChangePlace.Determines ServerChange.ofJson? := by
    refine Place.determines_bind rfl (by decide) fun found found' h => ?_
    simp only [SameFields, List.forall_mem_cons] at h
    obtain ⟨href, hfrom, hto, htype, -⟩ := h
    rw [required_congr determines_serverRef href,
      optional_congr (Place.determines_text? _) hfrom,
      optional_congr (Place.determines_text? _) hto, required_congr (determines_changeTag _) htype]
  intro v w h
  rw [serverChange?, serverChange?, hread v w h]

/-- The changes that are read of a list, and how many of its entries are skipped. -/
theorem determines_entries :
    (Place.list serverChangePlace).Determines fun v => (entries? v).map serverChanges := by
  refine Place.determines_list (fun _ _ => rfl) fun vs vs' v w h => ?_
  have hchange := determines_serverChange v w h
  have hkept := h.isStorable_eq keptAt_serverChange
  have hchanges : serverChanges (vs ++ v :: vs') = serverChanges (vs ++ w :: vs') := by
    refine Traced.ext ?_ ?_
    · simp only [value_serverChanges, List.filterMap_append, List.filterMap_cons, hchange]
    · -- An entry that is skipped is skipped in both, so as many notes are made.
      simp only [serverChanges, List.filter_append, List.filter_cons, hchange, List.map_append]
      split_ifs <;> rfl
  have hstorable : Json.areStorable 2 (vs ++ v :: vs') = Json.areStorable 2 (vs ++ w :: vs') := by
    simp only [Json.areStorable_eq_all, List.all_append, List.all_cons, hkept]
  simp only [entries?_array, hstorable]
  split_ifs
  · exact congrArg some hchanges
  · rfl

/-! ### Bodies of Server -/

def serverCommitPlace : Place := .record [("id", .value)] anything

def mirrorPlace : Place := .record [("id", .value)] anything

def serverPushPlace : Place :=
  .record [("repository", serverRepositoryPlace), ("changes", .list serverChangePlace),
    ("toCommit", serverCommitPlace)] anything

def mirrorSyncPlace : Place :=
  .record [("repository", serverRepositoryPlace), ("mirrorServer", mirrorPlace),
    ("changes", .list serverChangePlace), ("refLimitExceeded", .value)] anything

theorem determines_serverCommit : serverCommitPlace.Determines ServerPush.commitOfJson? := by
  refine Place.determines_bind rfl (by decide) fun found found' h => ?_
  simp only [SameFields, List.forall_mem_cons] at h
  obtain ⟨hid, -⟩ := h
  rw [required_congr (Place.determines_text? _) hid]

theorem determines_mirrorId : mirrorPlace.Determines MirrorSync.mirrorIdOfJson? := by
  refine Place.determines_bind rfl (by decide) fun found found' h => ?_
  simp only [SameFields, List.forall_mem_cons] at h
  obtain ⟨hid, -⟩ := h
  rw [required_congr (Place.determines_text? _) hid]

theorem eq_none_or_some_of_map_eq {α β : Type} {f : α → β} {o o' : Option α}
    (h : o.map f = o'.map f) :
    (o = none ∧ o' = none) ∨ ∃ a a', o = some a ∧ o' = some a' ∧ f a = f a' := by
  cases o with
  | none => exact Or.inl ⟨rfl, Option.map_eq_none_iff.mp h.symm⟩
  | some a =>
    obtain ⟨a', ho', hmap⟩ := Option.map_eq_some_iff.mp h.symm
    exact Or.inr ⟨a, a', rfl, ho', hmap.symm⟩

/-- A list that is missing has no changes. -/
theorem serverChanges_getD_congr {es es' : Option (List Json)}
    (h : es.map serverChanges = es'.map serverChanges) :
    serverChanges (es.getD []) = serverChanges (es'.getD []) := by
  obtain ⟨rfl, rfl⟩ | ⟨es, es', rfl, rfl, hread⟩ := eq_none_or_some_of_map_eq h
  · rfl
  · exact hread

theorem determines_serverPush :
    serverPushPlace.Determines fun v => (ServerPush.ofJson? v).map ServerPush.toEvent := by
  refine Place.determines_map_bind rfl (by decide) fun found found' h => ?_
  simp only [SameFields, List.forall_mem_cons] at h
  obtain ⟨hrepository, hchanges, hcommit, -⟩ := h
  rw [required_congr determines_serverRepository hrepository,
    optional_congr determines_serverCommit hcommit]
  -- The lists themselves may differ, only what is read of them is the same.
  obtain ⟨hes, hes'⟩ | ⟨es, es', hes, hes', hread⟩ :=
    eq_none_or_some_of_map_eq (map_optional_congr determines_entries hchanges)
  · rw [hes, hes']
  · have hevent (repository : ServerRepository) (commit : Option String) :
        ServerPush.toEvent ⟨repository, es, commit⟩ =
          ServerPush.toEvent ⟨repository, es', commit⟩ := by
      unfold ServerPush.toEvent
      rw [serverChanges_getD_congr hread]
    rw [hes, hes']
    cases found'.required "repository" ServerRepository.ofJson? with
    | none => rfl
    | some repository =>
      cases found'.optional "toCommit" ServerPush.commitOfJson? with
      | none => rfl
      | some commit => exact congrArg some (hevent repository commit)

theorem determines_mirrorSync :
    mirrorSyncPlace.Determines fun v => (MirrorSync.ofJson? v).map MirrorSync.toEvent := by
  refine Place.determines_map_bind rfl (by decide) fun found found' h => ?_
  simp only [SameFields, List.forall_mem_cons] at h
  obtain ⟨hrepository, hmirror, hchanges, hlimit, -⟩ := h
  rw [required_congr determines_serverRepository hrepository,
    required_congr determines_mirrorId hmirror,
    withDefault_congr (Place.determines_bool? _) hlimit]
  obtain ⟨hes, hes'⟩ | ⟨es, es', hes, hes', hread⟩ :=
    eq_none_or_some_of_map_eq (map_optional_congr determines_entries hchanges)
  · rw [hes, hes']
  · have hevent (repository : ServerRepository) (mirrorId : String) (limit : Bool) :
        MirrorSync.toEvent ⟨repository, mirrorId, es, limit⟩ =
          MirrorSync.toEvent ⟨repository, mirrorId, es', limit⟩ := by
      unfold MirrorSync.toEvent
      rw [serverChanges_getD_congr hread]
    rw [hes, hes']
    cases found'.required "repository" ServerRepository.ofJson? with
    | none => rfl
    | some repository =>
      cases found'.required "mirrorServer" MirrorSync.mirrorIdOfJson? with
      | none => rfl
      | some mirrorId =>
        cases found'.withDefault "refLimitExceeded" false Json.bool? with
        | none => rfl
        | some limit => exact congrArg some (hevent repository mirrorId limit)

/-! ### Events -/

namespace Push

/-- What is looked for in the body of an event. -/
def place : WebhookKind → Place
  | .push => cloudPushPlace
  | .refsChanged => serverPushPlace
  | .mirrorSynchronized => mirrorSyncPlace
  | .ping => .value

/-- What a document says is told by what stands at the known places. -/
theorem determines_ofDocument (kind : WebhookKind) : (place kind).Determines (ofDocument kind) := by
  intro v w h
  cases kind with
  | ping => rfl
  | push => rw [ofDocument, ofDocument, expect, expect, determines_cloudPush v w h]
  | refsChanged =>
    obtain ⟨hv, hw⟩ | ⟨b, b', hv, hw, hevent⟩ :=
      eq_none_or_some_of_map_eq (determines_serverPush v w h)
    · rw [ofDocument, ofDocument, expect, expect, hv, hw]
    · rw [ofDocument, ofDocument, expect, expect, hv, hw]
      change ExceptT.adapt WebhookError.payload (b.toEvent >>= _) = _
      rw [hevent]
      rfl
  | mirrorSynchronized =>
    obtain ⟨hv, hw⟩ | ⟨b, b', hv, hw, hevent⟩ :=
      eq_none_or_some_of_map_eq (determines_mirrorSync v w h)
    · rw [ofDocument, ofDocument, expect, expect, hv, hw]
    · rw [ofDocument, ofDocument, expect, expect, hv, hw]
      change ExceptT.adapt WebhookError.payload (b.toEvent >>= _) = _
      rw [hevent]
      rfl

/-- Bodies that say the same are read alike, whether or not they can be read: to the same push, or
to the same failure, with the same missing field if one is missing. So the order of members does not
matter, in the body or in anything it holds, and neither do members that are not known at their
places. In the entries of a list of changes of Server, and in the refs of these, such members must
be something that can be kept. -/
theorem read_of_sameAt {kind : WebhookKind} {body body' : String} {document document' : Json}
    (hparse : Json.parse? body = some document) (hparse' : Json.parse? body' = some document')
    (h : SameAt (place kind) document document') : read kind body' = read kind body := by
  unfold read
  rw [hparse, hparse']
  cases kind with
  | ping => rfl
  | _ => exact (determines_ofDocument _ document document' h).symm

/-- The ref of a branch, and what a newer version of the product adds to it. -/
def sampleRef (more : List (String × Json)) : Json :=
  .record (("id", .text ("refs/heads/" ++ "m")) :: more)

/-- A push that moves `m`, written in another order than `listedDocument`, with a date and with more
about the ref. -/
def extendedDocument : Json :=
  .record [("date", .nat 1),
    ("changes", .array [.record [("toHash", .text "a"),
      ("ref", sampleRef [("latestCommit", .text "a")]), ("type", .text "UPDATE")]]),
    ("repository", .record [("project", .record [("key", .text "P")]), ("slug", .text "w")]),
    ("actor", .null)]

theorem parse?_extendedDocument :
    Json.parse? extendedDocument.render = some extendedDocument := by
  have href : (sampleRef [("latestCommit", .text "a")]).HasWrittenNumbers :=
    Json.hasWrittenNumbers_record (by simp)
  have hproject : (Json.record [("key", .text "P")]).HasWrittenNumbers :=
    Json.hasWrittenNumbers_record (by simp)
  have hrepository : (Json.record [("project", .record [("key", .text "P")]),
      ("slug", .text "w")]).HasWrittenNumbers :=
    Json.hasWrittenNumbers_record (by simp [hproject])
  have hchanges : (Json.array [.record [("toHash", .text "a"),
      ("ref", sampleRef [("latestCommit", .text "a")]),
      ("type", .text "UPDATE")]]).HasWrittenNumbers :=
    Json.hasWrittenNumbers_array (by simp [Json.hasWrittenNumbers_record, href])
  exact Json.parse?_render (Json.hasWrittenNumbers_record (by simp [hchanges, hrepository]))

theorem sameAt_extendedDocument :
    SameAt serverPushPlace (listedDocument [movedEntry "m" "a"]) extendedDocument := by
  -- From the inside out: the repository, the ref and its entry, then the body around them.
  have hrepository : SameAt serverRepositoryPlace
      (.record [("slug", .text "w"), ("project", .record [("key", .text "P")])])
      (.record [("project", .record [("key", .text "P")]), ("slug", .text "w")]) :=
    .perm (by decide) (.swap _ _ [])
  have href : SameAt serverRefPlace (sampleRef []) (sampleRef [("latestCommit", .text "a")]) :=
    .unknown [_] [] (by decide) rfl
  have hentry : SameAt serverChangePlace (movedEntry "m" "a") (.record [("toHash", .text "a"),
      ("ref", sampleRef [("latestCommit", .text "a")]), ("type", .text "UPDATE")]) :=
    .trans (.member [] [_, _] href) (.perm (by decide) (.swap _ _ [_]))
  have hchanges : SameAt (.list serverChangePlace) (.array [movedEntry "m" "a"]) (.array [_]) :=
    .item [] [] rfl hentry
  refine .trans (.member [] [_, _] hrepository) ?_
  refine .trans (.member [_] [_] hchanges) ?_
  refine .trans (.perm (by decide) (.swap _ _ [_])) ?_
  exact .unknown [] [_, _, _] (by decide) trivial

/-- Both bodies say that the branch moved. -/
theorem read_of_sameAt_extendedDocument :
    read .refsChanged extendedDocument.render =
        read .refsChanged (listedDocument [movedEntry "m" "a"]).render ∧
      (read .refsChanged extendedDocument.render).run.value = .ok (movedPush [("m", "a")]) := by
  have hparse : Json.parse? (listedDocument [movedEntry "m" "a"]).render = some _ :=
    parse?_listedDocument (by simp [hasWrittenNumbers_movedEntry])
  have hsame : read .refsChanged extendedDocument.render =
      read .refsChanged (listedDocument [movedEntry "m" "a"]).render :=
    read_of_sameAt hparse parse?_extendedDocument sameAt_extendedDocument
  refine ⟨hsame, ?_⟩
  rw [hsame, read_of_parse? (by decide) hparse]
  decide +kernel

end Push

end HeadScout
