import HeadScout.Proofs.Webhook.PushForms

/-!
# Reading either form of a push

Whichever product tells of a push, the same is read. The marks of Cloud become the tags of Server, a
side without a commit is one without a hash, and a ref has its short name, even if that looks like
the full name of another ref. Each update is read on its own, and lists of them in turn; a body is
read unless its repository lacks an owner or a name.

## Main results

* `RefUpdate.ofJson?_cloudChange`, `RefUpdate.serverChange?_eq` — one update in either form
* `PushReport.run_cloudBody`, `PushReport.run_serverBody` — a body in either form
-/

namespace HeadScout

open Json (Holds Missing IsRecord IsList)
open Payload

/-! ### Repositories -/

theorem protocol?_of_mem {l : NamedLink} {protocol : Protocol}
    (h : Text.lower l.name ∈ linkNames protocol) : l.protocol? = some protocol := by
  unfold NamedLink.protocol?
  cases protocol with
  | http =>
    rcases List.mem_cons.mp h with h | h
    · rw [h]
      rfl
    · rw [List.mem_singleton.mp h]
      rfl
  | ssh =>
    rw [List.mem_singleton.mp h]
    rfl

theorem ofJson?_link (l : CloneLink) (v : Json) (h : IsLink l v) :
    ∃ named, NamedLink.ofJson? v = some named ∧ named.toCloneLink? = some l := by
  obtain ⟨found, hfound, hget⟩ := h.exists_members? NamedLink.fields .refused rfl
  simp only [List.forall_mem_cons] at hget
  obtain ⟨⟨_, hhref, rfl⟩, ⟨_, hname, name, hprotocol, rfl⟩, -⟩ := hget
  refine ⟨⟨l.href, name⟩, ?_, ?_⟩
  · simp only [NamedLink.ofJson?, hfound, Json.Members.required, hhref, Json.Members.withDefault,
      hname, Option.bind_eq_bind, Option.bind_some]
    rfl
  · rw [NamedLink.toCloneLink?, protocol?_of_mem hprotocol]
    rfl

theorem filterMap_toCloneLink? {links : List CloneLink} {named : List NamedLink}
    (h : List.Forall₂ (fun l n => n.toCloneLink? = some l) links named) :
    named.filterMap NamedLink.toCloneLink? = links := by
  induction h with
  | nil => rfl
  | cons hlink _ ih => rw [List.filterMap_cons, hlink, ih]

theorem withDefault_links {links : List CloneLink} {found : Json.Members}
    (h : IsLinks links (found.get? "links")) :
    ∃ named, found.withDefault "links" [] linksOfJson? = some named ∧
      named.filterMap NamedLink.toCloneLink? = links := by
  rw [Json.Members.withDefault]
  obtain ⟨hnone, rfl⟩ | ⟨v, hlinks, hv⟩ := h
  · rw [hnone]
    exact ⟨[], rfl, rfl⟩
  · obtain ⟨inner, hinner, hget⟩ := hv.exists_members? linksFields .refused rfl
    simp only [List.forall_mem_cons] at hget
    obtain ⟨⟨w, hclone, hw⟩, -⟩ := hget
    obtain ⟨named, hnamed, hall⟩ := hw.exists_list? ofJson?_link
    refine ⟨named, ?_, filterMap_toCloneLink? hall⟩
    simp only [hlinks, linksOfJson?, hinner, Json.Members.withDefault, hclone, hnamed,
      Option.bind_eq_bind, Option.bind_some]

namespace PushReport

variable {p : PushReport} {v : Json}

theorem ofFullName?_fullName (p : PushReport) :
    Repository.ofFullName? (p.owner ++ "/" ++ p.name) =
      if p.owner = "" ∨ p.name = "" then none else some ⟨⟨p.owner⟩, ⟨p.name⟩, []⟩ := by
  have hsplit : Text.splitFirst? '/' (p.owner ++ "/" ++ p.name) = some (p.owner, p.name) :=
    Text.splitFirst?_eq_some_iff.mpr ⟨p.slash_notMem, rfl⟩
  rw [Repository.ofFullName?, hsplit]
  by_cases howner : p.owner = ""
  · simp [Identifier.ofText?, howner]
  · by_cases hname : p.name = "" <;> simp [Identifier.ofText?, howner, hname]

theorem ofJson?_cloudRepository (h : p.IsCloudRepository v) :
    ∃ r, CloudRepository.ofJson? v = some r ∧
      ∀ document, (r.toRepository document).toOption = p.repository? := by
  obtain ⟨found, hfound, hget⟩ := h.exists_members? CloudRepository.fields .refused rfl
  simp only [List.forall_mem_cons] at hget
  obtain ⟨⟨_, hname, rfl⟩, hlinks, -⟩ := hget
  obtain ⟨named, hnamed, hkept⟩ := withDefault_links hlinks
  refine ⟨⟨p.owner ++ "/" ++ p.name, named⟩, ?_, ?_⟩
  · simp only [CloudRepository.ofJson?, hfound, Json.Members.required, hname, hnamed,
      Option.bind_eq_bind, Option.bind_some]
    rfl
  · intro document
    rw [CloudRepository.toRepository_eq, p.ofFullName?_fullName, hkept, repository?]
    split_ifs <;> rfl

theorem ofJson?_serverRepository (h : p.IsServerRepository v) :
    ∃ r, ServerRepository.ofJson? v = some r ∧
      ∀ document, (r.toRepository document).toOption = p.repository? := by
  obtain ⟨found, hfound, hget⟩ := h.exists_members? ServerRepository.fields .refused rfl
  simp only [List.forall_mem_cons] at hget
  obtain ⟨⟨_, hslug, rfl⟩, ⟨project, hproject, hv⟩, hlinks, -⟩ := hget
  obtain ⟨named, hnamed, hkept⟩ := withDefault_links hlinks
  obtain ⟨inner, hinner, hget⟩ := hv.exists_members? ServerRepository.projectFields .refused rfl
  simp only [List.forall_mem_cons] at hget
  obtain ⟨⟨_, hkey, rfl⟩, -⟩ := hget
  refine ⟨⟨p.name, p.owner, named⟩, ?_, ?_⟩
  · simp only [ServerRepository.ofJson?, hfound, Json.Members.required, hslug, hproject,
      ServerRepository.projectKeyOfJson?, hinner, hkey, hnamed, Option.bind_eq_bind,
      Option.bind_some]
    rfl
  · intro document
    rw [ServerRepository.toRepository, hkept, repository?]
    by_cases howner : p.owner = ""
    · rw [Payload.named, Identifier.ofText?, if_pos howner, if_pos (Or.inl howner)]
      rfl
    · rw [named_of_ne_empty _ _ howner]
      by_cases hname : p.name = ""
      · rw [Payload.named, Identifier.ofText?, if_pos hname, if_pos (Or.inr hname)]
        rfl
      · rw [named_of_ne_empty _ _ hname, if_neg (not_or.mpr ⟨howner, hname⟩)]
        rfl

end PushReport

/-! ### Changes -/

theorem commit?_of_commit {hash : String} (h : hash ≠ "" ∧ hash ≠ nullHash) :
    commit? (some hash) = some ⟨hash⟩ :=
  commit?_eq_some_iff.mpr ⟨rfl, h.2, h.1⟩

theorem commit?_nullHash : commit? (some nullHash) = none := by
  rw [Option.eq_none_iff_forall_ne_some]
  intro c hc
  obtain ⟨hhash, hne, -⟩ := commit?_eq_some_iff.mp hc
  exact hne (Option.some_inj.mp hhash).symm

namespace RefUpdate

variable {u : RefUpdate} {v : Json} {found : Json.Members} {name : String} {hash : Option String}

theorem refKind_of_mem {kind : String} (h : kind ∈ cloudKinds u.kind) (hash : Option String) :
    CloudState.refKind ⟨kind, u.name, hash⟩ = u.kind := by
  unfold CloudState.refKind
  cases hkind : u.kind with
  | branch =>
    rw [hkind] at h
    rw [List.mem_singleton.mp h]
    rfl
  | tag =>
    rw [hkind] at h
    refine if_pos ?_
    rcases List.mem_cons.mp h with h | h
    · exact Or.inl h
    · exact Or.inr (List.mem_singleton.mp h)

theorem exists_mem_cloudKinds (k : RefKind) : ∃ kind, kind ∈ cloudKinds k := by
  cases k with
  | branch => exact ⟨_, List.mem_cons_self⟩
  | tag => exact ⟨_, List.mem_cons_self⟩

theorem ofJson?_cloudState {hash : String} (h : u.IsCloudState hash v) :
    ∃ kind ∈ cloudKinds u.kind, CloudState.ofJson? v = some ⟨kind, u.name, some hash⟩ := by
  obtain ⟨found, hfound, hget⟩ := h.exists_members? CloudState.fields .refused rfl
  simp only [List.forall_mem_cons] at hget
  obtain ⟨⟨_, htype, kind, hkind, rfl⟩, ⟨_, hname, rfl⟩, ⟨target, htarget, hv⟩, -⟩ := hget
  obtain ⟨inner, hinner, hget⟩ := hv.exists_members? CloudState.targetFields .refused rfl
  simp only [List.forall_mem_cons] at hget
  obtain ⟨⟨_, hhash, rfl⟩, -⟩ := hget
  have hcommit : CloudState.hashOfJson? target = some (some hash) := by
    simp only [CloudState.hashOfJson?, hinner, Option.bind_eq_bind, Option.bind_some]
    exact Json.optional_of_ne_null hhash (Json.text_ne_null hash)
  refine ⟨kind, hkind, ?_⟩
  simp only [CloudState.ofJson?, hfound, Json.Members.withDefault, htype, Json.Members.required,
    hname, Json.optional_of_ne_null htarget hv.ne_null, hcommit, Option.bind_eq_bind,
    Option.bind_some]
  rfl

theorem optional_cloudSide (h : u.IsCloudSide hash (found.get? name)) :
    ∃ kind ∈ cloudKinds u.kind, found.optional name CloudState.ofJson? =
      some (hash.map fun hash => ⟨kind, u.name, some hash⟩) := by
  cases hash with
  | none =>
    obtain ⟨kind, hkind⟩ := exists_mem_cloudKinds u.kind
    exact ⟨kind, hkind, Json.optional_of_missing h⟩
  | some hash =>
    obtain ⟨w, hget, hw⟩ := h
    obtain ⟨kind, hkind, hread⟩ := ofJson?_cloudState hw
    refine ⟨kind, hkind, ?_⟩
    rw [Json.optional_of_ne_null hget hw.ne_null, hread]
    rfl

theorem withDefault_mark {holds : Bool} (h : IsMark holds (found.get? name)) :
    found.withDefault name false Json.bool? = some holds := by
  obtain hget | ⟨hget, rfl⟩ := h <;> rw [Json.Members.withDefault, hget]
  rfl

/-- The change is named after the state behind it, or else the one before it. -/
theorem toChange_of_state {c : CloudChange} {s : CloudState} (hstate : c.new.or c.old = some s)
    (hname : s.name ≠ "") :
    c.toChange = .ok ⟨s.refKind, ⟨s.name⟩, c.tag, c.old.bind fun s => commit? s.hash,
      c.new.bind fun s => commit? s.hash⟩ := by
  rw [CloudChange.toChange, hstate]
  change (named cloudDocument "push.changes.name" s.name >>= _) = _
  rw [named_of_ne_empty _ _ hname]
  rfl

/-- The change that Cloud tells of, the two states of the ref by their kinds. -/
def cloudChange (u : RefUpdate) (kind kind' : String) : CloudChange where
  new := u.move.after.map fun hash => ⟨kind, u.name, some hash⟩
  old := u.move.before.map fun hash => ⟨kind', u.name, some hash⟩
  created := u.move.isCreate
  closed := u.move.isDelete

theorem bind_commit? (kind : String) (hash : Option String)
    (h : ∀ hash' ∈ hash, hash' ≠ "" ∧ hash' ≠ nullHash) :
    ((hash.map fun hash => (⟨kind, u.name, some hash⟩ : CloudState)).bind fun s => commit? s.hash) =
      hash.map (⟨·⟩) := by
  cases hash with
  | none => rfl
  | some hash => exact commit?_of_commit (h hash rfl)

theorem toChange_cloudChange {kind kind' : String} (hkind : kind ∈ cloudKinds u.kind)
    (hkind' : kind' ∈ cloudKinds u.kind) : (u.cloudChange kind kind').toChange = .ok u.change := by
  -- Only a removed ref is named by the state before the push.
  obtain ⟨state, hstate, hname, hrefKind⟩ : ∃ s : CloudState,
      (u.cloudChange kind kind').new.or (u.cloudChange kind kind').old = some s ∧
        s.name = u.name ∧ s.refKind = u.kind := by
    unfold cloudChange
    cases u.move with
    | create | update => exact ⟨_, rfl, rfl, refKind_of_mem hkind _⟩
    | delete => exact ⟨_, rfl, rfl, refKind_of_mem hkind' _⟩
  have htag : (u.cloudChange kind kind').tag = u.move.tag := by
    unfold cloudChange CloudChange.tag
    cases u.move <;> rfl
  rw [toChange_of_state hstate (hname ▸ u.name_ne_empty), hrefKind, hname, htag, change,
    cloudChange, bind_commit? kind' _ u.commit_before, bind_commit? kind _ u.commit_after]

theorem ofJson?_cloudChange (u : RefUpdate) (v : Json) (h : u.IsCloudChange v) :
    ∃ c, CloudChange.ofJson? v = some c ∧ c.toChange = .ok u.change := by
  obtain ⟨found, hfound, hget⟩ := h.exists_members? CloudChange.fields .refused rfl
  simp only [List.forall_mem_cons] at hget
  obtain ⟨hnew, hold, hcreated, hclosed, -⟩ := hget
  obtain ⟨kind, hkind, hnew⟩ := optional_cloudSide hnew
  obtain ⟨kind', hkind', hold⟩ := optional_cloudSide hold
  refine ⟨u.cloudChange kind kind', ?_, toChange_cloudChange hkind hkind'⟩
  simp only [CloudChange.ofJson?, hfound, hnew, hold, withDefault_mark hcreated,
    withDefault_mark hclosed, Option.bind_eq_bind, Option.bind_some]
  rfl

/-! ### Server -/

theorem tagBeginning_append_ne (s t : String) :
    ServerRef.tagBeginning ++ s ≠ ServerRef.branchBeginning ++ t := by
  intro h
  have hchars := congrArg String.toList h
  simp [ServerRef.tagBeginning, ServerRef.branchBeginning] at hchars

theorem name_of_full (u : RefUpdate) :
    ServerRef.name ⟨fullNameBeginning u.kind ++ u.name, "", serverKind u.kind⟩ = u.name := by
  have hstrip (b : String) : Text.stripPrefix? b (b ++ u.name) = some u.name :=
    Text.stripPrefix?_eq_some_iff.mpr rfl
  cases hkind : u.kind with
  | branch =>
    unfold ServerRef.name fullNameBeginning
    simp only [hstrip]
    rfl
  | tag =>
    -- The beginning of a branch is tried first.
    have hother : Text.stripPrefix? ServerRef.branchBeginning (ServerRef.tagBeginning ++ u.name) =
        none := by
      rw [Option.eq_none_iff_forall_ne_some]
      intro rest h
      exact tagBeginning_append_ne _ _ (Text.stripPrefix?_eq_some_iff.mp h)
    unfold ServerRef.name fullNameBeginning
    simp only [hstrip, hother]
    rfl

/-- The full name does not make a branch a tag, unless it is that of a tag. -/
theorem refKind_serverRef (u : RefUpdate) {id : String} (displayId : String)
    (h : u.kind = .branch → ∀ rest, id ≠ ServerRef.tagBeginning ++ rest) :
    ServerRef.refKind ⟨id, displayId, serverKind u.kind⟩ = u.kind := by
  unfold ServerRef.refKind
  cases hkind : u.kind with
  | tag =>
    rw [serverKind, Text.sameLetters_refl, Bool.true_or, if_pos rfl]
  | branch =>
    have hletters : Text.sameLetters "BRANCH" "TAG" = false := by decide +kernel
    have hprefix : Text.hasPrefix ServerRef.tagBeginning id = false := by
      rw [← Bool.not_eq_true, Text.hasPrefix_iff]
      rintro ⟨rest, hrest⟩
      exact h hkind rest hrest
    rw [serverKind, hletters, hprefix, Bool.or_false, if_neg Bool.false_ne_true]

/-- The names that are read of a ref, missing ones as empty. -/
theorem exists_names {id displayId : Option Json} (h : u.IsNamed id displayId)
    (hid : found.get? "id" = id) (hdisplay : found.get? "displayId" = displayId) :
    ∃ r : ServerRef, found.withDefault "id" "" Json.text? = some r.id ∧
      found.withDefault "displayId" "" Json.text? = some r.displayId ∧
      r.kind = serverKind u.kind ∧ r.name = u.name ∧ r.refKind = u.kind := by
  unfold Json.Members.withDefault
  rw [hid, hdisplay]
  cases h with
  | short hid =>
    have hname (id : String) : ServerRef.name ⟨id, u.name, serverKind u.kind⟩ = u.name :=
      if_pos (bne_iff_ne.mpr u.name_ne_empty)
    obtain rfl | ⟨fullName, rfl, hfull⟩ := hid
    · have hempty : u.kind = .branch → ∀ rest, "" ≠ ServerRef.tagBeginning ++ rest := by
        intro _ rest h
        have hchars := congrArg String.toList h
        simp [ServerRef.tagBeginning] at hchars
      exact ⟨⟨"", u.name, serverKind u.kind⟩, rfl, rfl, rfl, hname "",
        refKind_serverRef u u.name hempty⟩
    · exact ⟨⟨fullName, u.name, serverKind u.kind⟩, rfl, rfl, rfl, hname fullName,
        refKind_serverRef u u.name hfull⟩
  | full =>
    have hbranch : u.kind = .branch →
        ∀ rest, fullNameBeginning u.kind ++ u.name ≠ ServerRef.tagBeginning ++ rest := by
      intro hkind rest h
      rw [hkind] at h
      exact tagBeginning_append_ne rest u.name h.symm
    exact ⟨⟨fullNameBeginning u.kind ++ u.name, "", serverKind u.kind⟩, rfl, rfl, rfl,
      name_of_full u, refKind_serverRef u "" hbranch⟩

theorem ofJson?_serverRef (h : u.IsServerRef v) :
    ∃ r, ServerRef.ofJson? v = some r ∧ r.name = u.name ∧ r.refKind = u.kind := by
  obtain ⟨id, displayId, hnamed, hv⟩ := h
  obtain ⟨found, hfound, hget⟩ := hv.exists_members? ServerRef.fields .lastStays rfl
  simp only [List.forall_mem_cons] at hget
  obtain ⟨hid, hdisplay, ⟨_, htype, rfl⟩, -⟩ := hget
  obtain ⟨r, hid, hdisplay, hkind, hname, hrefKind⟩ := exists_names hnamed hid hdisplay
  refine ⟨r, ?_, hname, hrefKind⟩
  have hread : found.withDefault "type" "" Json.text? = some r.kind := by
    rw [Json.Members.withDefault, htype, hkind]
    rfl
  simp only [ServerRef.ofJson?, hfound, hid, hdisplay, hread, Option.bind_eq_bind, Option.bind_some]
  rfl

theorem optional_serverSide (hcommit : ∀ hash' ∈ hash, hash' ≠ "" ∧ hash' ≠ nullHash)
    (h : IsServerSide hash (found.get? name)) :
    ∃ raw, found.optional name Json.text? = some raw ∧ commit? raw = hash.map (⟨·⟩) := by
  cases hash with
  | none =>
    obtain hmissing | ⟨_, hzeros, rfl⟩ := h
    · exact ⟨none, Json.optional_of_missing hmissing, rfl⟩
    · exact ⟨some nullHash, Json.optional_of_ne_null hzeros (Json.text_ne_null _), commit?_nullHash⟩
  | some hash =>
    obtain ⟨_, hhash, rfl⟩ := h
    exact ⟨some hash, Json.optional_of_ne_null hhash (Json.text_ne_null _),
      commit?_of_commit (hcommit hash rfl)⟩

theorem serverChange?_eq (h : u.IsServerChange v) : serverChange? v = some u.change := by
  obtain ⟨found, hfound, hget⟩ := h.exists_members? ServerChange.fields .lastStays rfl
  simp only [List.forall_mem_cons] at hget
  obtain ⟨⟨ref, href, hv⟩, hfrom, hto, ⟨_, htype, rfl⟩, -⟩ := hget
  obtain ⟨r, hr, hname, hkind⟩ := ofJson?_serverRef hv
  obtain ⟨before, hbefore, hfrom⟩ := optional_serverSide u.commit_before hfrom
  obtain ⟨after, hafter, hto⟩ := optional_serverSide u.commit_after hto
  have htag : ChangeTag.ofJson? (.text u.move.tag.text) = some u.move.tag := by
    cases u.move <;> rfl
  have hread : ServerChange.ofJson? v = some ⟨r, before, after, u.move.tag⟩ := by
    simp only [ServerChange.ofJson?, hfound, Json.Members.required, href, hr, hbefore, hafter, htype,
      htag, Option.bind_eq_bind, Option.bind_some]
    rfl
  have hnamed : Identifier.ofText? u.name = some (⟨u.name⟩ : RefName) :=
    Identifier.ofText?_eq_some_iff.mpr ⟨rfl, u.name_ne_empty⟩
  rw [serverChange?, hread, Option.bind_some, ServerChange.toChange?, hname, hnamed, hkind, hfrom,
    hto]
  rfl

/-! ### Entries that are kept -/

theorem canBeKept_text (depth : Nat) (text : String) : CanBeKept depth (.text text) := by
  rw [CanBeKept, Json.text, Json.isStorable, Option.isSome_some]

theorem canBeKept_serverRef (h : u.IsServerRef v) : CanBeKept 3 v := by
  obtain ⟨id, displayId, hnamed, hv⟩ := h
  refine hv.isStorable (by decide) ?_
  simp only [List.forall_mem_cons]
  refine ⟨?_, ?_, ?_, List.forall_mem_nil _⟩
  · rintro w rfl
    cases hnamed with
    | short hid =>
      obtain hid | ⟨fullName, hid, -⟩ := hid
      · cases hid
      · cases hid
        exact canBeKept_text 4 _
    | full => exact canBeKept_text 4 _
  · rintro w rfl
    cases hnamed
    exact canBeKept_text 4 _
  · rintro w ⟨_, hw, rfl⟩
    cases hw
    exact canBeKept_text 4 _

theorem canBeKept_serverSide {w : Json} (h : IsServerSide hash (some w)) : CanBeKept 3 w := by
  cases hash with
  | some hash =>
    obtain ⟨_, hw, rfl⟩ := h
    cases hw
    exact canBeKept_text 3 _
  | none =>
    obtain (hw | hw) | ⟨_, hw, rfl⟩ := h
    · cases hw
    · cases hw
      rfl
    · cases hw
      exact canBeKept_text 3 _

theorem canBeKept_serverChange (h : u.IsServerChange v) : CanBeKept 2 v := by
  refine h.isStorable (by decide) ?_
  simp only [List.forall_mem_cons]
  refine ⟨?_, ?_, ?_, ?_, List.forall_mem_nil _⟩
  · rintro w ⟨_, hw, href⟩
    cases hw
    exact canBeKept_serverRef href
  · intro w hw
    exact canBeKept_serverSide hw
  · intro w hw
    exact canBeKept_serverSide hw
  · rintro w ⟨_, hw, rfl⟩
    cases hw
    exact canBeKept_text 3 _

/-! ### Lists of changes -/

theorem mapM_toChange {us : List RefUpdate} {cs : List CloudChange}
    (h : List.Forall₂ (fun (u : RefUpdate) c => c.toChange = .ok u.change) us cs) :
    cs.mapM CloudChange.toChange = .ok (us.map change) := by
  induction h with
  | nil => rfl
  | cons hc _ ih =>
    rw [List.mapM_cons, hc, ih]
    rfl

theorem serverChanges_eq {us : List RefUpdate} {entries : List Json}
    (h : List.Forall₂ (fun (u : RefUpdate) entry => serverChange? entry = some u.change) us
      entries) : serverChanges entries = ⟨us.map change, []⟩ := by
  induction h with
  | nil => rfl
  | cons hentry _ ih =>
    have hvalue := congrArg Traced.value ih
    have hsteps := congrArg Traced.steps ih
    unfold serverChanges at hvalue hsteps ⊢
    refine Traced.ext ?_ ?_
    · rw [List.filterMap_cons, hentry]
      exact congrArg (_ :: ·) hvalue
    · rw [List.filter_cons_of_neg (by rw [hentry]; nofun)]
      exact hsteps

/-- All entries are kept, and none of them is skipped. -/
theorem entries?_serverChanges {us : List RefUpdate} (h : IsList IsServerChange us v) :
    ∃ entries, entries? v = some entries ∧ serverChanges entries = ⟨us.map change, []⟩ := by
  -- An entry is judged twice, when it is kept and when it is read.
  have hkept : ∀ (u : RefUpdate) w, u.IsServerChange w →
      ∃ entry, (if w.isStorable 2 then some w else none) = some entry ∧
        serverChange? entry = some u.change := by
    intro u w hw
    exact ⟨w, if_pos (canBeKept_serverChange hw), serverChange?_eq hw⟩
  obtain ⟨entries, hentries, hread⟩ := h.exists_list? hkept
  exact ⟨entries, hentries, serverChanges_eq hread⟩

end RefUpdate

/-! ### Bodies -/

namespace PushReport

variable (p : PushReport) {v : Json}

/-- What reading comes to, given the repository or why there is none. -/
def reading (repository : Except PayloadError Repository) :
    Traced Notice (Except WebhookError Push) :=
  ⟨(repository.map p.push).mapError .payload, []⟩

variable {p}

theorem run_cloudBody (h : p.IsCloudBody v) :
    ∃ repository, (Push.ofDocument .push v).run = p.reading repository ∧
      repository.toOption = p.repository? := by
  obtain ⟨found, hfound, hget⟩ := h.exists_members? CloudPush.fields .refused rfl
  simp only [List.forall_mem_cons] at hget
  obtain ⟨⟨w, hrepository, hw⟩, ⟨push, hpush, hv⟩, -⟩ := hget
  obtain ⟨r, hr, hnamed⟩ := ofJson?_cloudRepository hw
  obtain ⟨inner, hinner, hget⟩ := hv.exists_members? CloudPush.pushFields .refused rfl
  simp only [List.forall_mem_cons] at hget
  obtain ⟨⟨list, hlist, hall⟩, -⟩ := hget
  obtain ⟨changes, hchanges, hread⟩ := hall.exists_list? RefUpdate.ofJson?_cloudChange
  have hlisted : CloudPush.changesOfJson? push = some changes := by
    simp only [CloudPush.changesOfJson?, hinner, Json.Members.withDefault, hlist, hchanges,
      Option.bind_eq_bind, Option.bind_some]
  have hbody : CloudPush.ofJson? v = some ⟨r, changes⟩ := by
    simp only [CloudPush.ofJson?, hfound, Json.Members.required, hrepository, hr,
      Json.optional_of_ne_null hpush hv.ne_null, hlisted, Option.bind_eq_bind, Option.bind_some]
    rfl
  refine ⟨r.toRepository cloudDocument, ?_, hnamed cloudDocument⟩
  have hevent : CloudPush.toEvent ⟨r, changes⟩ = (r.toRepository cloudDocument).map fun found =>
      ⟨found, p.updates.map RefUpdate.change, none⟩ := by
    rw [CloudPush.toEvent, RefUpdate.mapM_toChange hread]
    cases r.toRepository cloudDocument <;> rfl
  rw [Push.ofDocument, expect, hbody]
  change (ExceptT.adapt WebhookError.payload
    ((liftM (CloudPush.toEvent ⟨r, changes⟩) : Reading Push.RefsChanged) >>= fun event =>
      pure (Push.refsChanged event))).run = _
  rw [hevent]
  cases r.toRepository cloudDocument <;> rfl

theorem run_serverBody (h : p.IsServerBody v) :
    ∃ repository, (Push.ofDocument .refsChanged v).run = p.reading repository ∧
      repository.toOption = p.repository? := by
  obtain ⟨found, hfound, hget⟩ := h.exists_members? ServerPush.fields .refused rfl
  simp only [List.forall_mem_cons] at hget
  obtain ⟨⟨w, hrepository, hw⟩, ⟨list, hlist, hall⟩, hcommit, -⟩ := hget
  obtain ⟨r, hr, hnamed⟩ := ofJson?_serverRepository hw
  obtain ⟨entries, hentries, hchanges⟩ := RefUpdate.entries?_serverChanges hall
  have hkept : found.optional "changes" entries? = some (some entries) := by
    have hne : list ≠ .null := by
      obtain ⟨vs, rfl, -⟩ := hall
      nofun
    rw [Json.optional_of_ne_null hlist hne, hentries]
    rfl
  have hbody : ServerPush.ofJson? v = some ⟨r, some entries, none⟩ := by
    simp only [ServerPush.ofJson?, hfound, Json.Members.required, hrepository, hr, hkept,
      Json.optional_of_missing hcommit, Option.bind_eq_bind, Option.bind_some]
    rfl
  refine ⟨r.toRepository ServerPush.document, ?_, hnamed ServerPush.document⟩
  rw [Push.ofDocument, expect, hbody]
  change (ExceptT.adapt WebhookError.payload
    (ServerPush.toEvent ⟨r, some entries, none⟩ >>= fun event =>
      pure (Push.refsChanged event))).run = _
  rw [ServerPush.toEvent]
  simp only [Option.getD_some, hchanges]
  cases r.toRepository ServerPush.document <;> rfl

end PushReport

end HeadScout
