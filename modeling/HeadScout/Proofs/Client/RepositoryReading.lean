import HeadScout.Proofs.Client.Listing
import HeadScout.Proofs.Client.RepositoryForms
import HeadScout.Proofs.Webhook.PushReading
import HeadScout.Proofs.WellFormed

/-!
# Reading either form of an entry

Whichever product lists a branch, a tag or a pull request, the same becomes of it. A ref without a
name is passed over, and so is a pull request whose source is gone, or whose branches have no names.
A commit is left out if its hash is, and so it is if the object around it is.

Only a pull request from a repository without an owner or a name cannot be used at all, on Cloud for
its full name and on Server for the part that is missing.

## Main definitions

* `RefState.listed?`, `PullRequestState.listed?` — what becomes of an entry, on either product
* `ListingForm.Understands` — a form that reads documents of something

## Main results

* `understands_refForm`, `understands_pullRequestForm` — each product reads its own documents, and
  the same becomes of them
-/

namespace HeadScout

open Json (Holds Missing IsRecord)
open Payload

/-! ### What becomes of an entry -/

/-- The repository, unless it lacks an owner or a name. -/
def Repository.named? (r : Repository) : Option Repository :=
  if r.owner.text = "" ∨ r.name.text = "" then none else some r

theorem Repository.IsNamed.named?_eq {r : Repository} (h : r.IsNamed) : r.named? = some r :=
  if_neg (not_or.mpr ⟨h.isGiven_owner, h.isGiven_name⟩)

/-- The branch or tag that is listed, unless it has no name. -/
def RefState.listed? (r : RefState) : Option GitRef := keptRef r.name r.hash

/-- The pull request that is listed, unless it is passed over; without an owner or a name of its
source, it cannot be used. -/
def PullRequestState.listed? (p : PullRequestState) : Option (Option PullRequest) :=
  match p.source.repository with
  | none => some none
  | some r =>
    if p.source.branch = "" ∨ p.destination.branch = "" then some none
    else r.named?.map fun r =>
      some ⟨⟨p.id⟩, p.title, ⟨r, ⟨p.source.branch⟩, .branch, commit? p.source.hash⟩,
        ⟨p.destination.branch⟩⟩

/-! ### Reading entries -/

section Reading

variable {v : Json} {found : Json.Members} {name : String} {hash : Option String}

theorem optional_cloudCommit (h : IsCloudCommit hash (found.get? name)) :
    ∃ target, found.optional name CloudPage.hashOfJson? = some target ∧ target.join = hash := by
  cases hash with
  | some hash =>
    obtain ⟨commit, hcommit, hrecord⟩ := h
    obtain ⟨inner, hinner, hget⟩ := hrecord.exists_members? CloudPage.commitFields .refused rfl
    simp only [List.forall_mem_cons] at hget
    obtain ⟨⟨_, hhash, rfl⟩, -⟩ := hget
    refine ⟨some (some hash), ?_, rfl⟩
    rw [Json.optional_of_ne_null hcommit hrecord.ne_null, CloudPage.hashOfJson?, hinner]
    exact congrArg (Option.map some) (Json.optional_of_ne_null hhash (Json.text_ne_null hash))
  | none =>
    -- The object may be there all the same, with its hash left out.
    obtain hmissing | ⟨commit, hcommit, hrecord⟩ := h
    · exact ⟨none, Json.optional_of_missing hmissing, rfl⟩
    · obtain ⟨inner, hinner, hget⟩ := hrecord.exists_members? CloudPage.commitFields .refused rfl
      simp only [List.forall_mem_cons] at hget
      obtain ⟨hhash, -⟩ := hget
      refine ⟨some none, ?_, rfl⟩
      rw [Json.optional_of_ne_null hcommit hrecord.ne_null, CloudPage.hashOfJson?, hinner]
      exact congrArg (Option.map some) (Json.optional_of_missing hhash)

theorem optional_serverCommit (h : IsServerCommit hash (found.get? name)) :
    found.optional name Json.text? = some hash := by
  cases hash with
  | some hash =>
    obtain ⟨_, hget, rfl⟩ := h
    exact Json.optional_of_ne_null hget (Json.text_ne_null hash)
  | none => exact Json.optional_of_missing h

theorem withDefault_title {title : String} (h : IsTitle title (found.get? name)) :
    found.withDefault name "" Json.text? = some title := by
  rw [Json.Members.withDefault]
  obtain ⟨_, hget, rfl⟩ | ⟨hget, rfl⟩ := h <;> rw [hget]
  rfl

theorem required_of_holds {α : Type} {p : Json → Prop} {read : Json → Option α} {Q : α → Prop}
    (hread : ∀ v, p v → ∃ a, read v = some a ∧ Q a) (h : Holds p (found.get? name)) :
    ∃ a, found.required name read = some a ∧ Q a := by
  obtain ⟨v, hget, hv⟩ := h
  rw [Json.Members.required, hget]
  exact hread v hv

theorem required_text {s : String} (h : Holds (IsText s) (found.get? name)) :
    found.required name Json.text? = some s := by
  obtain ⟨_, hget, rfl⟩ := h
  rw [Json.Members.required, hget]
  rfl

theorem required_id {id : UInt64} (h : Holds (· = .nat id.toNat) (found.get? name)) :
    found.required name (Json.natural? UInt64.size) = some id.toNat := by
  obtain ⟨_, hget, rfl⟩ := h
  have hread : (Json.nat id.toNat).natural? UInt64.size = some id.toNat := by
    simp [Json.nat, Json.natural?, Option.filter, id.toNat_lt_size]
  rw [Json.Members.required, hget]
  exact hread

end Reading

/-! ### Refs and pull requests -/

/-- The form reads each document that stands for something, and makes of it what should become of
it. -/
def ListingForm.Understands {β σ : Type} (form : ListingForm β) (stands : σ → Json → Prop)
    (becomes : σ → Option (Option β)) : Prop :=
  ∀ s v, stands s v → ∃ e, form.read v = some e ∧ (form.keep e).toOption = becomes s

theorem understands_refForm (product : Product) :
    (refForm product).Understands (RefState.Stands · product) fun r => some r.listed? := by
  intro r v h
  cases product with
  | cloud =>
    obtain ⟨found, hfound, hget⟩ := h.exists_members? CloudPage.Ref.fields .refused rfl
    simp only [List.forall_mem_cons] at hget
    obtain ⟨hname, htarget, -⟩ := hget
    obtain ⟨target, htarget, hjoin⟩ := optional_cloudCommit htarget
    refine ⟨⟨r.name, target.join⟩, ?_, by rw [hjoin]; rfl⟩
    simp only [CloudPage.Ref.ofJson?, hfound, required_text hname, htarget, Option.bind_eq_bind,
      Option.bind_some]
    rfl
  | server =>
    obtain ⟨found, hfound, hget⟩ := h.exists_members? ServerPage.Ref.fields .refused rfl
    simp only [List.forall_mem_cons] at hget
    obtain ⟨hname, hcommit, -⟩ := hget
    refine ⟨⟨r.name, r.hash⟩, ?_, rfl⟩
    simp only [ServerPage.Ref.ofJson?, hfound, required_text hname, optional_serverCommit hcommit,
      Option.bind_eq_bind, Option.bind_some]
    rfl

/-- Both products read a repository from the same parts as a push. -/
def Repository.toReport (r : Repository) (h : '/' ∉ r.owner.text.toList) : PushReport :=
  ⟨r.owner.text, r.name.text, r.cloneLinks, [], h⟩

theorem Repository.ofJson?_cloud (r : Repository) (v : Json) (hslash : '/' ∉ r.owner.text.toList)
    (h : r.Stands .cloud v) :
    ∃ a, CloudRepository.ofJson? v = some a ∧
      (a.toRepository CloudPage.pullRequestsDocument).toOption = r.named? := by
  have hpush : (r.toReport hslash).IsCloudRepository v := h
  obtain ⟨a, ha, hnamed⟩ := PushReport.ofJson?_cloudRepository hpush
  exact ⟨a, ha, hnamed _⟩

theorem Repository.ofJson?_server (r : Repository) (v : Json) (hslash : '/' ∉ r.owner.text.toList)
    (h : r.Stands .server v) :
    ∃ a, ServerRepository.ofJson? v = some a ∧
      (a.toRepository ServerPage.pullRequestsDocument).toOption = r.named? := by
  have hpush : (r.toReport hslash).IsServerRepository v := h
  obtain ⟨a, ha, hnamed⟩ := PushReport.ofJson?_serverRepository hpush
  exact ⟨a, ha, hnamed _⟩

namespace EndState

variable {e : EndState} {v : Json} {found : Json.Members} {name : String}

/-- Where repositories are read, so is the one that holds the branch, unless it is gone. -/
theorem optional_repository {α : Type} {product : Product} {read : Json → Option α}
    {toRepository : α → Except PayloadError Repository}
    (hread : ∀ (r : Repository) w, '/' ∉ r.owner.text.toList → r.Stands product w →
      ∃ a, read w = some a ∧ (toRepository a).toOption = r.named?)
    (h : e.IsRepository product (found.get? name)) :
    ∃ a?, found.optional name read = some a? ∧
      (a?.map toRepository).map Except.toOption = e.repository.map Repository.named? := by
  obtain ⟨branch, hash, _ | r, hslash⟩ := e
  · exact ⟨none, Json.optional_of_missing h, rfl⟩
  · obtain ⟨w, hget, hw⟩ := h
    obtain ⟨a, ha, hnamed⟩ := hread r w (hslash r rfl) hw
    have hne : w ≠ .null := by
      cases product with
      | cloud | server => exact hw.ne_null
    refine ⟨some a, ?_, congrArg some hnamed⟩
    rw [Json.optional_of_ne_null hget hne, ha]
    rfl

theorem ofJson?_cloud (h : e.Stands .cloud v) :
    ∃ a, CloudPage.Endpoint.ofJson? v = some a ∧ a.branch = e.branch ∧ a.hash = e.hash ∧
      (a.repository.map (·.toRepository CloudPage.pullRequestsDocument)).map Except.toOption =
        e.repository.map Repository.named? := by
  obtain ⟨found, hfound, hget⟩ := h.exists_members? CloudPage.Endpoint.fields .refused rfl
  simp only [List.forall_mem_cons] at hget
  obtain ⟨⟨branch, hbranch, hrecord⟩, hcommit, hrepository, -⟩ := hget
  obtain ⟨inner, hinner, hget⟩ :=
    hrecord.exists_members? CloudPage.Endpoint.branchFields .refused rfl
  simp only [List.forall_mem_cons] at hget
  obtain ⟨hname, -⟩ := hget
  obtain ⟨commit, hcommit, hjoin⟩ := optional_cloudCommit hcommit
  obtain ⟨repository, hrepository, hnamed⟩ :=
    optional_repository Repository.ofJson?_cloud hrepository
  refine ⟨⟨e.branch, commit.join, repository⟩, ?_, rfl, hjoin, hnamed⟩
  have hbranch : found.required "branch" CloudPage.Endpoint.branchOfJson? = some e.branch := by
    rw [Json.Members.required, hbranch]
    simp only [CloudPage.Endpoint.branchOfJson?, hinner, required_text hname, Option.bind_eq_bind,
      Option.bind_some]
  simp only [CloudPage.Endpoint.ofJson?, hfound, hbranch, hcommit, hrepository,
    Option.bind_eq_bind, Option.bind_some]
  rfl

theorem ofJson?_server (h : e.Stands .server v) :
    ∃ a, ServerPage.Endpoint.ofJson? v = some a ∧ a.displayId = e.branch ∧ a.refKind = .branch ∧
      a.latestCommit = e.hash ∧
      (a.repository.map (·.toRepository ServerPage.pullRequestsDocument)).map Except.toOption =
        e.repository.map Repository.named? := by
  obtain ⟨found, hfound, hget⟩ := h.exists_members? ServerPage.Endpoint.fields .refused rfl
  simp only [List.forall_mem_cons] at hget
  obtain ⟨hid, hdisplayId, hcommit, hrepository, -⟩ := hget
  obtain ⟨repository, hrepository, hnamed⟩ :=
    optional_repository Repository.ofJson?_server hrepository
  -- A full name that begins as a branch's does not begin as a tag's.
  have hbranch :
      ¬ Text.hasPrefix ServerRef.tagBeginning (ServerRef.branchBeginning ++ e.branch) := by
    rw [Text.hasPrefix_iff]
    rintro ⟨rest, hrest⟩
    exact RefUpdate.tagBeginning_append_ne rest e.branch hrest.symm
  refine ⟨⟨ServerRef.branchBeginning ++ e.branch, e.branch, e.hash, repository⟩, ?_, rfl,
    if_neg hbranch, rfl, hnamed⟩
  simp only [ServerPage.Endpoint.ofJson?, hfound, required_text hid, required_text hdisplayId,
    optional_serverCommit hcommit, hrepository, Option.bind_eq_bind, Option.bind_some]
  rfl

end EndState

namespace PullRequestState

variable {p : PullRequestState} {v : Json}

theorem toOption_keptPullRequest {repository : Option (Except PayloadError Repository)}
    (h : repository.map Except.toOption = p.source.repository.map Repository.named?) :
    (keptPullRequest p.id p.title repository p.source.branch .branch p.source.hash
      p.destination.branch).toOption = p.listed? := by
  unfold keptPullRequest listed?
  -- Branches are looked at first, so a source that cannot be used may still be passed over.
  cases hsource : p.source.repository with
  | none =>
    rw [hsource, Option.map_none, Option.map_eq_none_iff] at h
    rw [h]
    rfl
  | some r =>
    rw [hsource, Option.map_some, Option.map_eq_some_iff] at h
    obtain ⟨read, rfl, hnamed⟩ := h
    by_cases hbranches : p.source.branch = "" ∨ p.destination.branch = ""
    · simp only [if_pos hbranches]
      rfl
    · simp only [if_neg hbranches, ← hnamed]
      cases read <;> rfl

end PullRequestState

theorem understands_pullRequestForm (product : Product) :
    (pullRequestForm product).Understands (PullRequestState.Stands · product)
      PullRequestState.listed? := by
  intro p v h
  cases product with
  | cloud =>
    obtain ⟨found, hfound, hget⟩ := h.exists_members? CloudPage.PullRequestEntry.fields .refused rfl
    simp only [List.forall_mem_cons] at hget
    obtain ⟨hid, htitle, hsource, hdestination, -⟩ := hget
    obtain ⟨source, hsource, hbranch, hhash, hrepository⟩ :=
      required_of_holds (fun _ hw => EndState.ofJson?_cloud hw) hsource
    obtain ⟨destination, hdestination, hdestinationBranch, -⟩ :=
      required_of_holds (fun _ hw => EndState.ofJson?_cloud hw) hdestination
    refine ⟨⟨p.id, p.title, source, destination⟩, ?_, ?_⟩
    · simp only [CloudPage.PullRequestEntry.ofJson?, hfound, required_id hid,
        withDefault_title htitle, hsource, hdestination, Option.bind_eq_bind, Option.bind_some,
        UInt64.ofNat_toNat]
      rfl
    · simp only [hbranch, hhash, hdestinationBranch]
      exact PullRequestState.toOption_keptPullRequest hrepository
  | server =>
    obtain ⟨found, hfound, hget⟩ :=
      h.exists_members? ServerPage.PullRequestEntry.fields .refused rfl
    simp only [List.forall_mem_cons] at hget
    obtain ⟨hid, htitle, hsource, hdestination, -⟩ := hget
    obtain ⟨source, hsource, hbranch, hkind, hhash, hrepository⟩ :=
      required_of_holds (fun _ hw => EndState.ofJson?_server hw) hsource
    obtain ⟨destination, hdestination, hdestinationBranch, -⟩ :=
      required_of_holds (fun _ hw => EndState.ofJson?_server hw) hdestination
    refine ⟨⟨p.id, p.title, source, destination⟩, ?_, ?_⟩
    · simp only [ServerPage.PullRequestEntry.ofJson?, hfound, required_id hid,
        withDefault_title htitle, hsource, hdestination, Option.bind_eq_bind, Option.bind_some,
        UInt64.ofNat_toNat]
      rfl
    · simp only [← ServerPage.refKind_eq, hbranch, hkind, hhash, hdestinationBranch]
      exact PullRequestState.toOption_keptPullRequest hrepository

end HeadScout
