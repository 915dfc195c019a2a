import HeadScout.Client
import HeadScout.Proofs.Json.Writing
import HeadScout.Proofs.Webhook.PushForms

/-!
# Two forms of what a repository holds

Cloud and Server list branches, tags and pull requests in forms of their own. The name of a ref
stands under `name` on Cloud and under `displayId` on Server. A commit is an object with a hash on
Cloud, and a hash alone on Server; if there is none, either may be missing, and on Cloud the hash in
the object may be, too. One end of a pull request names its branch in an object of its own on Cloud,
and by its full name beside the short one on Server. A repository has a full name on Cloud, and a
slug and the key of a project on Server, and is missing if it is gone.

Here what is listed is told for neither product. Names may be empty, and whether a ref or a pull
request without one is listed at all is for the client to say.

## Main definitions

* `RefState`, `EndState`, `PullRequestState`, `RepositoryState` — what a repository holds
* `RefState.Stands`, `PullRequestState.Stands` — the documents that tell of it
* `RefState.document`, `PullRequestState.document` — one document in the form of each product

## Main results

* `RefState.stands_document`, `PullRequestState.stands_document` — everything has either form
* `RefState.hasWrittenNumbers_document`, `PullRequestState.hasWrittenNumbers_document` — and can be
  printed and read back in it
-/

namespace HeadScout

open Json (Holds Missing IsRecord)
open Payload

/-! ### What a repository holds -/

/-- A branch or tag. -/
structure RefState where
  name : String
  /-- The hash of the commit it points at, if there is one. -/
  hash : Option String
  deriving DecidableEq, Repr

/-- One end of a pull request, a branch. -/
structure EndState where
  branch : String
  /-- The hash of the commit it points at, if there is one. -/
  hash : Option String
  /-- The repository that holds the branch, unless it is gone. -/
  repository : Option Repository
  slash_notMem : ∀ r ∈ repository, '/' ∉ r.owner.text.toList

/-- An open pull request from a branch. -/
structure PullRequestState where
  id : UInt64
  title : String
  source : EndState
  destination : EndState

/-- What a repository holds. -/
structure RepositoryState where
  branches : List RefState
  tags : List RefState
  /-- The open pull requests into the repository, all of them from branches. -/
  pullRequests : List PullRequestState

/-! ### Documents -/

/-- The commit of a ref on Cloud. -/
def IsCloudCommit (hash : Option String) (o : Option Json) : Prop :=
  match hash with
  | some hash => Holds (IsRecord [("hash", Holds (IsText hash))] anything) o
  | none => Missing o ∨ Holds (IsRecord [("hash", Missing)] anything) o

/-- The commit of a ref on Server. -/
def IsServerCommit (hash : Option String) (o : Option Json) : Prop :=
  match hash with
  | some hash => Holds (IsText hash) o
  | none => Missing o

/-- A text, which may be left out if it is empty. -/
def IsTitle (title : String) (o : Option Json) : Prop :=
  Holds (IsText title) o ∨ (o = none ∧ title = "")

/-- The repository in the form of a product. -/
def Repository.Stands (r : Repository) : Product → Json → Prop
  | .cloud =>
    IsRecord [("full_name", Holds (IsText r.fullName)), ("links", IsLinks r.cloneLinks)] anything
  | .server =>
    IsRecord
      [("slug", Holds (IsText r.name.text)),
        ("project", Holds (IsRecord [("key", Holds (IsText r.owner.text))] anything)),
        ("links", IsLinks r.cloneLinks)]
      anything

/-- The ref in the form of a product. -/
def RefState.Stands (r : RefState) : Product → Json → Prop
  | .cloud => IsRecord [("name", Holds (IsText r.name)), ("target", IsCloudCommit r.hash)] anything
  | .server =>
    IsRecord [("displayId", Holds (IsText r.name)), ("latestCommit", IsServerCommit r.hash)]
      anything

namespace EndState

variable (e : EndState)

/-- The repository in the form of a product, if it is still there. -/
def IsRepository (product : Product) (o : Option Json) : Prop :=
  match e.repository with
  | some r => Holds (r.Stands product) o
  | none => Missing o

/-- The end in the form of a product. -/
def Stands : Product → Json → Prop
  | .cloud =>
    IsRecord
      [("branch", Holds (IsRecord [("name", Holds (IsText e.branch))] anything)),
        ("commit", IsCloudCommit e.hash), ("repository", e.IsRepository .cloud)]
      anything
  | .server =>
    IsRecord
      [("id", Holds (IsText (ServerRef.branchBeginning ++ e.branch))),
        ("displayId", Holds (IsText e.branch)), ("latestCommit", IsServerCommit e.hash),
        ("repository", e.IsRepository .server)]
      anything

end EndState

/-- The pull request in the form of a product. -/
def PullRequestState.Stands (p : PullRequestState) : Product → Json → Prop
  | .cloud =>
    IsRecord
      [("id", Holds (· = .nat p.id.toNat)), ("title", IsTitle p.title),
        ("source", Holds (p.source.Stands .cloud)),
        ("destination", Holds (p.destination.Stands .cloud))]
      anything
  | .server =>
    IsRecord
      [("id", Holds (· = .nat p.id.toNat)), ("title", IsTitle p.title),
        ("fromRef", Holds (p.source.Stands .server)),
        ("toRef", Holds (p.destination.Stands .server))]
      anything

/-! ### Writing either form -/

/-- The commit of a ref, `null` if there is none. -/
def commitDocument (hash : Option String) : Product → Json
  | .cloud => .orNull (fun hash => .record [("hash", .text hash)]) hash
  | .server => .orNull .text hash

theorem isCloudCommit_commitDocument (hash : Option String) :
    IsCloudCommit hash (some (commitDocument hash .cloud)) := by
  cases hash with
  | none => exact Or.inl (Or.inr rfl)
  | some hash =>
    refine ⟨_, rfl, IsRecord.of_record _ (by simp) ?_⟩
    simp only [List.forall_mem_cons]
    exact ⟨⟨_, rfl, _, rfl, rfl⟩, List.forall_mem_nil _⟩

theorem isServerCommit_commitDocument (hash : Option String) :
    IsServerCommit hash (some (commitDocument hash .server)) := by
  cases hash with
  | none => exact Or.inr rfl
  | some hash => exact ⟨_, rfl, rfl⟩

theorem hasWrittenNumbers_commitDocument (hash : Option String) (product : Product) :
    (commitDocument hash product).HasWrittenNumbers := by
  cases product with
  | cloud =>
    refine Json.hasWrittenNumbers_orNull (fun hash => ?_) hash
    exact Json.hasWrittenNumbers_record (by simp)
  | server => exact Json.hasWrittenNumbers_orNull Json.hasWrittenNumbers_text hash

theorem hasWrittenNumbers_linksToJson (links : List CloneLink) :
    (linksToJson links).HasWrittenNumbers := by
  have hlink (l : CloneLink) : l.toNamed.HasWrittenNumbers :=
    Json.hasWrittenNumbers_record (by simp)
  have hlinks : (Json.array (links.map CloneLink.toNamed)).HasWrittenNumbers :=
    Json.hasWrittenNumbers_array (List.forall_mem_map.mpr fun l _ => hlink l)
  exact Json.hasWrittenNumbers_record (by simp [hlinks])

def Repository.document (r : Repository) : Product → Json
  | .cloud => .record [("full_name", .text r.fullName), ("links", linksToJson r.cloneLinks)]
  | .server =>
    .record [("slug", .text r.name.text), ("project", .record [("key", .text r.owner.text)]),
      ("links", linksToJson r.cloneLinks)]

theorem Repository.stands_document (r : Repository) (product : Product) :
    r.Stands product (r.document product) := by
  cases product with
  | cloud =>
    refine IsRecord.of_record _ (by simp) ?_
    simp only [List.forall_mem_cons]
    exact ⟨⟨_, rfl, _, rfl, rfl⟩, ⟨_, rfl, isLinks_linksToJson r.cloneLinks⟩, List.forall_mem_nil _⟩
  | server =>
    have hproject : IsRecord [("key", Holds (IsText r.owner.text))] anything
        (.record [("key", .text r.owner.text)]) := by
      refine IsRecord.of_record _ (by simp) ?_
      simp only [List.forall_mem_cons]
      exact ⟨⟨_, rfl, _, rfl, rfl⟩, List.forall_mem_nil _⟩
    refine IsRecord.of_record _ (by simp) ?_
    simp only [List.forall_mem_cons]
    exact ⟨⟨_, rfl, _, rfl, rfl⟩, ⟨_, rfl, _, rfl, hproject⟩,
      ⟨_, rfl, isLinks_linksToJson r.cloneLinks⟩, List.forall_mem_nil _⟩

theorem Repository.hasWrittenNumbers_document (r : Repository) (product : Product) :
    (r.document product).HasWrittenNumbers := by
  have hlinks := hasWrittenNumbers_linksToJson r.cloneLinks
  cases product with
  | cloud => exact Json.hasWrittenNumbers_record (by simp [hlinks])
  | server =>
    have hproject : (Json.record [("key", .text r.owner.text)]).HasWrittenNumbers :=
      Json.hasWrittenNumbers_record (by simp)
    exact Json.hasWrittenNumbers_record (by simp [hlinks, hproject])

def RefState.document (r : RefState) : Product → Json
  | .cloud => .record [("name", .text r.name), ("target", commitDocument r.hash .cloud)]
  | .server =>
    .record [("displayId", .text r.name), ("latestCommit", commitDocument r.hash .server)]

theorem RefState.stands_document (r : RefState) (product : Product) :
    r.Stands product (r.document product) := by
  cases product with
  | cloud =>
    refine IsRecord.of_record _ (by simp) ?_
    simp only [List.forall_mem_cons]
    exact ⟨⟨_, rfl, _, rfl, rfl⟩, ⟨_, rfl, isCloudCommit_commitDocument r.hash⟩,
      List.forall_mem_nil _⟩
  | server =>
    refine IsRecord.of_record _ (by simp) ?_
    simp only [List.forall_mem_cons]
    exact ⟨⟨_, rfl, _, rfl, rfl⟩, ⟨_, rfl, isServerCommit_commitDocument r.hash⟩,
      List.forall_mem_nil _⟩

theorem RefState.hasWrittenNumbers_document (r : RefState) (product : Product) :
    (r.document product).HasWrittenNumbers := by
  have hcommit := hasWrittenNumbers_commitDocument r.hash
  cases product with
  | cloud | server => exact Json.hasWrittenNumbers_record (by simp [hcommit])

namespace EndState

variable (e : EndState)

def document : Product → Json
  | .cloud =>
    .record [("branch", .record [("name", .text e.branch)]),
      ("commit", commitDocument e.hash .cloud),
      ("repository", .orNull (·.document .cloud) e.repository)]
  | .server =>
    .record [("id", .text (ServerRef.branchBeginning ++ e.branch)), ("displayId", .text e.branch),
      ("latestCommit", commitDocument e.hash .server),
      ("repository", .orNull (·.document .server) e.repository)]

theorem isRepository_orNull (product : Product) :
    e.IsRepository product (some (.orNull (·.document product) e.repository)) := by
  unfold IsRepository
  cases e.repository with
  | none => exact Or.inr rfl
  | some r => exact ⟨_, rfl, r.stands_document product⟩

theorem stands_document (product : Product) : e.Stands product (e.document product) := by
  cases product with
  | cloud =>
    have hbranch : IsRecord [("name", Holds (IsText e.branch))] anything
        (.record [("name", .text e.branch)]) := by
      refine IsRecord.of_record _ (by simp) ?_
      simp only [List.forall_mem_cons]
      exact ⟨⟨_, rfl, _, rfl, rfl⟩, List.forall_mem_nil _⟩
    refine IsRecord.of_record _ (by simp) ?_
    simp only [List.forall_mem_cons]
    exact ⟨⟨_, rfl, _, rfl, hbranch⟩, ⟨_, rfl, isCloudCommit_commitDocument e.hash⟩,
      ⟨_, rfl, e.isRepository_orNull .cloud⟩, List.forall_mem_nil _⟩
  | server =>
    refine IsRecord.of_record _ (by simp) ?_
    simp only [List.forall_mem_cons]
    exact ⟨⟨_, rfl, _, rfl, rfl⟩, ⟨_, rfl, _, rfl, rfl⟩,
      ⟨_, rfl, isServerCommit_commitDocument e.hash⟩, ⟨_, rfl, e.isRepository_orNull .server⟩,
      List.forall_mem_nil _⟩

theorem hasWrittenNumbers_document (product : Product) :
    (e.document product).HasWrittenNumbers := by
  have hcommit := hasWrittenNumbers_commitDocument e.hash
  have hrepository (product : Product) :
      (Json.orNull (·.document product) e.repository).HasWrittenNumbers :=
    Json.hasWrittenNumbers_orNull (fun r => r.hasWrittenNumbers_document product) e.repository
  cases product with
  | cloud =>
    have hbranch : (Json.record [("name", .text e.branch)]).HasWrittenNumbers :=
      Json.hasWrittenNumbers_record (by simp)
    exact Json.hasWrittenNumbers_record (by simp [hbranch, hcommit, hrepository])
  | server => exact Json.hasWrittenNumbers_record (by simp [hcommit, hrepository])

end EndState

namespace PullRequestState

variable (p : PullRequestState)

def document : Product → Json
  | .cloud =>
    .record [("id", .nat p.id.toNat), ("title", .text p.title),
      ("source", p.source.document .cloud), ("destination", p.destination.document .cloud)]
  | .server =>
    .record [("id", .nat p.id.toNat), ("title", .text p.title),
      ("fromRef", p.source.document .server), ("toRef", p.destination.document .server)]

theorem stands_document (product : Product) : p.Stands product (p.document product) := by
  cases product with
  | cloud =>
    refine IsRecord.of_record _ (by simp) ?_
    simp only [List.forall_mem_cons]
    exact ⟨⟨_, rfl, _, rfl, rfl⟩, ⟨_, rfl, Or.inl ⟨_, rfl, rfl⟩⟩,
      ⟨_, rfl, _, rfl, p.source.stands_document .cloud⟩,
      ⟨_, rfl, _, rfl, p.destination.stands_document .cloud⟩, List.forall_mem_nil _⟩
  | server =>
    refine IsRecord.of_record _ (by simp) ?_
    simp only [List.forall_mem_cons]
    exact ⟨⟨_, rfl, _, rfl, rfl⟩, ⟨_, rfl, Or.inl ⟨_, rfl, rfl⟩⟩,
      ⟨_, rfl, _, rfl, p.source.stands_document .server⟩,
      ⟨_, rfl, _, rfl, p.destination.stands_document .server⟩, List.forall_mem_nil _⟩

theorem hasWrittenNumbers_document (product : Product) :
    (p.document product).HasWrittenNumbers := by
  have hsource := p.source.hasWrittenNumbers_document
  have hdestination := p.destination.hasWrittenNumbers_document
  cases product with
  | cloud | server => exact Json.hasWrittenNumbers_record (by simp [hsource, hdestination])

end PullRequestState

end HeadScout
