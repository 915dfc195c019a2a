import HeadScout.Change
import HeadScout.Repository

/-!
# Refs and pull requests

What a provider lists for a repository: its branches and tags with the commits they point at, and
its open pull requests. The repository that a pull request goes into is the listed one; only the
repository it comes from is recorded.

## Main definitions

* `GitRef` — a listed branch or tag
* `PullRequest`, `PullRequest.Source` — a pull request and where it comes from
-/

namespace HeadScout

/-- A branch or tag as listed. -/
structure GitRef where
  name : RefName
  /-- The commit it points at, if the provider tells. -/
  commit : Option CommitHash
  deriving DecidableEq, Repr

namespace GitRef

def fields : List Json.Field := [⟨"name", false⟩, ⟨"commit", false⟩]

def toJson (r : GitRef) : Json :=
  .record [("name", r.name.toJson), ("commit", .orNull Identifier.toJson r.commit)]

def ofJson? (v : Json) : Option GitRef := do
  let ms ← v.members? fields .refused
  let name ← ms.required "name" Identifier.ofJson?
  let commit ← ms.optional "commit" Identifier.ofJson?
  return ⟨name, commit⟩

end GitRef

/-- Where a pull request comes from. -/
structure PullRequest.Source where
  /-- The repository that holds the ref; the scanned one itself, or a fork of it. -/
  repository : Repository
  /-- The short name of the ref. -/
  branch : RefName
  /-- Whether the ref is a branch or a tag. -/
  branchKind : RefKind
  /-- The commit the ref points at, if the provider tells. -/
  commit : Option CommitHash
  deriving DecidableEq, Repr

/-- An open pull request. -/
structure PullRequest where
  id : PullRequestId
  title : String
  /-- Where it comes from. -/
  source : PullRequest.Source
  /-- The branch it goes into. -/
  destination : RefName
  deriving DecidableEq, Repr

namespace PullRequest

def Source.fields : List Json.Field :=
  [⟨"repository", false⟩, ⟨"branch", false⟩, ⟨"branch_type", false⟩, ⟨"commit", false⟩]

def Source.toJson (s : Source) : Json :=
  .record [("repository", s.repository.toJson), ("branch", s.branch.toJson),
    ("branch_type", s.branchKind.toJson), ("commit", .orNull Identifier.toJson s.commit)]

def Source.ofJson? (v : Json) : Option Source := do
  let ms ← v.members? fields .refused
  let repository ← ms.required "repository" Repository.ofJson?
  let branch ← ms.required "branch" Identifier.ofJson?
  let branchKind ← ms.required "branch_type" RefKind.ofJson?
  let commit ← ms.optional "commit" Identifier.ofJson?
  return ⟨repository, branch, branchKind, commit⟩

def fields : List Json.Field :=
  [⟨"id", false⟩, ⟨"title", false⟩, ⟨"source", false⟩, ⟨"destination_branch", false⟩]

/-- The stored form of a pull request. -/
def toJson (p : PullRequest) : Json :=
  .record [("id", p.id.toJson), ("title", .text p.title), ("source", p.source.toJson),
    ("destination_branch", p.destination.toJson)]

/-- The pull request of a stored form. -/
def ofJson? (v : Json) : Option PullRequest := do
  let ms ← v.members? fields .refused
  let id ← ms.required "id" PullRequestId.ofJson?
  let title ← ms.required "title" Json.text?
  let source ← ms.required "source" Source.ofJson?
  let destination ← ms.required "destination_branch" Identifier.ofJson?
  return ⟨id, title, source, destination⟩

end PullRequest

end HeadScout
