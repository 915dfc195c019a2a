import HeadScout.Payload.RepositoryBody
import HeadScout.PullRequest

/-!
# Pages of Cloud

Cloud lists in pages that name the address of the next one. A ref without a name is passed over, and
so is a pull request whose source is gone or whose branches have no names.

## Main definitions

* `CloudPage` — a page
* `CloudPage.Ref`, `CloudPage.PullRequestEntry` — what it lists besides repositories
-/

namespace HeadScout

/-- A page of Cloud. -/
structure CloudPage (α : Type) where
  values : List α
  /-- The address of the next page, unless this is the last one. -/
  next : Option String
  deriving Repr

namespace CloudPage

open Payload

def fields : List Json.Field := [⟨"values", true⟩, ⟨"next", false⟩]

/-- The page in a body, its values read by `read`. -/
def ofJson? {α : Type} (read : Json → Option α) (v : Json) : Option (CloudPage α) := do
  let ms ← v.members? fields .refused
  let values ← ms.withDefault "values" [] (Json.list? read)
  let next ← ms.optional "next" Json.text?
  return ⟨values, next⟩

/-- The name of a page of repositories in reports. -/
def repositoriesDocument : String := "cloud repositories page"

/-- The name of a page of refs in reports. -/
def refsDocument : String := "cloud refs page"

/-- The name of a page of pull requests in reports. -/
def pullRequestsDocument : String := "cloud pull requests page"

/-! ### Refs -/

def commitFields : List Json.Field := [⟨"hash", false⟩]

/-- The hash of a commit. -/
def hashOfJson? (v : Json) : Option (Option String) := do
  let ms ← v.members? commitFields .refused
  ms.optional "hash" Json.text?

/-- A branch or tag. -/
structure Ref where
  name : String
  /-- The hash of the commit it points at. -/
  hash : Option String
  deriving DecidableEq, Repr

def Ref.fields : List Json.Field := [⟨"name", false⟩, ⟨"target", false⟩]

def Ref.ofJson? (v : Json) : Option Ref := do
  let ms ← v.members? Ref.fields .refused
  let name ← ms.required "name" Json.text?
  let target ← ms.optional "target" hashOfJson?
  return ⟨name, target.join⟩

/-- The ref that is listed, unless it has no name. -/
def Ref.toGitRef? (r : Ref) : Option GitRef :=
  (Identifier.ofText? r.name).map fun name => ⟨name, commit? r.hash⟩

/-! ### Pull requests -/

/-- One end of a pull request. -/
structure Endpoint where
  branch : String
  hash : Option String
  /-- The repository; absent if it is gone. -/
  repository : Option CloudRepository
  deriving DecidableEq, Repr

def Endpoint.branchFields : List Json.Field := [⟨"name", false⟩]

/-- The name of a branch at one end. -/
def Endpoint.branchOfJson? (v : Json) : Option String := do
  let ms ← v.members? Endpoint.branchFields .refused
  ms.required "name" Json.text?

def Endpoint.fields : List Json.Field :=
  [⟨"branch", false⟩, ⟨"commit", false⟩, ⟨"repository", false⟩]

/-- One end of a pull request in a body. -/
def Endpoint.ofJson? (v : Json) : Option Endpoint := do
  let ms ← v.members? Endpoint.fields .refused
  let branch ← ms.required "branch" Endpoint.branchOfJson?
  let commit ← ms.optional "commit" hashOfJson?
  let repository ← ms.optional "repository" CloudRepository.ofJson?
  return ⟨branch, commit.join, repository⟩

/-- A pull request. -/
structure PullRequestEntry where
  id : UInt64
  title : String
  /-- Where it comes from. -/
  source : Endpoint
  destination : Endpoint
  deriving DecidableEq, Repr

namespace PullRequestEntry

def fields : List Json.Field :=
  [⟨"id", false⟩, ⟨"title", true⟩, ⟨"source", false⟩, ⟨"destination", false⟩]

def ofJson? (v : Json) : Option PullRequestEntry := do
  let ms ← v.members? fields .refused
  let id ← ms.required "id" (Json.natural? UInt64.size)
  let title ← ms.withDefault "title" "" Json.text?
  let source ← ms.required "source" Endpoint.ofJson?
  let destination ← ms.required "destination" Endpoint.ofJson?
  return ⟨.ofNat id, title, source, destination⟩

/-- The pull request that is listed, unless it is passed over. -/
def toPullRequest? (e : PullRequestEntry) : Except PayloadError (Option PullRequest) :=
  match e.source.repository, Identifier.ofText? e.source.branch,
      Identifier.ofText? e.destination.branch with
  | some repository, some branch, some destination => do
    let repository ← repository.toRepository pullRequestsDocument
    return some ⟨⟨e.id⟩, e.title, ⟨repository, branch, .branch, commit? e.source.hash⟩, destination⟩
  | _, _, _ => return none

end PullRequestEntry

/-- The repositories that are listed. -/
def toRepositories (rs : List CloudRepository) : Except PayloadError (List Repository) :=
  rs.mapM (·.toRepository repositoriesDocument)

end CloudPage

end HeadScout
