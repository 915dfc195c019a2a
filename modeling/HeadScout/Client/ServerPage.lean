import HeadScout.Payload.ServerPush
import HeadScout.PullRequest

/-!
# Pages of Server

Server lists in pages that say whether they are the last one and at which entry the next one starts.
A ref without a name is passed over, and so is a pull request whose source is gone or whose refs
have no names.

## Main definitions

* `ServerPage`, `ServerPage.nextStart?` — a page, and where the next one starts
* `ServerPage.Ref`, `ServerPage.PullRequestEntry` — what it lists besides repositories
-/

namespace HeadScout

/-- A page of Server. -/
structure ServerPage (α : Type) where
  values : List α
  /-- Whether it is the last page. -/
  isLast : Bool
  /-- Where the page after it would start. -/
  start : Option UInt64
  deriving Repr

namespace ServerPage

open Payload

def fields : List Json.Field :=
  [⟨"values", true⟩, ⟨"isLastPage", true⟩, ⟨"nextPageStart", false⟩]

/-- The page in a body, its values read by `read`. -/
def ofJson? {α : Type} (read : Json → Option α) (v : Json) : Option (ServerPage α) := do
  let ms ← v.members? fields .refused
  let values ← ms.withDefault "values" [] (Json.list? read)
  let isLast ← ms.withDefault "isLastPage" true Json.bool?
  let start ← ms.optional "nextPageStart" (Json.natural? UInt64.size)
  return ⟨values, isLast, start.map UInt64.ofNat⟩

/-- Where the next page starts, if there is one. -/
def nextStart? {α : Type} (p : ServerPage α) : Option UInt64 := if p.isLast then none else p.start

/-- The name of a page of repositories in reports. -/
def repositoriesDocument : String := "server repositories page"

/-- The name of a page of refs in reports. -/
def refsDocument : String := "server refs page"

/-- The name of a page of pull requests in reports. -/
def pullRequestsDocument : String := "server pull requests page"

/-! ### Refs -/

/-- A branch or tag. -/
structure Ref where
  displayId : String
  /-- The hash of the commit it points at. -/
  latestCommit : Option String
  deriving DecidableEq, Repr

def Ref.fields : List Json.Field := [⟨"displayId", false⟩, ⟨"latestCommit", false⟩]

def Ref.ofJson? (v : Json) : Option Ref := do
  let ms ← v.members? Ref.fields .refused
  let displayId ← ms.required "displayId" Json.text?
  let latestCommit ← ms.optional "latestCommit" Json.text?
  return ⟨displayId, latestCommit⟩

/-- The ref that is listed, unless it has no name. -/
def Ref.toGitRef? (r : Ref) : Option GitRef :=
  (Identifier.ofText? r.displayId).map fun name => ⟨name, commit? r.latestCommit⟩

/-! ### Pull requests -/

/-- One end of a pull request. -/
structure Endpoint where
  /-- The full name of the ref. -/
  id : String
  /-- The short name of the ref. -/
  displayId : String
  /-- The hash of the commit it points at. -/
  latestCommit : Option String
  /-- The repository; absent if it is gone. -/
  repository : Option ServerRepository
  deriving DecidableEq, Repr

def Endpoint.fields : List Json.Field :=
  [⟨"id", false⟩, ⟨"displayId", false⟩, ⟨"latestCommit", false⟩, ⟨"repository", false⟩]

/-- One end of a pull request in a body. -/
def Endpoint.ofJson? (v : Json) : Option Endpoint := do
  let ms ← v.members? Endpoint.fields .refused
  let id ← ms.required "id" Json.text?
  let displayId ← ms.required "displayId" Json.text?
  let latestCommit ← ms.optional "latestCommit" Json.text?
  let repository ← ms.optional "repository" ServerRepository.ofJson?
  return ⟨id, displayId, latestCommit, repository⟩

/-- Whether the ref is a branch or a tag, by its full name. -/
def Endpoint.refKind (e : Endpoint) : RefKind :=
  if Text.hasPrefix ServerRef.tagBeginning e.id then .tag else .branch

/-- A pull request. -/
structure PullRequestEntry where
  id : UInt64
  title : String
  /-- Where it comes from. -/
  source : Endpoint
  destination : Endpoint
  deriving DecidableEq, Repr

namespace PullRequestEntry

def fields : List Json.Field :=
  [⟨"id", false⟩, ⟨"title", true⟩, ⟨"fromRef", false⟩, ⟨"toRef", false⟩]

def ofJson? (v : Json) : Option PullRequestEntry := do
  let ms ← v.members? fields .refused
  let id ← ms.required "id" (Json.natural? UInt64.size)
  let title ← ms.withDefault "title" "" Json.text?
  let source ← ms.required "fromRef" Endpoint.ofJson?
  let destination ← ms.required "toRef" Endpoint.ofJson?
  return ⟨.ofNat id, title, source, destination⟩

/-- The pull request that is listed, unless it is passed over. -/
def toPullRequest? (e : PullRequestEntry) : Except PayloadError (Option PullRequest) :=
  match e.source.repository, Identifier.ofText? e.source.displayId,
      Identifier.ofText? e.destination.displayId with
  | some repository, some branch, some destination => do
    let repository ← repository.toRepository pullRequestsDocument
    return some ⟨⟨e.id⟩, e.title,
      ⟨repository, branch, e.source.refKind, commit? e.source.latestCommit⟩, destination⟩
  | _, _, _ => return none

end PullRequestEntry

/-- The repositories that are listed. -/
def toRepositories (rs : List ServerRepository) : Except PayloadError (List Repository) :=
  rs.mapM (·.toRepository repositoriesDocument)

end ServerPage

end HeadScout
