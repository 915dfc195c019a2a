import HeadScout.Api

/-!
# A catalogue in memory

Repositories, refs and pull requests that are held in memory and listed as an instance would list
them, in the order in which they were entered. Owners and repositories are found in any case of
letters. Pull requests can be made to fail.

## Main definitions

* `Catalog` — what was entered
* `Catalog.api` — the listings it answers
-/

namespace HeadScout

/-- What was entered, each with the repository it belongs to. -/
structure Catalog where
  repositories : List Repository
  branches : List (Repository × GitRef)
  tags : List (Repository × GitRef)
  /-- The pull requests, with the repository they go into. -/
  pullRequests : List (Repository × PullRequest)
  /-- Whether pull requests cannot be listed. -/
  hidesPullRequests : Bool
  deriving Repr

namespace Catalog

/-- Nothing was entered. -/
def empty : Catalog := ⟨[], [], [], [], false⟩

/-- The full name of a repository in small letters. -/
def key (owner : OwnerName) (name : RepositoryName) : String :=
  Text.lower owner.text ++ "/" ++ Text.lower name.text

/-- Of some entries, those that belong to a repository. -/
def entries {α : Type} (all : List (Repository × α)) (owner : OwnerName)
    (name : RepositoryName) : List α :=
  (all.filter fun e => key e.1.owner e.1.name == key owner name).map (·.2)

/-- The failure of a listing of pull requests that cannot be listed. -/
def hiddenError (owner : OwnerName) (name : RepositoryName) : ApiError :=
  .unreachable ("memory://" ++ owner.text ++ "/" ++ name.text ++ "/pull-requests")
    "pull request listing disabled"

/-- The listings that the catalogue answers. -/
def api (c : Catalog) : Api where
  answer
    | .repositories owner => pure (c.repositories.filter fun r => r.owner.sameName owner)
    | .branches owner name => pure (entries c.branches owner name)
    | .tags owner name => pure (entries c.tags owner name)
    | .pullRequests owner name =>
      if c.hidesPullRequests then throw (hiddenError owner name)
      else pure (entries c.pullRequests owner name)

end Catalog

end HeadScout
