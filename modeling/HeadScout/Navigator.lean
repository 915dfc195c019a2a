import HeadScout.Api
import HeadScout.SortedTable

/-!
# Navigators

A navigator lists the repositories of an owner and hands them on one by one, those first that no
source looks after yet. Repositories are kept by name; of those with one name, the one listed last
stays.

## Main definitions

* `Navigator` — the sources that are registered, and the repositories that are known
* `Navigator.withRepositories` — other repositories
* `Navigator.repositories` — the repositories in the order in which they are handed on
* `Navigator.visit` — the repositories of an owner
-/

namespace HeadScout

/-- The sources that are registered, and the repositories that are known. -/
structure Navigator where
  /-- The names of the repositories that some source looks after. -/
  registered : List RepositoryName
  /-- The known repositories by name. -/
  known : SortedTable String Repository

namespace Navigator

/-- A navigator that knows no repositories yet. -/
def ofRegistered (registered : List RepositoryName) : Navigator := ⟨registered, .empty⟩

/-- The navigator with these repositories in the place of those it knew. -/
def withRepositories (n : Navigator) (rs : List Repository) : Navigator :=
  { n with known := .ofList (rs.map fun r => (r.name.text, r)) }

/-- Whether some source looks after a repository of this name. -/
def isRegistered (n : Navigator) (name : String) : Bool := n.registered.any (·.text == name)

/-- The known repositories by name, those first that no source looks after. -/
def repositories (n : Navigator) : List Repository :=
  -- Both parts keep the order by name.
  let (existing, new) := n.known.entries.partition fun e => n.isRegistered e.1
  (new ++ existing).map (·.2)

/-- The known repository of exactly this name. -/
def repository? (n : Navigator) (name : String) : Option Repository :=
  (Identifier.ofText? name : Option RepositoryName).bind fun i => n.known.get? i.text

/-- How many repositories are known. -/
def size (n : Navigator) : Nat := n.known.entries.length

/-- Whether no repository is known. -/
def isEmpty (n : Navigator) : Bool := n.known.entries.isEmpty

/-- The repositories of an owner in the order in which they are handed on, and the navigator that
knows them; it stays as it is when they cannot be listed. -/
def visit (n : Navigator) (api : Api) (owner : OwnerName) :
    Traced Step (Except ApiError (List Repository) × Navigator) := do
  match ← (api.list (.repositories owner)).run with
  | .ok rs => do
    Traced.record (.note .repositoriesListed)
    let visited := n.withRepositories rs
    pure (.ok visited.repositories, visited)
  | .error e => pure (.error e, n)

end Navigator

end HeadScout
