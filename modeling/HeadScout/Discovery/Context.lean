import HeadScout.Head
import HeadScout.Notice
import HeadScout.Traced

/-!
# The context of a scan

What a scan looks for: branches, tags and pull requests, of which categories, which heads it leaves
out, and which it trusts. Filters and authorities decide from the repository and its pull requests,
as far as these are known, and from the head.

## Main definitions

* `SourceView` — what filters and authorities can see
* `HeadFilter`, `HeadAuthority` — who leaves out and who trusts
* `DiscoveryContext` — what a scan looks for
* `Decoration`, `DiscoveryContext.decorate` — how a context grows
-/

namespace HeadScout

/-- What filters and authorities can see of a repository. -/
structure SourceView where
  repository : Repository
  /-- Its open pull requests, if they are known. -/
  pullRequests : Option (List PullRequest)
  deriving DecidableEq, Repr

/-- Who leaves out heads. -/
structure HeadFilter where
  /-- The name under which it is shown. -/
  name : String
  /-- Whether a head is left out. -/
  excludes : SourceView → Head → Traced Notice Bool

/-- Who trusts heads. -/
structure HeadAuthority where
  /-- The name under which it is shown. -/
  name : String
  /-- Whether a head is trusted. -/
  trusts : SourceView → Head → Bool

/-- What a scan looks for. -/
structure DiscoveryContext where
  /-- Whether branches are wanted. -/
  wantsBranches : Bool
  /-- Whether pull requests from the repository itself are wanted. -/
  wantsOriginPullRequests : Bool
  /-- Whether pull requests from forks are wanted. -/
  wantsForkPullRequests : Bool
  /-- Whether tags are wanted. -/
  wantsTags : Bool
  categories : List HeadCategory
  /-- Who trusts heads. -/
  authorities : List HeadAuthority
  /-- Who leaves out heads, in the order in which they are asked. -/
  filters : List HeadFilter

/-- One addition to a context. A wish that was uttered once is not taken back. -/
inductive Decoration where
  | wantBranches (wanted : Bool)
  /-- Pull requests from the repository itself are wanted, if so. -/
  | wantOriginPullRequests (wanted : Bool)
  /-- Pull requests from forks are wanted, if so. -/
  | wantForkPullRequests (wanted : Bool)
  | wantTags (wanted : Bool)
  | authority (authority : HeadAuthority)
  | filter (filter : HeadFilter)

namespace DiscoveryContext

/-- A context in which nothing is wanted. -/
def empty : DiscoveryContext := ⟨false, false, false, false, [], [], []⟩

/-- Whether pull requests of either sort are wanted. -/
def wantsPullRequests (c : DiscoveryContext) : Bool :=
  c.wantsOriginPullRequests || c.wantsForkPullRequests

/-- Whether heads of the category are listed. -/
def includes (c : DiscoveryContext) (category : HeadCategory) : Bool := category ∈ c.categories

/-- The context with an addition. -/
def decorate (c : DiscoveryContext) : Decoration → DiscoveryContext
  | .wantBranches wanted => { c with wantsBranches := c.wantsBranches || wanted }
  | .wantOriginPullRequests wanted =>
    { c with wantsOriginPullRequests := c.wantsOriginPullRequests || wanted }
  | .wantForkPullRequests wanted =>
    { c with wantsForkPullRequests := c.wantsForkPullRequests || wanted }
  | .wantTags wanted => { c with wantsTags := c.wantsTags || wanted }
  | .authority a => { c with authorities := c.authorities ++ [a] }
  | .filter f => { c with filters := c.filters ++ [f] }

/-- The context with some additions, in order. -/
def decorateAll (c : DiscoveryContext) (ds : List Decoration) : DiscoveryContext :=
  ds.foldl decorate c

end DiscoveryContext

end HeadScout
