import HeadScout.Discovery.Trait

/-!
# Scans

A scan looks for the heads of one repository. Pull requests are listed first, if any are wanted at
all; if that fails, the scan goes on without them. Then branches and tags are listed if some trait
wants them and their category is included, and what is found is filtered and marked as trusted or
not.

## Main definitions

* `DiscoveredHead` — a head that was found
* `Scan.request` — context and pull requests of a repository
* `Scan.candidates` — what is found before filters are asked
* `Scan.heads` — the heads of a repository
-/

namespace HeadScout

/-- A head that was found. -/
structure DiscoveredHead where
  head : Head
  /-- The commit it stands for, if the provider tells. -/
  revision : Option Revision
  /-- Whether its content can be trusted. -/
  trusted : Bool
  deriving DecidableEq, Repr

/-- The written form of a head that was found. -/
def DiscoveredHead.toJson (d : DiscoveredHead) : Json :=
  .record [("head", d.head.toJson), ("revision", .orNull Revision.toJson d.revision),
    ("trusted", .bool d.trusted)]

/-- A head that may be built, with the commit it stands for. -/
abbrev Candidate := Head × Option Revision

namespace Scan

/-- The pull requests of the repository, unless they cannot be listed. -/
def pullRequests (api : Api) (r : Repository) : Traced Step (Option (List PullRequest)) := do
  match ← (api.list (.pullRequests r.owner r.name)).run with
  | .ok prs => pure (some prs)
  | .error _ => do
    Traced.record (.note .pullRequestsUnavailable)
    pure none

/-- The context of a list of traits, with the pull requests if some trait wants any. -/
def request (api : Api) (traits : List Trait) (r : Repository) : Traced Step SourceRequest := do
  let context := DiscoveryContext.ofTraits traits
  let prs ← if context.wantsPullRequests then pullRequests api r else pure none
  pure ⟨context, r, prs⟩

/-- A listed ref as a candidate. -/
def ofRef (kind : RefKind) (ref : GitRef) : Candidate :=
  (.ofRef kind ref.name, ref.commit.map fun hash => ⟨hash⟩)

/-- A pull request as a candidate. -/
def ofPullRequest (p : PullRequest) : Candidate :=
  (.pullRequest (.ofPullRequest p), p.source.commit.map fun hash => ⟨hash⟩)

/-- Whether the request wants heads from there. -/
def wants (request : SourceRequest) : HeadOrigin → Bool
  | .own => request.context.wantsOriginPullRequests
  | .fork _ => request.context.wantsForkPullRequests

/-- The refs of a listing, if they are wanted; else the listing is not asked for. -/
def refs (wanted : Bool) (kind : RefKind) (listing : Attempt (List GitRef)) :
    Attempt (List Candidate) := do
  if wanted then
    let refs ← listing
    pure (refs.map (ofRef kind))
  else pure []

/-- The branches, if they are wanted. -/
def branches (api : Api) (request : SourceRequest) : Attempt (List Candidate) :=
  refs (request.context.wantsBranches && request.context.includes .uncategorized) .branch
    (api.list (.branches request.view.repository.owner request.view.repository.name))

/-- The tags, if they are wanted. -/
def tags (api : Api) (request : SourceRequest) : Attempt (List Candidate) :=
  refs (request.context.wantsTags && request.context.includes .tags) .tag
    (api.list (.tags request.view.repository.owner request.view.repository.name))

/-- The pull requests, as far as they are known and wanted. -/
def changeRequests (request : SourceRequest) : List Candidate :=
  if request.context.includes .changeRequests then
    ((request.view.pullRequests.getD []).map ofPullRequest).filter fun c =>
      wants request (request.originOf c.1)
  else []

/-- What is found before filters are asked. -/
def candidates (api : Api) (request : SourceRequest) : Attempt (List Candidate) := do
  let branches ← branches api request
  let tags ← tags api request
  pure (branches ++ tags ++ changeRequests request)

/-- The head that a candidate becomes, unless some filter leaves it out. -/
def discover (request : SourceRequest) (c : Candidate) : Traced Notice (Option DiscoveredHead) := do
  if ← request.isExcluded c.1 then
    Traced.record .headExcluded
    pure none
  else pure (some ⟨c.1, c.2, request.isTrusted c.1⟩)

/-- The heads that some candidates become. -/
def discoverAll (request : SourceRequest) (cs : List Candidate) :
    Traced Notice (List DiscoveredHead) := do
  let found ← cs.mapM (discover request)
  Traced.record .headsDiscovered
  pure (found.filterMap fun d => d)

/-- The heads of a repository. -/
def heads (api : Api) (traits : List Trait) (r : Repository) : Attempt (List DiscoveredHead) := do
  -- Pull requests come first, and their failure is no failure of the scan.
  let request ← (request api traits r : Traced Step SourceRequest)
  let found ← candidates api request
  ((discoverAll request found).mapSteps .note : Traced Step (List DiscoveredHead))

end Scan

end HeadScout
