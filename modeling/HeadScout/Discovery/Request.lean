import HeadScout.Api
import HeadScout.Discovery.Context

/-!
# Requests for a scan

The context of a scan together with what is known of the repository. A request says which heads are
left out, which are trusted, and where a head comes from.

## Main definitions

* `DiscoveryError` — why a scan or a checkout fails
* `SourceRequest` — context and repository
* `SourceRequest.isExcluded`, `SourceRequest.isTrusted`, `SourceRequest.originOf`
-/

namespace HeadScout

/-- Why a scan or a checkout fails. -/
inductive DiscoveryError where
  /-- Pull requests were asked for and are not known. -/
  | pullRequestsNotLoaded (repository : String)
  /-- There is no strategy with this number. -/
  | invalidStrategy (id : UInt8)
  /-- The repository has no clone link of this protocol. -/
  | noCloneLink (repository : String) (protocol : Protocol)
  | api (cause : ApiError)
  deriving DecidableEq, Repr

def DiscoveryError.message : DiscoveryError → String
  | .pullRequestsNotLoaded repository =>
    "Pull requests of " ++ repository ++ " were not loaded for this request"
  | .invalidStrategy id =>
    "Unknown branch discovery strategy " ++ Decimal.render id.toNat ++
      "; expected 0, 1, 2 or 3"
  | .noCloneLink repository protocol =>
    "Repository " ++ repository ++ " has no " ++ protocol.title ++ " clone link"
  | .api cause => cause.message

/-- Where a head comes from. -/
inductive HeadOrigin where
  /-- From the repository itself. -/
  | own
  /-- From a fork, by its owner. -/
  | fork (owner : OwnerName)
  deriving DecidableEq, Repr

/-- The context of a scan with what is known of the repository. -/
structure SourceRequest where
  /-- What the scan looks for. -/
  context : DiscoveryContext
  /-- The repository, and its pull requests if they are known. -/
  view : SourceView

namespace SourceRequest

/-- The pull requests, or the report that they are not known. -/
def pullRequests (r : SourceRequest) : Except DiscoveryError (List PullRequest) :=
  match r.view.pullRequests with
  | some prs => .ok prs
  | none => .error (.pullRequestsNotLoaded r.view.repository.fullName)

/-- Whether some filter leaves the head out; they are asked in order, until one does. -/
def isExcluded (r : SourceRequest) (head : Head) : Traced Notice Bool :=
  r.context.filters.anyM fun f => f.excludes r.view head

/-- Whether some authority trusts the head. -/
def isTrusted (r : SourceRequest) (head : Head) : Bool :=
  r.context.authorities.any fun a => a.trusts r.view head

/-- Where the head comes from: a pull request from another repository comes from a fork. -/
def originOf (r : SourceRequest) : Head → HeadOrigin
  | .branch _ | .tag _ => .own
  | .pullRequest h =>
    if r.view.repository.owner.sameName h.sourceOwner &&
        r.view.repository.name.sameName h.sourceRepository then .own
    else .fork h.sourceOwner

end SourceRequest

end HeadScout
