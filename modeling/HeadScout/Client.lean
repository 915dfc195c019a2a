import HeadScout.Client.Paging
import HeadScout.Instance

/-!
# The client

A client answers listings by reading pages from one instance, Cloud or Server, with the credentials
it was given. The two differ in the addresses of their listings and in the form of their pages.

## Main definitions

* `Client` — product, address and credentials
* `Client.repositories`, `Client.refs`, `Client.pullRequests` — the listings
* `Client.api` — the client as one that answers listings
-/

namespace HeadScout

/-- Product, address and credentials of a client. -/
structure Client where
  product : Product
  /-- The address, without slashes at its end. -/
  baseUrl : String
  /-- How requests authenticate. -/
  credentials : Option Credentials
  deriving DecidableEq, Repr

namespace Client

/-- The address of the interface of Cloud. -/
def cloudApiUrl : String := "https://api.bitbucket.org"

/-- A client for an address; slashes at its end do not count. -/
def ofUrl (product : Product) (url : String) (credentials : Option Credentials) : Client :=
  ⟨product, Text.dropTrailing '/' url, credentials⟩

/-- A client for Cloud. -/
def cloud (credentials : Option Credentials) : Client := ofUrl .cloud cloudApiUrl credentials

/-- A client for an installation of Server. -/
def server (url : String) (credentials : Option Credentials) : Client :=
  ofUrl .server url credentials

/-- The header that requests carry. -/
def authorization (c : Client) : Option String := c.credentials.map Credentials.authorization

/-- Whether requests can carry the credentials. -/
def canSend (c : Client) : Bool := c.credentials.all Credentials.isSendable

/-- The network as the client sees it: without requests that can be sent there are no answers. -/
def reach (c : Client) (n : Network) : Network := if c.canSend then n else .offline

/-! ### Addresses -/

/-- The address of the repositories of an owner. -/
def repositoriesUrl (c : Client) (owner : OwnerName) : String :=
  match c.product with
  | .cloud => c.baseUrl ++ "/2.0/repositories/" ++ owner.text
  | .server => c.baseUrl ++ "/rest/api/1.0/projects/" ++ owner.text ++ "/repos"

/-- The address of a repository. -/
def repositoryUrl (c : Client) (owner : OwnerName) (repository : RepositoryName) : String :=
  c.repositoriesUrl owner ++ "/" ++ repository.text

/-- The address of the branches or tags of a repository. -/
def refsUrl (c : Client) (kind : RefKind) (owner : OwnerName) (repository : RepositoryName) :
    String :=
  c.repositoryUrl owner repository ++
    match c.product, kind with
    | .cloud, .branch => "/refs/branches"
    | .cloud, .tag => "/refs/tags"
    | .server, .branch => "/branches"
    | .server, .tag => "/tags"

/-- The address of the open pull requests into a repository. -/
def pullRequestsUrl (c : Client) (owner : OwnerName) (repository : RepositoryName) : String :=
  c.repositoryUrl owner repository ++
    match c.product with
    | .cloud => "/pullrequests?state=OPEN"
    | .server => "/pull-requests?state=OPEN"

/-! ### Listings -/

variable {α : Type}

/-- The entries of a listing of Cloud. -/
def cloudEntries (c : Client) (n : Network) (document : String) (read : Json → Option α)
    (url : String) : Answering (List α) :=
  cloudValues (c.reach n) c.authorization document read url

/-- The entries of a listing of Server. -/
def serverEntries (c : Client) (n : Network) (document : String) (read : Json → Option α)
    (url : String) : Answering (List α) :=
  serverValues (c.reach n).ask c.authorization document read url

/-- What entries come to; a failure names the address of the listing. -/
def convert (url : String) (converted : Except PayloadError α) : Answering α :=
  liftM (converted.mapError (ApiError.undecodable url))

/-- The repositories of an owner. -/
def repositories (c : Client) (n : Network) (owner : OwnerName) : Answering (List Repository) := do
  let url := c.repositoriesUrl owner
  match c.product with
  | .cloud =>
    let rs ← c.cloudEntries n CloudPage.repositoriesDocument Payload.CloudRepository.ofJson? url
    convert url (CloudPage.toRepositories rs)
  | .server =>
    let rs ← c.serverEntries n ServerPage.repositoriesDocument Payload.ServerRepository.ofJson? url
    convert url (ServerPage.toRepositories rs)

/-- The branches or tags of a repository. -/
def refs (c : Client) (n : Network) (kind : RefKind) (owner : OwnerName)
    (repository : RepositoryName) : Answering (List GitRef) := do
  let url := c.refsUrl kind owner repository
  match c.product with
  | .cloud =>
    let rs ← c.cloudEntries n CloudPage.refsDocument CloudPage.Ref.ofJson? url
    pure (rs.filterMap CloudPage.Ref.toGitRef?)
  | .server =>
    let rs ← c.serverEntries n ServerPage.refsDocument ServerPage.Ref.ofJson? url
    pure (rs.filterMap ServerPage.Ref.toGitRef?)

/-- The open pull requests into a repository. -/
def pullRequests (c : Client) (n : Network) (owner : OwnerName) (repository : RepositoryName) :
    Answering (List PullRequest) := do
  let url := c.pullRequestsUrl owner repository
  match c.product with
  | .cloud =>
    let es ← c.cloudEntries n CloudPage.pullRequestsDocument CloudPage.PullRequestEntry.ofJson? url
    let prs ← convert url (es.mapM (·.toPullRequest?))
    pure (prs.filterMap fun p => p)
  | .server =>
    let es ← c.serverEntries n ServerPage.pullRequestsDocument ServerPage.PullRequestEntry.ofJson?
      url
    let prs ← convert url (es.mapM (·.toPullRequest?))
    pure (prs.filterMap fun p => p)

/-- The client as one that answers listings. -/
def api (c : Client) (n : Network) : Api where
  answer
    | .repositories owner => c.repositories n owner
    | .branches owner repository => c.refs n .branch owner repository
    | .tags owner repository => c.refs n .tag owner repository
    | .pullRequests owner repository => c.pullRequests n owner repository

end Client

end HeadScout
