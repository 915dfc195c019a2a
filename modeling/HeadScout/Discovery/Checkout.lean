import HeadScout.Discovery.Request

/-!
# Checkouts

How a build fetches a repository: from which address, by which protocol, and with which credentials.
It starts from the credentials that listings use, over HTTP, and either can be replaced before the
address is looked up.

## Main definitions

* `CheckoutBuilder` — a checkout that is still being put together
* `CheckoutBuilder.build` — the finished checkout
* `CheckoutSpec` — a finished checkout
-/

namespace HeadScout

/-- How a build fetches a repository. -/
structure CheckoutSpec where
  remote : String
  protocol : Protocol
  /-- The credentials; none for those the build has by itself. -/
  credentialsId : Option CredentialsId
  deriving DecidableEq, Repr

def CheckoutSpec.toJson (s : CheckoutSpec) : Json :=
  .record [("remote", .text s.remote), ("protocol", s.protocol.toJson),
    ("credentials_id", .orNull Identifier.toJson s.credentialsId)]

/-- A checkout that is still being put together. -/
structure CheckoutBuilder where
  repository : Repository
  protocol : Protocol
  credentialsId : Option CredentialsId
  deriving DecidableEq, Repr

namespace CheckoutBuilder

/-- A checkout over HTTP with the credentials that listings use. -/
def ofRepository (r : Repository) (credentialsId : Option CredentialsId) : CheckoutBuilder :=
  ⟨r, .http, credentialsId⟩

/-- The checkout with other credentials and another protocol. -/
def withCredentials (b : CheckoutBuilder) (credentialsId : Option CredentialsId)
    (protocol : Protocol) : CheckoutBuilder :=
  { b with credentialsId := credentialsId, protocol := protocol }

/-- The finished checkout, from the first clone link of the protocol. -/
def build (b : CheckoutBuilder) : Except DiscoveryError CheckoutSpec :=
  match b.repository.cloneUrl? b.protocol with
  | some remote => .ok ⟨remote, b.protocol, b.credentialsId⟩
  | none => .error (.noCloneLink b.repository.fullName b.protocol)

end CheckoutBuilder

end HeadScout
