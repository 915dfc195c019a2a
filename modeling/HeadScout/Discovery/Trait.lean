import HeadScout.Discovery.Checkout
import HeadScout.Discovery.Filter

/-!
# Traits

A source is configured by a list of traits. A trait adds to the context of a scan, asks for
categories of heads, and may replace how the repository is checked out.

One trait discovers branches, by one of four strategies: the number of a strategy has bit 0 if
branches without a pull request are built, and bit 1 if branches with one are. Another trait checks
out over SSH with credentials of its own.

## Main definitions

* `Trait` — what a trait does
* `BranchStrategy` — which branches are built
* `Trait.branchDiscovery`, `Trait.sshCheckout` — the two traits
* `DiscoveryContext.ofTraits`, `Trait.resolveCheckout` — what a list of traits comes to

## Main results

* `BranchStrategy.ofId?_id` — a strategy is found under its number
* `BranchStrategy.ofFlags_flags` — a strategy is told by its two bits
-/

namespace HeadScout

/-- What a trait does. -/
structure Trait where
  /-- What it adds to the context of a scan. -/
  decorations : List Decoration
  /-- Whether heads of the category are listed because of it. -/
  includes : HeadCategory → Bool
  /-- The credentials and protocol that it checks out with, if it replaces them. -/
  checkout : Option (Option CredentialsId × Protocol)

/-! ### Discovery of branches -/

/-- Which branches are built. -/
inductive BranchStrategy where
  | nothing
  /-- Branches that no pull request comes from. -/
  | excludePullRequests
  /-- Branches that a pull request comes from. -/
  | onlyPullRequests
  | everything
  deriving DecidableEq, Repr

namespace BranchStrategy

/-- Every strategy, by its number. -/
def all : List BranchStrategy := [.nothing, .excludePullRequests, .onlyPullRequests, .everything]

/-- The number of the strategy. -/
def id : BranchStrategy → UInt8
  | .nothing => 0
  | .excludePullRequests => 1
  | .onlyPullRequests => 2
  | .everything => 3

/-- The strategy with a number. -/
def ofId? (n : UInt8) : Option BranchStrategy := all[n.toNat]?

theorem ofId?_id (s : BranchStrategy) : ofId? s.id = some s := by cases s <;> rfl

/-- The name of the strategy. -/
def name : BranchStrategy → String
  | .nothing => "None"
  | .excludePullRequests => "ExcludePullRequests"
  | .onlyPullRequests => "OnlyPullRequests"
  | .everything => "All"

/-- Whether branches that no pull request comes from are built. -/
def buildsBranches (s : BranchStrategy) : Bool := s.id &&& 1 != 0

/-- Whether branches that a pull request comes from are built. -/
def buildsPullRequestBranches (s : BranchStrategy) : Bool := s.id &&& 2 != 0

/-- The strategy that builds the given sorts of branches. -/
def ofFlags : Bool → Bool → BranchStrategy
  | false, false => .nothing
  | true, false => .excludePullRequests
  | false, true => .onlyPullRequests
  | true, true => .everything

theorem ofFlags_flags (s : BranchStrategy) :
    ofFlags s.buildsBranches s.buildsPullRequestBranches = s := by cases s <;> decide

/-- What the strategy adds to the context of a scan. -/
def decorations : BranchStrategy → List Decoration
  | .nothing => []
  | .excludePullRequests =>
    [.wantBranches true, .authority .branches, .wantOriginPullRequests true,
      .filter .excludeOriginPullRequests]
  | .onlyPullRequests =>
    [.wantBranches true, .authority .branches, .wantOriginPullRequests true,
      .filter .onlyOriginPullRequests]
  | .everything => [.wantBranches true, .authority .branches]

end BranchStrategy

namespace Trait

/-- Discovers branches by a strategy. -/
def branchDiscovery (s : BranchStrategy) : Trait where
  decorations := s.decorations
  includes category := category == .uncategorized
  checkout := none

/-! ### Checkout over SSH -/

/-- What stands for no credentials in older configurations. -/
def anonymous : String := "ANONYMOUS"

/-- The credentials that a configuration names; a blank text or the one above names none. -/
def configuredCredentials? (configured : Option String) : Option CredentialsId :=
  ((configured.map Text.trim).filter (· != anonymous)).bind Identifier.ofText?

/-- Checks out over SSH with credentials of its own. -/
def sshCheckout (configured : Option String) : Trait where
  decorations := []
  includes _ := false
  checkout := some (configuredCredentials? configured, .ssh)

/-! ### Lists of traits -/

/-- A checkout after the trait had its say. -/
def applyCheckout (t : Trait) (b : CheckoutBuilder) : CheckoutBuilder :=
  match t.checkout with
  | some (credentialsId, protocol) => b.withCredentials credentialsId protocol
  | none => b

/-- How a repository is checked out, starting from the credentials that listings use. -/
def resolveCheckout (traits : List Trait) (r : Repository) (credentialsId : Option CredentialsId) :
    Except DiscoveryError CheckoutSpec :=
  (traits.foldl (fun b t => applyCheckout t b) (CheckoutBuilder.ofRepository r credentialsId)).build

end Trait

/-- The context that a list of traits leads to. -/
def DiscoveryContext.ofTraits (traits : List Trait) : DiscoveryContext :=
  { DiscoveryContext.empty.decorateAll (traits.flatMap (·.decorations)) with
    categories := HeadCategory.all.filter fun c => traits.any (·.includes c) }

end HeadScout
