import HeadScout.Discovery.Trait

/-!
# Configured traits

The stored form of a list of traits. Whether there is a strategy with the configured number is found
only when the traits are put together; the first that has none is reported.

## Main definitions

* `TraitSpec` — a configured trait
* `TraitSpec.toTrait`, `TraitSpec.toTraits` — the traits themselves
* `TraitSpec.listOfJson?` — the list of a stored form
-/

namespace HeadScout

/-- A configured trait. -/
inductive TraitSpec where
  /-- Discovers branches by the strategy with this number. -/
  | branchDiscovery (strategyId : UInt8)
  /-- Checks out over SSH with these credentials. -/
  | sshCheckout (credentialsId : Option String)
  deriving DecidableEq, Repr

namespace TraitSpec

/-- The trait that is configured. -/
def toTrait : TraitSpec → Except DiscoveryError Trait
  | .branchDiscovery strategyId =>
    match BranchStrategy.ofId? strategyId with
    | some s => .ok (.branchDiscovery s)
    | none => .error (.invalidStrategy strategyId)
  | .sshCheckout credentialsId => .ok (.sshCheckout credentialsId)

/-- The traits that are configured. -/
def toTraits (specs : List TraitSpec) : Except DiscoveryError (List Trait) := specs.mapM toTrait

/-! ### Stored form -/

/-- The stored form names the trait in a member of its own. -/
def toJson : TraitSpec → Json
  | .branchDiscovery strategyId =>
    .record [("type", .text "branch_discovery"), ("strategy_id", .nat strategyId.toNat)]
  | .sshCheckout credentialsId =>
    .record [("type", .text "ssh_checkout"), ("credentials_id", .orNull .text credentialsId)]

def branchFields : List Json.Field := [⟨"strategy_id", false⟩]

def sshFields : List Json.Field := [⟨"credentials_id", true⟩]

/-- The trait of a stored form inside a list. -/
def ofJson? (v : Json) : Option TraitSpec := do
  let (kind, rest) ← v.tagged? "type" 1
  match kind with
  | "branch_discovery" =>
    let ms ← rest.members? branchFields .refused
    let strategyId ← ms.required "strategy_id" (Json.natural? UInt8.size)
    return .branchDiscovery (.ofNat strategyId)
  | "ssh_checkout" =>
    let ms ← rest.members? sshFields .refused
    let credentialsId ← ms.optional "credentials_id" Json.text?
    return .sshCheckout credentialsId
  | _ => none

/-- The list of a stored form. -/
def listOfJson? (v : Json) : Option (List TraitSpec) := v.list? ofJson?

end TraitSpec

end HeadScout
