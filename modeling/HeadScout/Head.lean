import HeadScout.PullRequest

/-!
# Heads

What can be built from a repository: its branches, its tags and its pull requests. A pull request
head is named after its number and says where its source comes from. Whether a head can be trusted
and whether it comes from a fork is found when the repository is scanned; it is not part of the
head.

## Main definitions

* `Head` — branch, tag or pull request, in this order
* `PullRequestHead.ofPullRequest` — the head of a pull request
* `HeadCategory` — under which heading a head is shown
* `Revision` — the commit that a head stands for

## Main results

* instances `Std.TransOrd Head` and `Std.LawfulEqOrd Head` — heads are ordered, and equal in the
  order only when they are the same
-/

namespace HeadScout

/-- The heading under which a head is shown. -/
inductive HeadCategory where
  | uncategorized
  | changeRequests
  | tags
  deriving DecidableEq, Repr

namespace HeadCategory

/-- The category's name in stored documents. -/
def name : HeadCategory → String
  | .uncategorized => "uncategorized"
  | .changeRequests => "change_requests"
  | .tags => "tags"

/-- A category is stored as its name. -/
def toJson (c : HeadCategory) : Json := .text c.name

def ofJson? (v : Json) : Option HeadCategory :=
  v.variant?.bind fun
    | "uncategorized" => some .uncategorized
    | "change_requests" => some .changeRequests
    | "tags" => some .tags
    | _ => none

/-- Every category, in the order in which they are listed. -/
def all : List HeadCategory := [.uncategorized, .changeRequests, .tags]

end HeadCategory

/-- The head of a pull request. -/
structure PullRequestHead where
  /-- The name under which it is shown. -/
  name : String
  /-- The number of the pull request. -/
  id : PullRequestId
  /-- The owner of the repository it comes from. -/
  sourceOwner : OwnerName
  /-- The name of the repository it comes from. -/
  sourceRepository : RepositoryName
  /-- The ref it comes from. -/
  sourceBranch : RefName
  /-- Whether that ref is a branch or a tag. -/
  sourceBranchKind : RefKind
  /-- The branch it goes into. -/
  targetBranch : RefName
  deriving DecidableEq, Repr

/-- The head of a pull request is named after its number. -/
def PullRequestHead.ofPullRequest (p : PullRequest) : PullRequestHead where
  name := "PR-" ++ p.id.render
  id := p.id
  sourceOwner := p.source.repository.owner
  sourceRepository := p.source.repository.name
  sourceBranch := p.source.branch
  sourceBranchKind := p.source.branchKind
  targetBranch := p.destination

/-- Something that can be built. -/
inductive Head where
  | branch (name : RefName)
  | tag (name : RefName)
  | pullRequest (head : PullRequestHead)
  deriving DecidableEq, Repr

/-- The commit that a head stands for. -/
structure Revision where
  hash : CommitHash
  deriving DecidableEq, Repr

namespace Head

/-- The name under which the head is shown. -/
def name : Head → String
  | .branch n => n.text
  | .tag n => n.text
  | .pullRequest h => h.name

/-- The heading under which the head is shown. -/
def category : Head → HeadCategory
  | .branch _ => .uncategorized
  | .tag _ => .tags
  | .pullRequest _ => .changeRequests

/-- The head of a branch or tag. -/
def ofRef (kind : RefKind) (name : RefName) : Head :=
  match kind with
  | .branch => .branch name
  | .tag => .tag name

/-! ### Order -/

/-- What heads are compared by, from the most to the least important: the kind, the name, and the
further parts of a pull request head. -/
structure SortKey where
  /-- Branches, then tags, then pull requests. -/
  kind : Nat
  name : String
  /-- The number of a pull request. -/
  id : Nat
  /-- The owner a pull request comes from. -/
  sourceOwner : String
  /-- The repository a pull request comes from. -/
  sourceRepository : String
  /-- The ref a pull request comes from. -/
  sourceBranch : String
  sourceBranchKind : Nat
  /-- The branch a pull request goes into. -/
  targetBranch : String
  deriving DecidableEq

/-- What the head is compared by. -/
def sortKey : Head → SortKey
  | .branch n => ⟨0, n.text, 0, "", "", "", 0, ""⟩
  | .tag n => ⟨1, n.text, 0, "", "", "", 0, ""⟩
  | .pullRequest h => ⟨2, h.name, h.id.value.toNat, h.sourceOwner.text, h.sourceRepository.text,
      h.sourceBranch.text, h.sourceBranchKind.rank, h.targetBranch.text⟩

/-- The order of sort keys: part by part. -/
def SortKey.order : SortKey → SortKey → Ordering :=
  compareLex (compareOn (·.kind)) <| compareLex (compareOn (·.name)) <|
  compareLex (compareOn (·.id)) <| compareLex (compareOn (·.sourceOwner)) <|
  compareLex (compareOn (·.sourceRepository)) <| compareLex (compareOn (·.sourceBranch)) <|
  compareLex (compareOn (·.sourceBranchKind)) (compareOn (·.targetBranch))

instance : Ord Head := ⟨fun a b => a.sortKey.order b.sortKey⟩

theorem sortKey_injective {a b : Head} (h : a.sortKey = b.sortKey) : a = b := by
  have ext : ∀ {k : IdentifierKind} {x y : Identifier k}, x.text = y.text → x = y := by
    rintro k ⟨x⟩ ⟨y⟩ rfl; rfl
  have ranks : ∀ {x y : RefKind}, x.rank = y.rank → x = y := by
    intro x y; cases x <;> cases y <;> simp [RefKind.rank]
  -- Heads of different kinds differ in the first part of their keys.
  cases a <;> cases b <;> simp [sortKey] at h
  · rw [ext h]
  · rw [ext h]
  · rename_i a b
    obtain ⟨h₁, h₂, h₃, h₄, h₅, h₆, h₇⟩ := h
    obtain ⟨_, ⟨_⟩, _, _, _, _, _⟩ := a
    obtain ⟨_, ⟨_⟩, _, _, _, _, _⟩ := b
    simp only at h₁ h₂ h₃ h₄ h₅ h₆ h₇
    rw [h₁, UInt64.toNat_inj.1 h₂, ext h₃, ext h₄, ext h₅, ranks h₆, ext h₇]

instance : Std.TransCmp SortKey.order := by unfold SortKey.order; infer_instance

instance : Std.TransOrd Head where
  eq_swap := @fun a b => @Std.OrientedCmp.eq_swap _ SortKey.order inferInstance a.sortKey b.sortKey
  isLE_trans := @fun a b c =>
    @Std.TransCmp.isLE_trans _ SortKey.order inferInstance a.sortKey b.sortKey c.sortKey

theorem SortKey.eq_of_order {a b : SortKey} (h : a.order b = .eq) : a = b := by
  simp only [order, compareLex_eq_eq, compareOn, Std.compare_eq_iff_eq] at h
  obtain ⟨h₁, h₂, h₃, h₄, h₅, h₆, h₇, h₈⟩ := h
  cases a; cases b; simp_all

instance : Std.LawfulEqOrd Head where
  eq_of_compare h := sortKey_injective (SortKey.eq_of_order h)

/-! ### Stored form -/

def refFields : List Json.Field := [⟨"name", false⟩]

def pullRequestFields : List Json.Field :=
  [⟨"name", false⟩, ⟨"id", false⟩, ⟨"source_owner", false⟩, ⟨"source_repository", false⟩,
    ⟨"source_branch", false⟩, ⟨"source_branch_type", false⟩, ⟨"target_branch", false⟩]

/-- The stored form of a head names its kind. -/
def toJson : Head → Json
  | .branch n => .record [("kind", .text "branch"), ("name", n.toJson)]
  | .tag n => .record [("kind", .text "tag"), ("name", n.toJson)]
  | .pullRequest h =>
    .record [("kind", .text "pull_request"), ("name", .text h.name), ("id", h.id.toJson),
      ("source_owner", h.sourceOwner.toJson), ("source_repository", h.sourceRepository.toJson),
      ("source_branch", h.sourceBranch.toJson),
      ("source_branch_type", h.sourceBranchKind.toJson),
      ("target_branch", h.targetBranch.toJson)]

/-- The pull request head of a stored form without its kind. -/
def pullRequestOfJson? (v : Json) : Option PullRequestHead := do
  let ms ← v.members? pullRequestFields .refused
  let name ← ms.required "name" Json.text?
  let id ← ms.required "id" PullRequestId.ofJson?
  let sourceOwner ← ms.required "source_owner" Identifier.ofJson?
  let sourceRepository ← ms.required "source_repository" Identifier.ofJson?
  let sourceBranch ← ms.required "source_branch" Identifier.ofJson?
  let sourceBranchKind ← ms.required "source_branch_type"
    fun v => v.keptVariant?.bind RefKind.ofName?
  let targetBranch ← ms.required "target_branch" Identifier.ofJson?
  return ⟨name, id, sourceOwner, sourceRepository, sourceBranch, sourceBranchKind, targetBranch⟩

def ofJson? (v : Json) : Option Head := do
  let (kind, rest) ← v.tagged? "kind" 0
  match kind with
  | "branch" =>
    let ms ← rest.members? refFields .refused
    return .branch (← ms.required "name" Identifier.ofJson?)
  | "tag" =>
    let ms ← rest.members? refFields .refused
    return .tag (← ms.required "name" Identifier.ofJson?)
  | "pull_request" => return .pullRequest (← pullRequestOfJson? rest)
  | _ => none

end Head

namespace Revision

def fields : List Json.Field := [⟨"hash", false⟩]

def toJson (r : Revision) : Json := .record [("hash", r.hash.toJson)]

def ofJson? (v : Json) : Option Revision := do
  let ms ← v.members? fields .refused
  return ⟨← ms.required "hash" Identifier.ofJson?⟩

end Revision

end HeadScout
