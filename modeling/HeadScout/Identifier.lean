import HeadScout.Json.Record
import HeadScout.Text.Ascii

/-!
# Identifiers

The names that a provider gives to owners, repositories, refs, commits, mirrors, servers and
credentials. They are told apart by their kind, so that a repository name never stands where an
owner is meant. A name taken from a provider is not empty; a name read back from a stored document
is taken as it stands.

## Main definitions

* `Identifier kind` and `OwnerName`, `RepositoryName`, `RefName`, `CommitHash`, `MirrorId`,
  `ServerUrl`, `CredentialsId`
* `Identifier.ofText?` — an identifier from a text that is not empty
* `Identifier.sameName` — equality up to the case of ASCII letters
* `PullRequestId` — the number of a pull request

## Main results

* `Identifier.ofText?_eq_some_iff` — exactly the empty text is refused
-/

namespace HeadScout

/-- What an identifier names. -/
inductive IdentifierKind where
  /-- The owner of a repository: a workspace or a project key. -/
  | owner
  /-- A repository, within its owner. -/
  | repository
  /-- A branch or tag, without the beginning `refs/...`. -/
  | ref
  | commit
  | mirror
  /-- A server, by its base address. -/
  | server
  /-- A credential in the credential store. -/
  | credentials
  deriving DecidableEq, Repr

/-- The name of something of the given kind. -/
structure Identifier (kind : IdentifierKind) where
  /-- The name as written. -/
  text : String
  deriving DecidableEq, Repr

/-- The owner of a repository: the workspace on Cloud, the project key on Server. -/
abbrev OwnerName := Identifier .owner
/-- The name of a repository within its owner. -/
abbrev RepositoryName := Identifier .repository
/-- The short name of a branch or tag. -/
abbrev RefName := Identifier .ref
/-- A commit hash as the provider reports it. -/
abbrev CommitHash := Identifier .commit
/-- The identifier of a mirror server. -/
abbrev MirrorId := Identifier .mirror
/-- The base address of an instance. -/
abbrev ServerUrl := Identifier .server
/-- The identifier of a credential in the credential store. -/
abbrev CredentialsId := Identifier .credentials

namespace Identifier

variable {kind : IdentifierKind}

/-- The identifier with this text, unless the text is empty. -/
def ofText? (s : String) : Option (Identifier kind) := if s = "" then none else some ⟨s⟩

theorem ofText?_eq_some_iff {s : String} {i : Identifier kind} :
    ofText? s = some i ↔ i.text = s ∧ s ≠ "" := by
  obtain ⟨t⟩ := i
  by_cases h : s = ""
  · simp [ofText?, h]
  · simp [ofText?, h, eq_comm]

/-- Whether two names are the same up to the case of ASCII letters. -/
def sameName (a b : Identifier kind) : Bool := Text.sameLetters a.text b.text

/-! ### Stored form -/

/-- An identifier is stored as its text. -/
def toJson (i : Identifier kind) : Json := .text i.text

/-- Any stored text is an identifier. -/
def ofJson? (v : Json) : Option (Identifier kind) := v.text?.map fun s => ⟨s⟩

@[simp] theorem ofJson?_toJson (i : Identifier kind) : ofJson? i.toJson = some i := rfl

end Identifier

/-- The number of a pull request, unique within a repository. -/
structure PullRequestId where
  value : UInt64
  deriving DecidableEq, Repr

namespace PullRequestId

/-- The number as text. -/
def render (i : PullRequestId) : String := Decimal.render i.value.toNat

/-- A pull request number is stored as a number. -/
def toJson (i : PullRequestId) : Json := .nat i.value.toNat

/-- Any natural number of 64 bits is a pull request number. -/
def ofJson? (v : Json) : Option PullRequestId :=
  (v.natural? UInt64.size).map fun n => ⟨.ofNat n⟩

@[simp] theorem ofJson?_toJson (i : PullRequestId) : ofJson? i.toJson = some i := by
  obtain ⟨n⟩ := i
  have h : n.toNat < UInt64.size := n.toNat_lt_size
  simp [ofJson?, toJson, Json.nat, Json.natural?, Option.filter, h]

end PullRequestId

end HeadScout
