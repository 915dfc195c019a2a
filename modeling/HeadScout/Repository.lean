import HeadScout.Identifier

/-!
# Repositories

A repository is known by its owner and name; both keep their case and are compared without it. The
provider tells by which protocols it can be cloned.

## Main definitions

* `Protocol`, `CloneLink`, `Repository`
* `Repository.ofFullName?`, `Repository.fullName` — the form `owner/name`
* `Repository.matchesFullName`, `Repository.isSameAs` — identity up to the case of letters
* `Repository.cloneUrl?` — the first link of a protocol

## Main results

* `Repository.ofFullName?_eq_some_iff` — the texts that are full names
* `Repository.fullName_of_ofFullName?` — a full name is given back as it was
-/

namespace HeadScout

/-- The protocol of a clone link. -/
inductive Protocol where
  /-- HTTP, with or without encryption. -/
  | http
  /-- SSH, in either of its address forms. -/
  | ssh
  deriving DecidableEq, Repr

namespace Protocol

/-- The protocol's name in stored documents. -/
def name : Protocol → String
  | .http => "http"
  | .ssh => "ssh"

/-- The protocol's name in messages. -/
def title : Protocol → String
  | .http => "Http"
  | .ssh => "Ssh"

/-- A protocol is stored as its name. -/
def toJson (p : Protocol) : Json := .text p.name

def ofJson? (v : Json) : Option Protocol :=
  v.variant?.bind fun
    | "http" => some .http
    | "ssh" => some .ssh
    | _ => none

@[simp] theorem ofJson?_toJson (p : Protocol) : ofJson? p.toJson = some p := by
  cases p <;> decide

end Protocol

/-- One address under which a repository can be cloned. -/
structure CloneLink where
  protocol : Protocol
  href : String
  deriving DecidableEq, Repr

namespace CloneLink

def fields : List Json.Field := [⟨"protocol", false⟩, ⟨"href", false⟩]

/-- The stored form of a clone link. -/
def toJson (l : CloneLink) : Json :=
  .record [("protocol", l.protocol.toJson), ("href", .text l.href)]

/-- The clone link of a stored form. -/
def ofJson? (v : Json) : Option CloneLink := do
  let ms ← v.members? fields .refused
  let protocol ← ms.required "protocol" Protocol.ofJson?
  let href ← ms.required "href" Json.text?
  return ⟨protocol, href⟩

end CloneLink

/-- A repository as the provider reports it. -/
structure Repository where
  /-- The workspace or project that holds it. -/
  owner : OwnerName
  name : RepositoryName
  /-- Where it can be cloned; empty for a repository that is only referred to. -/
  cloneLinks : List CloneLink
  deriving DecidableEq, Repr

namespace Repository

/-! ### Identity -/

/-- The form `owner/name`. -/
def fullName (r : Repository) : String := r.owner.text ++ "/" ++ r.name.text

/-- The repository with a full name, if there is an owner before the first slash and a name
behind it. -/
def ofFullName? (s : String) : Option Repository := do
  let (owner, name) ← Text.splitFirst? '/' s
  return ⟨← Identifier.ofText? owner, ← Identifier.ofText? name, []⟩

/-- Whether the text is the repository's full name up to the case of letters. -/
def matchesFullName (r : Repository) (s : String) : Bool := Text.sameLetters r.fullName s

/-- Whether owners and names are the same up to the case of letters. -/
def isSameAs (a b : Repository) : Bool := a.owner.sameName b.owner && a.name.sameName b.name

/-- A full name is an owner without slashes and a name, with a slash between them. -/
theorem ofFullName?_eq_some_iff {s : String} {r : Repository} :
    ofFullName? s = some r ↔
      ∃ owner name, owner ≠ "" ∧ '/' ∉ owner.toList ∧ name ≠ "" ∧ s = owner ++ "/" ++ name ∧
        r = ⟨⟨owner⟩, ⟨name⟩, []⟩ := by
  simp only [ofFullName?, bind, Option.bind_eq_some_iff, Prod.exists, pure, Option.some.injEq,
    Text.splitFirst?_eq_some_iff, Identifier.ofText?_eq_some_iff]
  constructor
  · rintro ⟨_, _, ⟨hslash, hs⟩, owner, ⟨rfl, howner⟩, name, ⟨rfl, hname⟩, rfl⟩
    exact ⟨owner.text, name.text, howner, hslash, hname, hs, rfl⟩
  · rintro ⟨owner, name, howner, hslash, hname, hs, rfl⟩
    exact ⟨owner, name, ⟨hslash, hs⟩, ⟨owner⟩, ⟨rfl, howner⟩, ⟨name⟩, ⟨rfl, hname⟩, rfl⟩

/-- A full name is given back as it was. -/
theorem fullName_of_ofFullName? {s : String} {r : Repository} (h : ofFullName? s = some r) :
    r.fullName = s := by
  obtain ⟨owner, name, -, -, -, rfl, rfl⟩ := ofFullName?_eq_some_iff.mp h
  rfl

/-! ### Cloning -/

/-- The address of the first clone link with the protocol. -/
def cloneUrl? (r : Repository) (protocol : Protocol) : Option String :=
  (r.cloneLinks.find? (·.protocol == protocol)).map (·.href)

/-! ### Stored form -/

def fields : List Json.Field := [⟨"owner", false⟩, ⟨"name", false⟩, ⟨"clone_links", false⟩]

def toJson (r : Repository) : Json :=
  .record [("owner", r.owner.toJson), ("name", r.name.toJson),
    ("clone_links", .array (r.cloneLinks.map CloneLink.toJson))]

def ofJson? (v : Json) : Option Repository := do
  let ms ← v.members? fields .refused
  let owner ← ms.required "owner" Identifier.ofJson?
  let name ← ms.required "name" Identifier.ofJson?
  let links ← ms.required "clone_links" (Json.list? CloneLink.ofJson?)
  return ⟨owner, name, links⟩

end Repository

end HeadScout
