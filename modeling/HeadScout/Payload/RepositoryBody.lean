import HeadScout.Payload.Basic
import HeadScout.Repository

/-!
# Repositories in bodies

Server gives a repository by its slug and the key of its project, Cloud by its full name. Both list
clone links by name; a link is kept when its name is that of a protocol, in letters of any case.

## Main definitions

* `Payload.ServerRepository`, `Payload.CloudRepository` — the two forms
* `ServerRepository.toRepository`, `CloudRepository.toRepository` — the repository they describe

## Main results

* `CloudRepository.toRepository_eq`, `CloudRepository.toRepository_eq_ok_iff` — the full names that
  describe a repository are those that name one
-/

namespace HeadScout.Payload

/-! ### Clone links -/

/-- A clone link in a body. -/
structure NamedLink where
  href : String
  name : String
  deriving DecidableEq, Repr

namespace NamedLink

def fields : List Json.Field := [⟨"href", false⟩, ⟨"name", true⟩]

def ofJson? (v : Json) : Option NamedLink := do
  let ms ← v.members? fields .refused
  let href ← ms.required "href" Json.text?
  let name ← ms.withDefault "name" "" Json.text?
  return ⟨href, name⟩

/-- The protocol that the link's name stands for. -/
def protocol? (l : NamedLink) : Option Protocol :=
  match Text.lower l.name with
  | "http" | "https" => some .http
  | "ssh" => some .ssh
  | _ => none

/-- The link, if its name stands for a protocol. -/
def toCloneLink? (l : NamedLink) : Option CloneLink := l.protocol?.map fun p => ⟨p, l.href⟩

end NamedLink

def linksFields : List Json.Field := [⟨"clone", true⟩]

/-- The clone links among the links of a repository. -/
def linksOfJson? (v : Json) : Option (List NamedLink) := do
  let ms ← v.members? linksFields .refused
  ms.withDefault "clone" [] (Json.list? NamedLink.ofJson?)

/-! ### Server -/

/-- A repository as Server describes it. -/
structure ServerRepository where
  slug : String
  /-- The key of the project that holds it. -/
  projectKey : String
  links : List NamedLink
  deriving DecidableEq, Repr

namespace ServerRepository

def projectFields : List Json.Field := [⟨"key", false⟩]

/-- The key of a project. -/
def projectKeyOfJson? (v : Json) : Option String := do
  let ms ← v.members? projectFields .refused
  ms.required "key" Json.text?

def fields : List Json.Field := [⟨"slug", false⟩, ⟨"project", false⟩, ⟨"links", true⟩]

def ofJson? (v : Json) : Option ServerRepository := do
  let ms ← v.members? fields .refused
  let slug ← ms.required "slug" Json.text?
  let projectKey ← ms.required "project" projectKeyOfJson?
  let links ← ms.withDefault "links" [] linksOfJson?
  return ⟨slug, projectKey, links⟩

/-- The repository that a document describes; the project's key is its owner. -/
def toRepository (document : String) (r : ServerRepository) : Except PayloadError Repository := do
  let owner ← named document "repository.project.key" r.projectKey
  let name ← named document "repository.slug" r.slug
  return ⟨owner, name, r.links.filterMap NamedLink.toCloneLink?⟩

end ServerRepository

/-! ### Cloud -/

/-- A repository as Cloud describes it. -/
structure CloudRepository where
  /-- Workspace and name, with a slash between them. -/
  fullName : String
  links : List NamedLink
  deriving DecidableEq, Repr

namespace CloudRepository

def fields : List Json.Field := [⟨"full_name", false⟩, ⟨"links", true⟩]

def ofJson? (v : Json) : Option CloudRepository := do
  let ms ← v.members? fields .refused
  let fullName ← ms.required "full_name" Json.text?
  let links ← ms.withDefault "links" [] linksOfJson?
  return ⟨fullName, links⟩

/-- The repository that a document describes; the workspace before the first slash is its owner. -/
def toRepository (document : String) (r : CloudRepository) : Except PayloadError Repository :=
  match Text.splitFirst? '/' r.fullName with
  | none => .error (.missingField document "repository.full_name")
  | some (workspace, slug) => do
    let owner ← named document "repository.full_name" workspace
    let name ← named document "repository.full_name" slug
    return ⟨owner, name, r.links.filterMap NamedLink.toCloneLink?⟩

/-- A body is cut as a full name that stands alone. -/
theorem toRepository_eq (document : String) (r : CloudRepository) :
    r.toRepository document =
      match Repository.ofFullName? r.fullName with
      | some found => .ok ⟨found.owner, found.name, r.links.filterMap NamedLink.toCloneLink?⟩
      | none => .error (.missingField document "repository.full_name") := by
  unfold toRepository Repository.ofFullName?
  cases Text.splitFirst? '/' r.fullName with
  | none => rfl
  | some parts =>
    obtain ⟨workspace, slug⟩ := parts
    by_cases hworkspace : workspace = ""
    · simp [named, Identifier.ofText?, hworkspace, bind, Except.bind]
    · by_cases hslug : slug = "" <;>
        simp [named, Identifier.ofText?, hworkspace, hslug, bind, Except.bind, pure, Except.pure]

theorem toRepository_eq_ok_iff {document : String} {r : CloudRepository} {found : Repository} :
    r.toRepository document = .ok found ↔
      ∃ known, Repository.ofFullName? r.fullName = some known ∧ found.owner = known.owner ∧
        found.name = known.name ∧
        found.cloneLinks = r.links.filterMap NamedLink.toCloneLink? := by
  obtain ⟨owner, name, links⟩ := found
  rw [toRepository_eq]
  split <;> rename_i h
  · simp [h]; grind
  · simp [h]

end CloudRepository

end HeadScout.Payload
