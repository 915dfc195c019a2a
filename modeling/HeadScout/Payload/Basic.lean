import HeadScout.Failure
import HeadScout.Identifier
import HeadScout.Json.Document

/-!
# Payloads

The bodies of webhooks and of listings. Both products describe repositories, refs and commits in
forms of their own; what is common to all bodies is kept here.

## Main definitions

* `Payload.expect`, `Payload.decode` — a document or body as a value, or the report that it is
  malformed
* `Payload.named` — a name that must not be empty
* `Payload.commit?` — the commit a body names

## Main results

* `Payload.named_of_ne_empty` — a name that is not empty is taken as it stands
* `Payload.commit?_eq_some_iff` — the hashes that name a commit
-/

namespace HeadScout.Payload

/-- The value that a document is read as. -/
def expect {α : Type} (document : String) (read : Json → Option α) (v : Json) :
    Except PayloadError α :=
  match read v with
  | some a => .ok a
  | none => .error (.malformed document)

/-- The value that a body is read as. -/
def decode {α : Type} (document : String) (read : Json → Option α) (body : String) :
    Except PayloadError α :=
  match Json.parse? body with
  | some v => expect document read v
  | none => .error (.malformed document)

/-- A name that must not be empty, found in the given field of a document. -/
def named {kind : IdentifierKind} (document field name : String) :
    Except PayloadError (Identifier kind) :=
  match Identifier.ofText? name with
  | some i => .ok i
  | none => .error (.missingField document field)

theorem named_of_ne_empty {kind : IdentifierKind} {name : String} (document field : String)
    (h : name ≠ "") : (named document field name : Except _ (Identifier kind)) = .ok ⟨name⟩ := by
  have hsome : Identifier.ofText? name = some (⟨name⟩ : Identifier kind) :=
    Identifier.ofText?_eq_some_iff.mpr ⟨rfl, h⟩
  rw [named, hsome]

/-- The hash that stands where a ref was just created. -/
def nullHash : String := String.ofList (List.replicate 40 '0')

/-- The commit that a hash names; the empty hash and the one of forty zeros name none. -/
def commit? (hash : Option String) : Option CommitHash :=
  (hash.filter (· != nullHash)).bind Identifier.ofText?

theorem commit?_eq_some_iff {hash : Option String} {c : CommitHash} :
    commit? hash = some c ↔ hash = some c.text ∧ c.text ≠ nullHash ∧ c.text ≠ "" := by
  simp only [commit?, Option.bind_eq_some_iff, Option.filter_eq_some_iff, bne_iff_ne,
    Identifier.ofText?_eq_some_iff]
  constructor
  · rintro ⟨s, ⟨hs, h⟩, rfl, h'⟩
    exact ⟨hs, h, h'⟩
  · rintro ⟨hs, h, h'⟩
    exact ⟨c.text, ⟨hs, h⟩, rfl, h'⟩

end HeadScout.Payload
