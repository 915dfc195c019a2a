import HeadScout.Command.Run
import HeadScout.Proofs.Json.OneLine
import HeadScout.Proofs.StoredForm

/-!
# Lines are read back

A line is a document that says what it is, and holds what it is about. Whatever strings stand in it,
it is one line, and what it is about is read back from its text. Not all that is printed is read
again elsewhere, so the forms of heads that were found, of checkouts and of requests are read here.

## Main definitions

* `DiscoveredHead.ofJson?`, `CheckoutSpec.ofJson?`, `ReindexRequest.ofJson?` — what a document is
  written for
* `OutputLine.IsReadBack` — a line from which what it is about is read back

## Main results

* `OutputLine.onOneLine_render` — a line stands on one line
* `OutputLine.isReadBack` — every line is read back, if its event is proper
-/

namespace HeadScout

open Json (OnOneLine hasWrittenNumbers_record hasWrittenNumbers_orNull members?_record optional_eq
  nullable? nullable?_orNull)

/-! ### What is printed only -/

namespace ReindexRequest

/-- The fields of a printed request. -/
def fields : List Json.Field := [⟨"owner", false⟩, ⟨"repository", false⟩, ⟨"mirror_id", true⟩]

/-- The request that a document is written for. -/
def ofJson? (v : Json) : Option ReindexRequest := do
  let ms ← v.members? fields .refused
  let owner ← ms.required "owner" Identifier.ofJson?
  let repository ← ms.required "repository" Identifier.ofJson?
  let mirror ← ms.optional "mirror_id" Identifier.ofJson?
  return ⟨owner, repository, mirror⟩

theorem ofJson?_toJson (r : ReindexRequest) : ofJson? r.toJson = some r := by
  rw [ofJson?, toJson, members?_record rfl (by decide)]
  simp [Json.Members.required, optional_eq, Json.Members.get?]

theorem hasWrittenNumbers_toJson (r : ReindexRequest) : r.toJson.HasWrittenNumbers := by
  refine hasWrittenNumbers_record ?_
  simp [hasWrittenNumbers_orNull]

end ReindexRequest

namespace DiscoveredHead

/-- The fields of a printed head. -/
def fields : List Json.Field := [⟨"head", false⟩, ⟨"revision", true⟩, ⟨"trusted", false⟩]

/-- The head that a document is written for. -/
def ofJson? (v : Json) : Option DiscoveredHead := do
  let ms ← v.members? fields .refused
  let head ← ms.required "head" Head.ofJson?
  let revision ← ms.optional "revision" Revision.ofJson?
  let trusted ← ms.required "trusted" Json.bool?
  return ⟨head, revision, trusted⟩

theorem ofJson?_toJson (d : DiscoveredHead) : ofJson? d.toJson = some d := by
  -- A commit is never written as `null`.
  have hwritten (r : Revision) : nullable? Revision.ofJson? r.toJson = some (some r) := by
    change (Revision.ofJson? r.toJson).map some = _
    rw [r.ofJson?_toJson, Option.map_some]
  have hrevision := nullable?_orNull hwritten d.revision
  have htrusted : (Json.bool d.trusted).bool? = some d.trusted := rfl
  rw [ofJson?, toJson, members?_record rfl (by decide)]
  simp [Json.Members.required, optional_eq, Json.Members.get?, d.head.ofJson?_toJson, hrevision,
    htrusted]

theorem hasWrittenNumbers_toJson (d : DiscoveredHead) : d.toJson.HasWrittenNumbers := by
  refine hasWrittenNumbers_record ?_
  simp [hasWrittenNumbers_orNull]

end DiscoveredHead

namespace CheckoutSpec

/-- The fields of a printed checkout. -/
def fields : List Json.Field := [⟨"remote", false⟩, ⟨"protocol", false⟩, ⟨"credentials_id", true⟩]

/-- The checkout that a document is written for. -/
def ofJson? (v : Json) : Option CheckoutSpec := do
  let ms ← v.members? fields .refused
  let remote ← ms.required "remote" Json.text?
  let protocol ← ms.required "protocol" Protocol.ofJson?
  let credentialsId ← ms.optional "credentials_id" Identifier.ofJson?
  return ⟨remote, protocol, credentialsId⟩

theorem ofJson?_toJson (s : CheckoutSpec) : ofJson? s.toJson = some s := by
  rw [ofJson?, toJson, members?_record rfl (by decide)]
  simp [Json.Members.required, optional_eq, Json.Members.get?]

theorem hasWrittenNumbers_toJson (s : CheckoutSpec) : s.toJson.HasWrittenNumbers := by
  refine hasWrittenNumbers_record ?_
  simp [hasWrittenNumbers_orNull, Protocol.toJson]

end CheckoutSpec

/-! ### Lines -/

namespace OutputLine

/-- The text of the line holds a document of the word for the line and of a value. -/
def Encloses (l : OutputLine) (kind : String) (v : Json) : Prop :=
  Json.parse? l.render = some (.record [("kind", .text kind), ("value", v)])

/-- From the text of a line, what it is about is read back. -/
def IsReadBack (l : OutputLine) : Prop :=
  match l with
  | .event e => ∃ v, l.Encloses "event" v ∧ HeadEvent.ofJson? v = some e
  | .reindex r => ∃ v, l.Encloses "reindex" v ∧ ReindexRequest.ofJson? v = some r
  | .repository r => ∃ v, l.Encloses "repository" v ∧ Repository.ofJson? v = some r
  | .head d => ∃ v, l.Encloses "head" v ∧ DiscoveredHead.ofJson? v = some d
  | .checkout s => ∃ v, l.Encloses "checkout" v ∧ CheckoutSpec.ofJson? v = some s

theorem hasWrittenNumbers_value (l : OutputLine) : l.value.HasWrittenNumbers := by
  cases l with
  | event e => exact e.hasWrittenNumbers_toJson
  | reindex r => exact r.hasWrittenNumbers_toJson
  | repository r => exact r.hasWrittenNumbers_toJson
  | head d => exact d.hasWrittenNumbers_toJson
  | checkout s => exact s.hasWrittenNumbers_toJson

theorem hasWrittenNumbers_toJson (l : OutputLine) : l.toJson.HasWrittenNumbers := by
  refine hasWrittenNumbers_record ?_
  simp [l.hasWrittenNumbers_value]

theorem encloses_value (l : OutputLine) : l.Encloses l.kind l.value :=
  Json.parse?_render l.hasWrittenNumbers_toJson

/-- Whatever strings stand in a line, it is one line. -/
theorem onOneLine_render (l : OutputLine) : OnOneLine l.render.toList :=
  Json.onOneLine_render l.hasWrittenNumbers_toJson

example : render (.head ⟨.tag ⟨"v\n1"⟩, none, false⟩) =
    "\x7b\"kind\":\"head\",\"value\":\x7b\"head\":\x7b\"kind\":\"tag\",\"name\":\"v\\n1\"\x7d," ++
      "\"revision\":null,\"trusted\":false\x7d\x7d" := by
  decide +kernel

/-- Not every event can be read back, since some are written like others. -/
theorem isReadBack {l : OutputLine} (h : ∀ e, l = event e → e.IsProper) : l.IsReadBack := by
  have hencloses := l.encloses_value
  cases l with
  | event e => exact ⟨_, hencloses, HeadEvent.ofJson?_toJson (h e rfl)⟩
  | reindex r => exact ⟨_, hencloses, r.ofJson?_toJson⟩
  | repository r => exact ⟨_, hencloses, r.ofJson?_toJson⟩
  | head d => exact ⟨_, hencloses, d.ofJson?_toJson⟩
  | checkout s => exact ⟨_, hencloses, s.ofJson?_toJson⟩

end OutputLine

end HeadScout
