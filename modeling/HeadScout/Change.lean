import HeadScout.Identifier

/-!
# Changes of refs

A push creates, moves or removes branches and tags. The provider's own tag for what happened is
kept as it came, and three of the tags have a meaning here.

## Main definitions

* `RefKind` — branch or tag
* `EventType` — created, updated or removed
* `ChangeTag` — the provider's tag
* `Change` — one ref that moved

## Main results

* `ChangeTag.text_ofText`, `ChangeTag.ofText_text` — tags are told by their text
-/

namespace HeadScout

/-- The kind of a ref. -/
inductive RefKind where
  | branch
  | tag
  deriving DecidableEq, Repr

namespace RefKind

/-- The kind's name in stored documents. -/
def name : RefKind → String
  | .branch => "branch"
  | .tag => "tag"

/-- The kind with this name. -/
def ofName? : String → Option RefKind
  | "branch" => some .branch
  | "tag" => some .tag
  | _ => none

/-- A kind is stored as its name. -/
def toJson (k : RefKind) : Json := .text k.name

def ofJson? (v : Json) : Option RefKind := v.variant?.bind ofName?

@[simp] theorem ofJson?_toJson (k : RefKind) : ofJson? k.toJson = some k := by
  cases k <;> decide

/-- Branches come before tags. -/
def rank : RefKind → Nat
  | .branch => 0
  | .tag => 1

end RefKind

/-- What happened to the refs of an event, whatever the provider calls it. -/
inductive EventType where
  /-- They were created. -/
  | created
  | updated
  /-- They were removed. -/
  | removed
  deriving DecidableEq, Repr

namespace EventType

/-- The name in stored documents. -/
def name : EventType → String
  | .created => "CREATED"
  | .updated => "UPDATED"
  | .removed => "REMOVED"

/-- An event type is stored as its name. -/
def toJson (t : EventType) : Json := .text t.name

/-- The event type of a stored name. -/
def ofJson? (v : Json) : Option EventType :=
  v.variant?.bind fun
    | "CREATED" => some .created
    | "UPDATED" => some .updated
    | "REMOVED" => some .removed
    | _ => none

@[simp] theorem ofJson?_toJson (t : EventType) : ofJson? t.toJson = some t := by
  cases t <;> decide

end EventType

/-- The tag that the provider gives to a change. -/
inductive ChangeTag where
  /-- The ref was created. -/
  | add
  | update
  /-- The ref was removed. -/
  | delete
  /-- A tag without a meaning here, kept as it came. -/
  | unknown (tag : String)
  deriving DecidableEq, Repr

namespace ChangeTag

/-- The tag as the provider writes it. -/
def text : ChangeTag → String
  | .add => "ADD"
  | .update => "UPDATE"
  | .delete => "DELETE"
  | .unknown tag => tag

/-- The tag with this text. -/
def ofText (s : String) : ChangeTag :=
  if s = "ADD" then .add
  else if s = "UPDATE" then .update
  else if s = "DELETE" then .delete
  else .unknown s

@[simp] theorem text_ofText (s : String) : (ofText s).text = s := by
  unfold ofText
  split
  · simp_all [text]
  · split
    · simp_all [text]
    · split <;> simp_all [text]

/-- What the tag means, if it has a meaning here. -/
def eventType? : ChangeTag → Option EventType
  | .add => some .created
  | .update => some .updated
  | .delete => some .removed
  | .unknown _ => none

/-- A tag is not kept as unknown when it has a meaning. -/
def IsCanonical (t : ChangeTag) : Prop :=
  ∀ s, t = .unknown s → s ≠ "ADD" ∧ s ≠ "UPDATE" ∧ s ≠ "DELETE"

theorem ofText_text {t : ChangeTag} (h : t.IsCanonical) : ofText t.text = t := by
  cases t with
  | unknown s =>
    obtain ⟨h₁, h₂, h₃⟩ := h s rfl
    simp [ofText, text, h₁, h₂, h₃]
  | _ => decide

theorem isCanonical_ofText (s : String) : (ofText s).IsCanonical := by
  intro t ht
  unfold ofText at ht
  split at ht
  · cases ht
  · split at ht
    · cases ht
    · split at ht
      · cases ht
      · cases ht; exact ⟨‹_›, ‹_›, ‹_›⟩

/-- A tag is stored as its text. -/
def toJson (t : ChangeTag) : Json := .text t.text

/-- Any stored text is a tag. -/
def ofJson? (v : Json) : Option ChangeTag := v.text?.map ofText

end ChangeTag

/-- One ref that a push created, moved or removed. -/
structure Change where
  refKind : RefKind
  /-- The short name of the ref. -/
  refName : RefName
  /-- The provider's tag for the change. -/
  tag : ChangeTag
  /-- The commit before the change, if there was one. -/
  fromHash : Option CommitHash
  /-- The commit after the change, if there is one. -/
  toHash : Option CommitHash
  deriving DecidableEq, Repr

namespace Change

/-- What happened to the ref, if the provider's tag has a meaning here. -/
def eventType? (c : Change) : Option EventType := c.tag.eventType?

def fields : List Json.Field :=
  [⟨"ref_type", false⟩, ⟨"ref_name", false⟩, ⟨"change_type", false⟩, ⟨"from_hash", false⟩,
    ⟨"to_hash", false⟩]

def toJson (c : Change) : Json :=
  .record [("ref_type", c.refKind.toJson), ("ref_name", c.refName.toJson),
    ("change_type", c.tag.toJson), ("from_hash", .orNull Identifier.toJson c.fromHash),
    ("to_hash", .orNull Identifier.toJson c.toHash)]

def ofJson? (v : Json) : Option Change := do
  let ms ← v.members? fields .refused
  let refKind ← ms.required "ref_type" RefKind.ofJson?
  let refName ← ms.required "ref_name" Identifier.ofJson?
  let tag ← ms.required "change_type" ChangeTag.ofJson?
  let fromHash ← ms.optional "from_hash" Identifier.ofJson?
  let toHash ← ms.optional "to_hash" Identifier.ofJson?
  return ⟨refKind, refName, tag, fromHash, toHash⟩

end Change

end HeadScout
