import HeadScout.Payload.RepositoryBody
import HeadScout.Push
import HeadScout.Webhook.Kind

/-!
# Push bodies of Cloud

Cloud gives each change as the state of a ref before and after it, and marks the changes that
created or removed the ref. Here the marks become the tags that Server uses.

## Main definitions

* `Payload.CloudState`, `Payload.CloudChange` — a ref at one time, and what became of it
* `Payload.CloudPush` — the body
* `CloudPush.toEvent` — what it says
-/

namespace HeadScout.Payload

/-- A ref at one time. -/
structure CloudState where
  kind : String
  name : String
  /-- The hash of the commit it points at. -/
  hash : Option String
  deriving DecidableEq, Repr

namespace CloudState

def targetFields : List Json.Field := [⟨"hash", false⟩]

/-- The hash of a commit. -/
def hashOfJson? (v : Json) : Option (Option String) := do
  let ms ← v.members? targetFields .refused
  ms.optional "hash" Json.text?

def fields : List Json.Field := [⟨"type", true⟩, ⟨"name", false⟩, ⟨"target", false⟩]

def ofJson? (v : Json) : Option CloudState := do
  let ms ← v.members? fields .refused
  let kind ← ms.withDefault "type" "" Json.text?
  let name ← ms.required "name" Json.text?
  let target ← ms.optional "target" hashOfJson?
  return ⟨kind, name, target.join⟩

/-- Tags with and without a message are tags. -/
def refKind (s : CloudState) : RefKind :=
  if s.kind = "tag" ∨ s.kind = "annotated_tag" then .tag else .branch

end CloudState

/-- What became of a ref. -/
structure CloudChange where
  /-- The ref after the change. -/
  new : Option CloudState
  /-- The ref before the change. -/
  old : Option CloudState
  /-- Whether the change is marked as creating the ref. -/
  created : Bool
  /-- Whether the change is marked as removing the ref. -/
  closed : Bool
  deriving DecidableEq, Repr

/-- The name of the document in reports. -/
def cloudDocument : String := WebhookKind.push.eventKey

namespace CloudChange

def fields : List Json.Field :=
  [⟨"new", false⟩, ⟨"old", false⟩, ⟨"created", true⟩, ⟨"closed", true⟩]

def ofJson? (v : Json) : Option CloudChange := do
  let ms ← v.members? fields .refused
  let new ← ms.optional "new" CloudState.ofJson?
  let old ← ms.optional "old" CloudState.ofJson?
  let created ← ms.withDefault "created" false Json.bool?
  let closed ← ms.withDefault "closed" false Json.bool?
  return ⟨new, old, created, closed⟩

/-- The tag of the change: a mark as created comes first, and a ref that is not there after the
change was removed. -/
def tag (c : CloudChange) : ChangeTag :=
  if c.created then .add
  else if c.closed || c.new.isNone then .delete
  else .update

/-- The change itself, named after the state behind it, or else the one before it. -/
def toChange (c : CloudChange) : Except PayloadError Change :=
  match c.new.or c.old with
  | none => .error (.missingField cloudDocument "push.changes.new")
  | some state => do
    let name ← named cloudDocument "push.changes.name" state.name
    return ⟨state.refKind, name, c.tag, c.old.bind fun s => commit? s.hash,
      c.new.bind fun s => commit? s.hash⟩

end CloudChange

/-- The body of a push. -/
structure CloudPush where
  repository : CloudRepository
  changes : List CloudChange
  deriving DecidableEq, Repr

namespace CloudPush

def pushFields : List Json.Field := [⟨"changes", true⟩]

/-- The changes of a push within the body. -/
def changesOfJson? (v : Json) : Option (List CloudChange) := do
  let ms ← v.members? pushFields .refused
  ms.withDefault "changes" [] (Json.list? CloudChange.ofJson?)

def fields : List Json.Field := [⟨"repository", false⟩, ⟨"push", false⟩]

def ofJson? (v : Json) : Option CloudPush := do
  let ms ← v.members? fields .refused
  let repository ← ms.required "repository" CloudRepository.ofJson?
  let changes ← ms.optional "push" changesOfJson?
  return ⟨repository, changes.getD []⟩

/-- What the body says; changes are looked at before the repository. -/
def toEvent (b : CloudPush) : Except PayloadError Push.RefsChanged := do
  -- One change that cannot be read spoils the whole body.
  let changes ← b.changes.mapM CloudChange.toChange
  let repository ← b.repository.toRepository cloudDocument
  return ⟨repository, changes, none⟩

end CloudPush

end HeadScout.Payload
