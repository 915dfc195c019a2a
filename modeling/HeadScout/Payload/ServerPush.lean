import HeadScout.Json.Storable
import HeadScout.Notice
import HeadScout.Payload.RepositoryBody
import HeadScout.Push
import HeadScout.Traced
import HeadScout.Webhook.Kind

/-!
# Push bodies of Server

Server lists each change with its ref and a tag. The entries of the list are kept as generic values
first and then read one by one, so that one entry that cannot be read does not spoil the others.

## Main definitions

* `Payload.ServerChange` — an entry of the list of changes
* `Payload.serverChanges` — the changes that can be read
* `Payload.ServerPush`, `Payload.MirrorSync` — the bodies
* `ServerPush.toEvent`, `MirrorSync.toEvent` — what they say

## Main results

* `value_serverChanges` — the changes that are read are those of the entries, one by one
* `entries?_array` — a list is kept exactly if each of its entries can be kept
-/

namespace HeadScout.Payload

/-- What reading a body comes to, and what is told on the way. -/
abbrev Reading := ExceptT PayloadError (Traced Notice)

/-! ### Changes -/

/-- A ref as Server describes it. -/
structure ServerRef where
  /-- The full name, `refs/...`. -/
  id : String
  displayId : String
  kind : String
  deriving DecidableEq, Repr

namespace ServerRef

def fields : List Json.Field := [⟨"id", true⟩, ⟨"displayId", true⟩, ⟨"type", true⟩]

def ofJson? (v : Json) : Option ServerRef := do
  let ms ← v.members? fields .lastStays
  let id ← ms.withDefault "id" "" Json.text?
  let displayId ← ms.withDefault "displayId" "" Json.text?
  let kind ← ms.withDefault "type" "" Json.text?
  return ⟨id, displayId, kind⟩

/-- The beginning of the full name of a branch. -/
def branchBeginning : String := "refs/heads/"

/-- The beginning of the full name of a tag. -/
def tagBeginning : String := "refs/tags/"

/-- A ref is a tag if its kind or its full name says so. -/
def refKind (r : ServerRef) : RefKind :=
  if Text.sameLetters r.kind "TAG" || Text.hasPrefix tagBeginning r.id then .tag else .branch

/-- The short name, or else the full name without its beginning. -/
def name (r : ServerRef) : String :=
  if r.displayId != "" then r.displayId
  else ((Text.stripPrefix? branchBeginning r.id).or
    (Text.stripPrefix? tagBeginning r.id)).getD r.id

end ServerRef

/-- An entry of the list of changes. -/
structure ServerChange where
  ref : ServerRef
  /-- The hash before the change. -/
  fromHash : Option String
  /-- The hash after the change. -/
  toHash : Option String
  /-- What happened to the ref. -/
  tag : ChangeTag
  deriving DecidableEq, Repr

namespace ServerChange

def fields : List Json.Field :=
  [⟨"ref", false⟩, ⟨"fromHash", false⟩, ⟨"toHash", false⟩, ⟨"type", false⟩]

def ofJson? (v : Json) : Option ServerChange := do
  let ms ← v.members? fields .lastStays
  let ref ← ms.required "ref" ServerRef.ofJson?
  let fromHash ← ms.optional "fromHash" Json.text?
  let toHash ← ms.optional "toHash" Json.text?
  let tag ← ms.required "type" ChangeTag.ofJson?
  return ⟨ref, fromHash, toHash, tag⟩

/-- The change that the entry describes, unless its ref has no name. -/
def toChange? (c : ServerChange) : Option Change :=
  (Identifier.ofText? c.ref.name).map fun name =>
    ⟨c.ref.refKind, name, c.tag, commit? c.fromHash, commit? c.toHash⟩

end ServerChange

/-- The change that an entry of the list describes, if it can be read. -/
def serverChange? (v : Json) : Option Change := (ServerChange.ofJson? v).bind (·.toChange?)

/-- The changes of the entries that can be read. -/
def serverChanges (entries : List Json) : Traced Notice (List Change) :=
  ⟨entries.filterMap serverChange?,
    (entries.filter fun v => (serverChange? v).isNone).map fun _ => .changeSkipped⟩

@[simp] theorem value_serverChanges (entries : List Json) :
    (serverChanges entries).value = entries.filterMap serverChange? := rfl

/-- The list of changes in a body, its entries kept as they stand; two brackets are around them. -/
def entries? : Json → Option (List Json) :=
  Json.list? fun v => if v.isStorable 2 then some v else none

/-- The list is read whole or not at all. -/
theorem entries?_array (items : List Json) :
    entries? (.array items) = if Json.areStorable 2 items then some items else none := by
  change (items.mapM fun v => if v.isStorable 2 then some v else none) = _
  induction items with
  | nil => rfl
  | cons v vs ih =>
    rw [List.mapM_cons, ih, Json.areStorable]
    cases Json.isStorable 2 v with
    | false => rfl
    | true => cases Json.areStorable 2 vs <;> rfl

/-! ### Bodies -/

/-- The body of a push. -/
structure ServerPush where
  repository : ServerRepository
  /-- The entries of the list of changes. -/
  changes : Option (List Json)
  /-- The hash of the commit the push ended on. -/
  toCommit : Option String
  deriving Repr

namespace ServerPush

def commitFields : List Json.Field := [⟨"id", false⟩]

/-- The hash of a commit. -/
def commitOfJson? (v : Json) : Option String := do
  let ms ← v.members? commitFields .refused
  ms.required "id" Json.text?

def fields : List Json.Field := [⟨"repository", false⟩, ⟨"changes", false⟩, ⟨"toCommit", false⟩]

def ofJson? (v : Json) : Option ServerPush := do
  let ms ← v.members? fields .refused
  let repository ← ms.required "repository" ServerRepository.ofJson?
  let changes ← ms.optional "changes" entries?
  let toCommit ← ms.optional "toCommit" commitOfJson?
  return ⟨repository, changes, toCommit⟩

/-- The name of the document in reports. -/
def document : String := WebhookKind.refsChanged.eventKey

/-- What the body says. -/
def toEvent (b : ServerPush) : Reading Push.RefsChanged := do
  let repository ← b.repository.toRepository document
  let changes ← serverChanges (b.changes.getD [])
  return ⟨repository, changes, commit? b.toCommit⟩

end ServerPush

/-- The body of a mirror's report. -/
structure MirrorSync where
  repository : ServerRepository
  mirrorId : String
  /-- The entries of the list of changes. -/
  changes : Option (List Json)
  /-- Whether there were too many changes to list them. -/
  refLimitExceeded : Bool
  deriving Repr

namespace MirrorSync

def mirrorFields : List Json.Field := [⟨"id", false⟩]

/-- The identifier of a mirror. -/
def mirrorIdOfJson? (v : Json) : Option String := do
  let ms ← v.members? mirrorFields .refused
  ms.required "id" Json.text?

def fields : List Json.Field :=
  [⟨"repository", false⟩, ⟨"mirrorServer", false⟩, ⟨"changes", false⟩,
    ⟨"refLimitExceeded", true⟩]

def ofJson? (v : Json) : Option MirrorSync := do
  let ms ← v.members? fields .refused
  let repository ← ms.required "repository" ServerRepository.ofJson?
  let mirrorId ← ms.required "mirrorServer" mirrorIdOfJson?
  let changes ← ms.optional "changes" entries?
  let refLimitExceeded ← ms.withDefault "refLimitExceeded" false Json.bool?
  return ⟨repository, mirrorId, changes, refLimitExceeded⟩

/-- The name of the document in reports. -/
def document : String := WebhookKind.mirrorSynchronized.eventKey

/-- What the body says; a list of changes that is not complete is not read at all. -/
def toEvent (b : MirrorSync) : Reading Push.MirrorSynchronized := do
  let repository ← b.repository.toRepository document
  let changes ← if b.refLimitExceeded then pure [] else serverChanges (b.changes.getD [])
  -- The mirror is looked at last: entries that are skipped are told even if it has no name.
  let mirrorId ← named document "mirrorServer.id" b.mirrorId
  return ⟨repository, changes, mirrorId, b.refLimitExceeded⟩

end MirrorSync

end HeadScout.Payload
