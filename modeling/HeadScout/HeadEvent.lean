import HeadScout.DeliveryId
import HeadScout.Head
import HeadScout.Instance
import HeadScout.Registration
import HeadScout.SortedTable
import HeadScout.Timestamp

/-!
# Head events

What a push leads to: one event for each kind of change in it, with the changes of that kind. Who
is registered asks of an event whether it applies, and a source also which heads it affects; both
answers need nothing but the event.

An event of Cloud concerns whoever is registered under an address of Cloud, an event of Server
whoever is registered under the very address it came from, unless that is one of Cloud.

## Main definitions

* `HeadEvent` — the changes of one kind in one delivery
* `HeadEvent.concernsNavigator`, `HeadEvent.concernsSource` — to whom it applies
* `HeadEvent.heads` — the affected heads of a source
-/

namespace HeadScout

/-- The changes of one kind in one delivery. -/
structure HeadEvent where
  /-- The delivery that led to the event. -/
  deliveryId : DeliveryId
  /-- The address of the instance that sent it. -/
  serverUrl : ServerUrl
  product : Product
  /-- What happened to the refs. -/
  eventType : EventType
  changes : List Change
  /-- Where the delivery came from, in the sender's own words. -/
  origin : String
  /-- The repository that was pushed to. -/
  repository : Repository
  /-- The commit the push ended on, if the provider tells. -/
  headCommit : Option CommitHash
  /-- The mirror that reported the push, if one did. -/
  mirrorId : Option MirrorId
  /-- When the delivery was received. -/
  receivedAt : Timestamp
  deriving DecidableEq, Repr

namespace HeadEvent

/-- The name of the source that looks after the repository. -/
def sourceName (e : HeadEvent) : String := e.repository.name.text

/-! ### To whom it applies -/

/-- Whether the event comes from the instance that is registered under the address. -/
def comesFrom (e : HeadEvent) (url : String) : Bool :=
  match e.product with
  | .cloud => isCloudUrl url
  | .server => !isCloudUrl url && url == e.serverUrl.text

/-- Whether the event comes from the owner on the instance at the address. -/
def concernsOwner (e : HeadEvent) (url owner : String) : Bool :=
  e.comesFrom url && Text.sameLetters e.repository.owner.text owner

/-- Whether the event applies to the navigator. -/
def concernsNavigator (e : HeadEvent) : Registration.Navigator → Bool
  | .bitbucket url owner => e.concernsOwner url owner
  | .other _ => false

/-- Whether the event applies to the source. -/
def concernsSource (e : HeadEvent) : Registration.Source → Bool
  | .bitbucket url owner repository =>
    e.concernsOwner url owner && Text.sameLetters e.repository.name.text repository
  | .other _ => false

/-! ### What it affects -/

/-- The commit that the changed ref stands for now; none if it was removed. -/
def revision? (e : HeadEvent) (c : Change) : Option Revision :=
  match e.eventType with
  | .removed => none
  | .created | .updated => c.toHash.map fun hash => ⟨hash⟩

/-- The heads of the source that the event affects, with the commits they stand for now. -/
def heads (e : HeadEvent) (source : Registration.Source) : SortedTable Head (Option Revision) :=
  if e.concernsSource source then
    .ofList (e.changes.map fun c => (Head.ofRef c.refKind c.refName, e.revision? c))
  else .empty

/-! ### Stored form -/

def fields : List Json.Field :=
  [⟨"delivery_id", false⟩, ⟨"server_url", false⟩, ⟨"instance_type", false⟩,
    ⟨"event_type", false⟩, ⟨"changes", false⟩, ⟨"origin", false⟩, ⟨"repository", false⟩,
    ⟨"head_commit", false⟩, ⟨"mirror_id", false⟩, ⟨"received_at", false⟩]

/-- The members of a stored event. -/
def members (e : HeadEvent) : List (String × Json) :=
  [("delivery_id", e.deliveryId.toJson), ("server_url", e.serverUrl.toJson),
    ("instance_type", e.product.toJson), ("event_type", e.eventType.toJson),
    ("changes", .array (e.changes.map Change.toJson)), ("origin", .text e.origin),
    ("repository", e.repository.toJson), ("head_commit", .orNull Identifier.toJson e.headCommit),
    ("mirror_id", .orNull Identifier.toJson e.mirrorId), ("received_at", e.receivedAt.toJson)]

def toJson (e : HeadEvent) : Json := .record e.members

def ofJson? (v : Json) : Option HeadEvent := do
  let ms ← v.members? fields .refused
  let deliveryId ← ms.required "delivery_id" DeliveryId.ofJson?
  let serverUrl ← ms.required "server_url" Identifier.ofJson?
  let product ← ms.required "instance_type" Product.ofJson?
  let eventType ← ms.required "event_type" EventType.ofJson?
  let changes ← ms.required "changes" (Json.list? Change.ofJson?)
  let origin ← ms.required "origin" Json.text?
  let repository ← ms.required "repository" Repository.ofJson?
  let headCommit ← ms.optional "head_commit" Identifier.ofJson?
  let mirrorId ← ms.optional "mirror_id" Identifier.ofJson?
  let receivedAt ← ms.required "received_at" Timestamp.ofJson?
  return ⟨deliveryId, serverUrl, product, eventType, changes, origin, repository, headCommit,
    mirrorId, receivedAt⟩

end HeadEvent

end HeadScout
