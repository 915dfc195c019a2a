import HeadScout.HeadEvent
import HeadScout.Notice
import HeadScout.Push

/-!
# Effects of a delivery

A delivery asks for nothing in return. What it leads to are head events, each to be fired after a
delay, requests to index a repository anew, and notices.

## Main definitions

* `ReindexRequest` — a repository to index anew
* `Effect` — one thing a delivery leads to
* `Effect.events`, `Effect.reindexes`, `Effect.notices` — the effects of each sort

## Main results

* `Effect.events_note_append`, `Effect.reindexes_note_append` — notices are neither of the others
-/

namespace HeadScout

/-- A repository to index anew. -/
structure ReindexRequest where
  owner : OwnerName
  repository : RepositoryName
  /-- The mirror that reported the change, if one did. -/
  mirrorId : Option MirrorId
  deriving DecidableEq, Repr

namespace ReindexRequest

/-- The request for the repository that was pushed to. -/
def ofPush (p : Push) : ReindexRequest := ⟨p.repository.owner, p.repository.name, p.mirrorId⟩

def toJson (r : ReindexRequest) : Json :=
  .record [("owner", r.owner.toJson), ("repository", r.repository.toJson),
    ("mirror_id", .orNull Identifier.toJson r.mirrorId)]

end ReindexRequest

/-- One thing a delivery leads to. -/
inductive Effect where
  /-- A head event that fires after so many seconds. -/
  | notify (event : HeadEvent) (delay : UInt64)
  /-- A repository is indexed anew. -/
  | reindex (request : ReindexRequest)
  | note (notice : Notice)
  deriving DecidableEq, Repr

namespace Effect

/-- The head events with their delays. -/
def events (es : List Effect) : List (HeadEvent × UInt64) :=
  es.filterMap fun
    | .notify event delay => some (event, delay)
    | _ => none

/-- The requests to index a repository anew. -/
def reindexes (es : List Effect) : List ReindexRequest :=
  es.filterMap fun
    | .reindex request => some request
    | _ => none

/-- What is told. -/
def notices (es : List Effect) : List Notice :=
  es.filterMap fun
    | .note notice => some notice
    | _ => none

@[simp] theorem events_note_append (ns : List Notice) (es : List Effect) :
    events (ns.map Effect.note ++ es) = events es := by
  induction ns with
  | nil => rfl
  | cons n ns ih => exact ih

@[simp] theorem reindexes_note_append (ns : List Notice) (es : List Effect) :
    reindexes (ns.map Effect.note ++ es) = reindexes es := by
  induction ns with
  | nil => rfl
  | cons n ns ih => exact ih

end Effect

end HeadScout
