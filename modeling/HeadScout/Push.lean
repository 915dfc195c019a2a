import HeadScout.Change
import HeadScout.Repository

/-!
# Pushes

What a push event says once it is read, whichever product sent it in whatever form.

## Main definitions

* `Push.RefsChanged` — refs of a repository moved
* `Push.MirrorSynchronized` — a mirror has caught up with a repository
* `Push` — either of them
-/

namespace HeadScout

/-- Refs of a repository moved. -/
structure Push.RefsChanged where
  repository : Repository
  changes : List Change
  /-- The commit the push ended on, if the provider tells. -/
  toCommit : Option CommitHash
  deriving DecidableEq, Repr

/-- A mirror has caught up with a repository. -/
structure Push.MirrorSynchronized where
  repository : Repository
  changes : List Change
  mirrorId : MirrorId
  /-- Whether there were too many changes to list them; this is not the same as none. -/
  refLimitExceeded : Bool
  deriving DecidableEq, Repr

/-- A push event. -/
inductive Push where
  /-- Refs of a repository moved. -/
  | refsChanged (event : Push.RefsChanged)
  /-- A mirror has caught up with a repository. -/
  | mirrorSynchronized (event : Push.MirrorSynchronized)
  deriving DecidableEq, Repr

namespace Push

/-- The repository that was pushed to. -/
def repository : Push → Repository
  | .refsChanged e => e.repository
  | .mirrorSynchronized e => e.repository

/-- The refs that moved. -/
def changes : Push → List Change
  | .refsChanged e => e.changes
  | .mirrorSynchronized e => e.changes

/-- The commit the push ended on, if the provider tells. -/
def headCommit : Push → Option CommitHash
  | .refsChanged e => e.toCommit
  | .mirrorSynchronized _ => none

/-- The mirror that reported the push, if one did. -/
def mirrorId : Push → Option MirrorId
  | .refsChanged _ => none
  | .mirrorSynchronized e => some e.mirrorId

/-- Whether there were too many changes to list them. -/
def refLimitExceeded : Push → Bool
  | .refsChanged _ => false
  | .mirrorSynchronized e => e.refLimitExceeded

end Push

end HeadScout
