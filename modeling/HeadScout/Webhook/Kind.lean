import HeadScout.Json.Record
import HeadScout.Text.Blank

/-!
# Kinds of webhook events

The events that are handled, each known by the key that the provider sends along with it.

## Main definitions

* `WebhookKind` — the kinds
* `WebhookKind.eventKey`, `WebhookKind.ofEventKey?` — their keys
* `WebhookKind.isNativeServer` — whether only Server sends them

## Main results

* `WebhookKind.ofEventKey?_eventKey` — a kind is found under its key
-/

namespace HeadScout

/-- The events that are handled. -/
inductive WebhookKind where
  | push
  | refsChanged
  /-- A mirror has caught up with a repository on Server. -/
  | mirrorSynchronized
  /-- A test of the webhook from Server. -/
  | ping
  deriving DecidableEq, Repr

namespace WebhookKind

/-- Every kind. -/
def all : List WebhookKind := [.push, .refsChanged, .mirrorSynchronized, .ping]

/-- The key that the provider sends. -/
def eventKey : WebhookKind → String
  | .push => "repo:push"
  | .refsChanged => "repo:refs_changed"
  | .mirrorSynchronized => "mirror:repo_synchronized"
  | .ping => "diagnostics:ping"

/-- The kind with this key; blanks around it do not count. -/
def ofEventKey? (key : String) : Option WebhookKind :=
  all.find? (·.eventKey == Text.trim key)

@[simp] theorem ofEventKey?_eventKey (k : WebhookKind) : ofEventKey? k.eventKey = some k := by
  cases k <;> decide

/-- Whether only Server sends events of this kind. -/
def isNativeServer (k : WebhookKind) : Bool := k != .push

/-- The name in stored documents. -/
def name : WebhookKind → String
  | .push => "Push"
  | .refsChanged => "ServerRefsChanged"
  | .mirrorSynchronized => "ServerMirrorRepoSynchronized"
  | .ping => "ServerPing"

/-- A kind is stored as its name. -/
def toJson (k : WebhookKind) : Json := .text k.name

def ofJson? (v : Json) : Option WebhookKind :=
  v.variant?.bind fun n => all.find? (·.name == n)

@[simp] theorem ofJson?_toJson (k : WebhookKind) : ofJson? k.toJson = some k := by
  cases k <;> decide

end WebhookKind

end HeadScout
