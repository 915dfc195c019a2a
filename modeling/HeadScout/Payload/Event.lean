import HeadScout.Payload.CloudPush
import HeadScout.Payload.ServerPush

/-!
# Reading webhook bodies

The kind of an event decides how its body is read. A body that is no JSON, or not of the expected
form, is malformed; one that lacks a name it must have is reported with the missing field. Events of
a kind that carries no push cannot be read at all.

## Main definitions

* `WebhookError` — why an event is not processed
* `Push.ofDocument` — the push that a document of an event says
* `Push.read` — the push that a body of an event says

## Main results

* `Push.read_of_parse?` — a body that holds a document says what the document says
-/

namespace HeadScout

/-- Why an event is not processed. -/
inductive WebhookError where
  /-- The part of the program that was asked has no use for this kind of event. -/
  | unsupported (kind : WebhookKind) (processor : String)
  /-- The body could not be turned into values. -/
  | payload (cause : PayloadError)
  deriving DecidableEq, Repr

def WebhookError.message : WebhookError → String
  | .unsupported kind processor =>
    "Hook event of type " ++ kind.eventKey ++ " is not supported by the " ++ processor ++
      " processor; please file an issue against the Bitbucket source integration"
  | .payload cause => cause.message

/-- What is told when the event is dropped for this reason. -/
def WebhookError.notice : WebhookError → Notice
  | .unsupported .. => .eventUnsupported
  | .payload _ => .payloadUnreadable

namespace Push

open Payload

/-- Who reports that a kind of event has no body to read. -/
def readerName : String := "payload parser"

/-- The push that the document of an event says. -/
def ofDocument (kind : WebhookKind) (v : Json) : ExceptT WebhookError (Traced Notice) Push :=
  match kind with
  | .push => ExceptT.adapt .payload do
    let body ← expect cloudDocument CloudPush.ofJson? v
    let event ← body.toEvent
    return .refsChanged event
  | .refsChanged => ExceptT.adapt .payload do
    let body ← expect ServerPush.document ServerPush.ofJson? v
    let event ← body.toEvent
    return .refsChanged event
  | .mirrorSynchronized => ExceptT.adapt .payload do
    let body ← expect MirrorSync.document MirrorSync.ofJson? v
    let event ← body.toEvent
    return .mirrorSynchronized event
  | .ping => throw (.unsupported kind readerName)

/-- The push that the body of an event says. -/
def read (kind : WebhookKind) (body : String) : ExceptT WebhookError (Traced Notice) Push :=
  match kind, Json.parse? body with
  | .ping, _ => throw (.unsupported kind readerName)
  | _, some v => ofDocument kind v
  | _, none => throw (.payload (.malformed kind.eventKey))

theorem read_of_parse? {kind : WebhookKind} {body : String} {v : Json} (hkind : kind ≠ .ping)
    (hparse : Json.parse? body = some v) : read kind body = ofDocument kind v := by
  unfold read
  rw [hparse]
  cases kind with
  | ping => exact absurd rfl hkind
  | _ => rfl

end Push

end HeadScout
