import HeadScout.Webhook.Processor

/-!
# Deliveries

A delivery as it arrives: headers, a body, and what is known of the sender. Its event key says what
it is; whether it comes from Server follows from the kind of the event, or else from a header that
says so. Every delivery is acknowledged, whatever becomes of it.

## Main definitions

* `Delivery` — what arrives
* `Delivery.header?` — a header, by name in letters of any case
* `Delivery.kind`, `Delivery.product` — what it is and who sent it
* `Delivery.receive` — the acknowledgement, and what the delivery leads to

## Main results

* `Delivery.header?_withHeader` — of headers with one name the last one counts
-/

namespace HeadScout

/-- A delivery as it arrives. -/
structure Delivery where
  /-- The headers in the order in which they were added. -/
  headers : List (String × String)
  body : Option String
  /-- The address of the instance that sent it, if known. -/
  serverUrl : Option String
  /-- Where it came from, usually an address. -/
  origin : String
  deriving DecidableEq, Repr

/-- Why the kind of a delivery is not known. -/
inductive DeliveryError where
  /-- It has no event key. -/
  | missingEventKey
  /-- Its event key is not one that is handled. -/
  | unknownEventKey (key : String)
  deriving DecidableEq, Repr

namespace DeliveryError

def message : DeliveryError → String
  | .missingEventKey => "Webhook delivery has no X-Event-Key header"
  | .unknownEventKey key => "Webhook event key " ++ Text.quote key ++ " is not handled"

/-- What is told when the delivery is ignored for this reason. -/
def notice : DeliveryError → Notice
  | .missingEventKey => .eventKeyMissing
  | .unknownEventKey _ => .eventKeyUnknown

end DeliveryError

/-- What the sender is told. -/
inductive Acknowledgement where
  /-- The event was handed to a processor. -/
  | processed (kind : WebhookKind)
  /-- A test ping; nothing is to be done. -/
  | ping
  /-- No event that is handled here. -/
  | ignored
  deriving DecidableEq, Repr

namespace Delivery

/-- The header that holds the event key. -/
def eventKeyHeader : String := "X-Event-Key"

/-- The header that says which product sent the delivery. -/
def productHeader : String := "X-Bitbucket-Type"

/-- A delivery from the given sender, with nothing else known. -/
def ofOrigin (origin : String) : Delivery := ⟨[], none, none, origin⟩

/-- The delivery with one more header. -/
def withHeader (d : Delivery) (name value : String) : Delivery :=
  { d with headers := d.headers ++ [(name, value)] }

/-- The value of a header; the last one counts. -/
def header? (d : Delivery) (name : String) : Option String :=
  (d.headers.reverse.find? fun h => Text.sameLetters h.1 name).map (·.2)

theorem header?_withHeader (d : Delivery) (name value asked : String) :
    (d.withHeader name value).header? asked =
      if Text.sameLetters name asked then some value else d.header? asked := by
  unfold header? withHeader
  by_cases h : Text.sameLetters name asked <;> simp [h]

/-- The kind of the event that the delivery brings. -/
def kind (d : Delivery) : Except DeliveryError WebhookKind :=
  match d.header? eventKeyHeader with
  | none => .error .missingEventKey
  | some key =>
    match WebhookKind.ofEventKey? key with
    | some k => .ok k
    | none => .error (.unknownEventKey key)

/-- Whether a header says that Server sent the delivery. -/
def declaresServer (d : Delivery) : Bool :=
  (d.header? productHeader).any fun v => Text.sameLetters (Text.trim v) "server"

/-- The product that sent an event of this kind. -/
def product (d : Delivery) (k : WebhookKind) : Product :=
  if k.isNativeServer || d.declaresServer then .server else .cloud

/-- The event of this kind as it is handed to a processor. -/
def incoming (d : Delivery) (k : WebhookKind) : Incoming where
  kind := k
  payload := d.body
  product := d.product k
  origin := d.origin
  serverUrl := d.serverUrl

/-- What the sender is told, what is told besides, and the event to hand to a processor. -/
def receipt (d : Delivery) : Acknowledgement × List Notice × Option Incoming :=
  match d.kind with
  | .error e => (.ignored, [e.notice], none)
  | .ok .ping => (.ping, [.pingReceived], none)
  | .ok k => (.processed k, [], some (d.incoming k))

/-- What the sender is told, and what the delivery leads to at a processor. -/
def receive (d : Delivery) (process : Incoming → List Effect) : Acknowledgement × List Effect :=
  let (answer, notices, incoming) := d.receipt
  (answer, notices.map Effect.note ++ incoming.elim [] process)

end Delivery

end HeadScout
