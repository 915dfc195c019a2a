import HeadScout.Payload.Event
import HeadScout.Webhook.ChangeGroups
import HeadScout.Webhook.Config
import HeadScout.Webhook.Effect

/-!
# Processing webhook events

An event is read and becomes one head event for each kind of change in it. Where the provider has
not listed the changes, because there were too many or for another reason, the repository is indexed
anew instead. An event that cannot be processed leads to nothing but a notice: the provider would
only send it again.

One processor handles the native events of Server, one the pushes of Cloud, and the dispatcher hands
each event to the one that can read it.

## Main definitions

* `Incoming` — an event as it is handed to a processor
* `Stamp` — the name that a delivery is given, and the times of its events
* `Push.effects` — what a push leads to
* `Processor`, `Processor.process` — the processors
* `Processor.run` — a processor that handles one event after the other
-/

namespace HeadScout

/-- An event as it is handed to a processor. -/
structure Incoming where
  kind : WebhookKind
  payload : Option String
  product : Product
  /-- Where it came from, in the sender's own words. -/
  origin : String
  /-- The address of the instance that sent it, if known. -/
  serverUrl : Option String
  deriving DecidableEq, Repr

/-- The name that a delivery is given, and the times of its events. -/
structure Stamp where
  id : DeliveryId
  /-- What the clock shows when the head event of a type is made. -/
  time : EventType → Timestamp

/-- The head event for the changes of one kind in a push. -/
def Push.headEvent (p : Push) (incoming : Incoming) (serverUrl : ServerUrl) (stamp : Stamp)
    (t : EventType) (changes : List Change) : HeadEvent where
  deliveryId := stamp.id
  serverUrl := serverUrl
  product := incoming.product
  eventType := t
  changes := changes
  origin := incoming.origin
  repository := p.repository
  headCommit := p.headCommit
  mirrorId := p.mirrorId
  receivedAt := stamp.time t

/-- What a push leads to. -/
def Push.effects (p : Push) (config : WebhookConfig) (incoming : Incoming) (serverUrl : ServerUrl)
    (stamp : Stamp) : List Effect :=
  if p.refLimitExceeded then [.note .refLimitExceeded, .reindex (.ofPush p)]
  else if p.changes.isEmpty then
    if config.scanOnEmptyChanges then [.note .emptyPushIndexed, .reindex (.ofPush p)]
    else [.note .emptyPushSkipped]
  else
    -- Changes of unknown tags alone lead to no event, but to no re-index either.
    let grouped := ChangeGroups.ofChanges p.changes
    grouped.steps.map Effect.note ++ grouped.value.groups.flatMap fun (t, changes) =>
      [.note .eventEmitted,
        .notify (p.headEvent incoming serverUrl stamp t changes) config.eventDelay]

/-- Who handles an event. -/
inductive Processor where
  /-- The processor of native events of Server. -/
  | server
  /-- The processor of pushes of Cloud. -/
  | cloud
  /-- The dispatcher between the two. -/
  | dispatcher
  deriving DecidableEq, Repr

namespace Incoming

/-- The body, unless it is blank. -/
def body? (i : Incoming) : Option String := i.payload.filter fun s => !Text.isAllBlank s

/-- The push that the event says, for a processor of the given name that handles some kinds. -/
def push (i : Incoming) (name : String) (kinds : List WebhookKind) (body : String) :
    ExceptT WebhookError (Traced Notice) Push :=
  if i.kind ∈ kinds then Push.read i.kind body else throw (.unsupported i.kind name)

/-- What comes of an event whose sender is known. -/
def handle (i : Incoming) (config : WebhookConfig) (serverUrl : ServerUrl) (stamp : Stamp)
    (reading : ExceptT WebhookError (Traced Notice) Push) : List Effect :=
  reading.run.steps.map Effect.note ++
    match reading.run.value with
    | .ok push => push.effects config i serverUrl stamp
    | .error e => [.note e.notice]

/-- The address of the sender of a native event. -/
def nativeSender? (i : Incoming) : Option ServerUrl := i.serverUrl.bind Identifier.ofText?

/-- The address of the sender of a push: Cloud has the one address, wherever it came from. -/
def pushSender? (i : Incoming) : Option ServerUrl :=
  match i.product with
  | .cloud => some cloudUrl
  | .server => i.nativeSender?

/-- What comes of an event at a processor of the given name that handles some kinds; `lost` is told
when the sender is not known. -/
def atProcessor (i : Incoming) (name : String) (kinds : List WebhookKind)
    (sender : Option ServerUrl) (lost : Notice) (config : WebhookConfig) (stamp : Stamp) :
    List Effect :=
  match i.body?, sender with
  | none, _ => []
  | some _, none => [.note lost]
  | some body, some serverUrl => i.handle config serverUrl stamp (i.push name kinds body)

/-- What comes of an event at the processor of native events of Server. -/
def atServer (i : Incoming) : WebhookConfig → Stamp → List Effect :=
  i.atProcessor "native server push" [.refsChanged, .mirrorSynchronized] i.nativeSender?
    .nativeSenderUnknown

/-- What comes of an event at the processor of pushes of Cloud. -/
def atCloud (i : Incoming) : WebhookConfig → Stamp → List Effect :=
  i.atProcessor "cloud push" [.push] i.pushSender? .pushSenderUnknown

/-- What comes of an event at the dispatcher. -/
def atDispatcher (i : Incoming) (config : WebhookConfig) (stamp : Stamp) : List Effect :=
  match i.kind with
  | .push => i.atCloud config stamp
  | .refsChanged | .mirrorSynchronized => i.atServer config stamp
  | .ping => [.note .pingDispatched]

end Incoming

namespace Processor

/-- What comes of an event. -/
def process (p : Processor) (config : WebhookConfig) (stamp : Stamp) (i : Incoming) :
    List Effect :=
  match p with
  | .server => i.atServer config stamp
  | .cloud => i.atCloud config stamp
  | .dispatcher => i.atDispatcher config stamp

/-- A processor that handles one event after the other, with the effects it leaves behind. -/
def run (p : Processor) (config : WebhookConfig) (is : List (Stamp × Incoming)) :
    Traced Effect Unit :=
  is.forM fun (stamp, i) => ⟨(), p.process config stamp i⟩

end Processor

end HeadScout
