import HeadScout.Traced
import HeadScout.Webhook.Effect

/-!
# The outbox

Head events and requests to index a repository leave on two channels. A request is sent at once; an
event waits until its delay has passed, but never longer than thirty years. The delay starts when
the event's task first runs, and the event is sent by a later run of that task, so nothing is sent
before its time. When nobody receives from a channel any more, what would be sent on it is dropped.

Whoever hands over events holds the outbox open, and so does the task of each waiting event: both can
send on the channel of events. It is closed once nobody is left who can.

Time is counted in milliseconds.

## Main definitions

* `Delay` — how long an event is to wait
* `Outbox` — the clock, the waiting events and the two channels
* `Outbox.Action`, `Outbox.act` — what can happen to it
* `Outbox.settle` — every task that is ready has run
* `Outbox.dispatch` — the effects of a delivery are taken over
-/

namespace HeadScout

/-- A channel whose sender never waits. -/
structure Channel (α : Type) where
  /-- What was sent and not yet received. -/
  items : List α
  /-- Whether there still is a receiver. -/
  hasReceiver : Bool
  deriving DecidableEq, Repr

namespace Channel

variable {α : Type}

/-- A channel on which nothing was sent. -/
def empty : Channel α := ⟨[], true⟩

/-- The channel after sending some items; without a receiver they are dropped. -/
def send (c : Channel α) (sent : List α) : Channel α :=
  if c.hasReceiver then { c with items := c.items ++ sent } else c

/-- The channel without its receiver, and without what it was to receive. -/
def close (c : Channel α) : Channel α := { c with items := [], hasReceiver := false }

/-- The channel after the next item was received. -/
def receive (c : Channel α) : Channel α := { c with items := c.items.drop 1 }

/-- The channel after everything was received. -/
def drain (c : Channel α) : Channel α := { c with items := [] }

end Channel

/-- How long an event is to wait. -/
structure Delay where
  seconds : UInt64
  /-- What is left over of a second, in nanoseconds. -/
  nanoseconds : Fin 1000000000
  deriving DecidableEq, Repr

namespace Delay

/-- A delay of so many seconds. -/
def ofSeconds (seconds : UInt64) : Delay := ⟨seconds, 0⟩

/-- How many milliseconds the delay lasts; a part of one counts as a whole one. -/
def milliseconds (d : Delay) : Nat :=
  d.seconds.toNat * 1000 + (d.nanoseconds.val + 999999) / 1000000

end Delay

/-- A head event that waits to be sent. -/
structure Waiting where
  event : HeadEvent
  delay : Delay
  /-- When it may be sent; not known before its task first runs. -/
  due : Option Nat
  deriving DecidableEq, Repr

namespace Waiting

/-- Thirty years of 365 days, in milliseconds. -/
def thirtyYears : Nat := 30 * 365 * 24 * 60 * 60 * 1000

/-- How many milliseconds an event waits; a longer delay is cut to thirty years. -/
def span (delay : Delay) : Nat := min delay.milliseconds thirtyYears

theorem span_eq {delay : Delay} (h : delay.milliseconds ≤ thirtyYears) :
    span delay = delay.milliseconds := Nat.min_eq_left h

/-- The event after its task has run for the first time. -/
def start (now : Nat) (w : Waiting) : Waiting :=
  { w with due := some (w.due.getD (now + span w.delay)) }

/-- Whether the event may be sent. -/
def isDue (now : Nat) (w : Waiting) : Bool := w.due.any (· ≤ now)

/-- Whether the event's task can run. -/
def isReady (now : Nat) (w : Waiting) : Bool := w.due.isNone || w.isDue now

end Waiting

/-- The clock, the waiting events and the two channels. -/
structure Outbox where
  now : Nat
  /-- The events that wait, in the order in which they were taken over. -/
  waiting : List Waiting
  /-- The channel of head events. -/
  events : Channel HeadEvent
  /-- The channel of requests to index a repository. -/
  requests : Channel ReindexRequest
  /-- How many hold the outbox open to hand over events. -/
  handles : Nat
  /-- How many can send on the channel of head events. -/
  senders : Nat
  deriving DecidableEq, Repr

/-- Why no outbox can be set up. -/
inductive OutboxError where
  /-- There is no clock to wait on. -/
  | noClock
  deriving DecidableEq, Repr

def OutboxError.message : OutboxError → String
  | .noClock => "No tokio runtime is available for delayed notification"

namespace Outbox

/-- An outbox on a clock that shows the given time. -/
def empty (now : Nat) : Outbox := ⟨now, [], .empty, .empty, 1, 1⟩

/-- An outbox on a clock, if there is one. -/
def onClock (now : Option Nat) : Except OutboxError Outbox :=
  match now with
  | some t => .ok (empty t)
  | none => .error .noClock

/-- Whether the channel of head events is closed: nobody is left who can send on it. -/
def isClosed (o : Outbox) : Bool := o.senders == 0

/-- The outbox with one more who holds it open. -/
def retain (o : Outbox) : Outbox := { o with handles := o.handles + 1, senders := o.senders + 1 }

/-- The outbox after one of those who hold it open has let go. -/
def release (o : Outbox) : Outbox := { o with handles := o.handles - 1, senders := o.senders - 1 }

/-! ### Taking over -/

/-- The outbox after an event was taken over; its task can send. -/
def notify (o : Outbox) (event : HeadEvent) (delay : Delay) : Traced Notice Outbox :=
  ⟨{ o with waiting := o.waiting ++ [⟨event, delay, none⟩], senders := o.senders + 1 },
    [.eventScheduled]⟩

/-- The outbox after a request was sent. -/
def reindex (o : Outbox) (request : ReindexRequest) : Traced Notice Outbox :=
  ⟨{ o with requests := o.requests.send [request] },
    .reindexRequested :: if o.requests.hasReceiver then [] else [.reindexReceiverGone]⟩

/-- The outbox after an effect of a delivery was taken over. -/
def take (o : Outbox) : Effect → Traced Notice Outbox
  | .notify event seconds => o.notify event (.ofSeconds seconds)
  | .reindex request => o.reindex request
  | .note notice => ⟨o, [notice]⟩

/-- The outbox after all effects of a delivery were taken over. -/
def dispatch (o : Outbox) (effects : List Effect) : Traced Notice Outbox :=
  effects.foldlM take o

/-! ### Sending -/

/-- The outbox after some events were sent, whose tasks are then done. -/
def forward (o : Outbox) (sent : List Waiting) : Traced Notice Outbox :=
  ⟨{ o with events := o.events.send (sent.map (·.event)), senders := o.senders - sent.length },
    if o.events.hasReceiver then [] else sent.map fun _ => .eventReceiverGone⟩

/-- The outbox after one task has run, if it can: the first run starts the delay, and an event whose
delay has passed is sent. -/
def run (o : Outbox) (i : Nat) : Traced Notice Outbox :=
  match o.waiting[i]? with
  | none => pure o
  | some w =>
    let started := w.start o.now
    if started.isDue o.now then
      { o with waiting := o.waiting.eraseIdx i }.forward [started]
    else pure { o with waiting := o.waiting.set i started }

/-- The outbox after every task that is ready has run; what is due is sent in the order of time, and
at one time in the order in which it was taken over. -/
def settle (o : Outbox) : Traced Notice Outbox :=
  -- The delay of an event whose task has not run yet starts now.
  let started := o.waiting.map (Waiting.start o.now)
  let (due, later) := started.partition (Waiting.isDue o.now)
  { o with waiting := later }.forward (due.mergeSort fun a b => a.due.getD 0 ≤ b.due.getD 0)

/-- The outbox at a later time. -/
def advance (o : Outbox) (milliseconds : Nat) : Outbox := { o with now := o.now + milliseconds }

/-! ### Everything that can happen -/

/-- What can happen to an outbox. -/
inductive Action where
  /-- An event is handed over. -/
  | notify (event : HeadEvent) (delay : Delay)
  | reindex (request : ReindexRequest)
  | advance (milliseconds : Nat)
  | run (i : Nat)
  | receiveEvent
  | receiveRequest
  /-- The receiver of events goes away. -/
  | dropEvents
  /-- The receiver of requests goes away. -/
  | dropRequests
  /-- One more holds the outbox open. -/
  | retain
  /-- One of those who hold the outbox open lets go. -/
  | release
  deriving DecidableEq, Repr

/-- The outbox after an action. Nothing happens where nobody is left to act: only who holds the outbox
open can hand over events, share the outbox or let go of it. -/
def act (o : Outbox) : Action → Traced Notice Outbox
  | .notify event delay => if o.handles = 0 then pure o else o.notify event delay
  | .reindex request => o.reindex request
  | .advance milliseconds => pure (o.advance milliseconds)
  | .run i => o.run i
  | .receiveEvent => pure { o with events := o.events.receive }
  | .receiveRequest => pure { o with requests := o.requests.receive }
  | .dropEvents => pure { o with events := o.events.close }
  | .dropRequests => pure { o with requests := o.requests.close }
  | .retain => pure (if o.handles = 0 then o else o.retain)
  | .release => pure (if o.handles = 0 then o else o.release)

/-- The outbox after some actions. -/
def actAll (o : Outbox) (as : List Action) : Outbox := as.foldl (fun o a => (o.act a).value) o

end Outbox

end HeadScout
