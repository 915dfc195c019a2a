/-!
# Notices

What is told to whoever operates the program, by level and text. Nothing depends on a notice; a
delivery that is dropped, for instance, leaves nothing else behind.

## Main definitions

* `Notice` — one thing to tell
* `Notice.level`, `Notice.text`, `Notice.line` — how it is told
-/

namespace HeadScout

/-- How urgent a notice is. -/
inductive Notice.Level where
  | error
  /-- Something may be wrong. -/
  | warn
  /-- Something worth knowing. -/
  | info
  /-- Something that helps to find a fault. -/
  | debug
  deriving DecidableEq, Repr

/-- The level's name. -/
def Notice.Level.name : Level → String
  | .error => "ERROR"
  | .warn => "WARN"
  | .info => "INFO"
  | .debug => "DEBUG"

/-- One thing to tell. -/
inductive Notice where
  /-- An entry of a change list could not be read. -/
  | changeSkipped
  /-- A change has a tag without a meaning. -/
  | changeDropped
  /-- A mirror reported too many changes to list them. -/
  | refLimitExceeded
  /-- A push without changes leads to a re-index. -/
  | emptyPushIndexed
  /-- A push without changes leads to nothing. -/
  | emptyPushSkipped
  /-- The processor has no use for this kind of event. -/
  | eventUnsupported
  /-- The body could not be read. -/
  | payloadUnreadable
  /-- The head event of a group of changes is on its way. -/
  | eventEmitted
  /-- A native Server event came from nowhere. -/
  | nativeSenderUnknown
  /-- A push from Server came from nowhere. -/
  | pushSenderUnknown
  /-- A test ping reached the dispatcher. -/
  | pingDispatched
  /-- A test ping reached the listener. -/
  | pingReceived
  /-- A delivery has an event key that is not handled. -/
  | eventKeyUnknown
  /-- A delivery has no event key. -/
  | eventKeyMissing
  /-- A head event waits for its delay. -/
  | eventScheduled
  /-- Nobody receives head events any more. -/
  | eventReceiverGone
  /-- A re-index was asked for. -/
  | reindexRequested
  /-- Nobody receives re-index requests any more. -/
  | reindexReceiverGone
  /-- A branch is kept because pull requests are not known. -/
  | branchKeptUnfiltered
  /-- Pull requests could not be listed. -/
  | pullRequestsUnavailable
  /-- A filter excluded a head. -/
  | headExcluded
  /-- A scan has ended. -/
  | headsDiscovered
  /-- The repositories of an owner are listed. -/
  | repositoriesListed
  | pageRequested
  /-- A page names a page already read as the next one. -/
  | pageRepeated
  /-- A page names a start that does not lie ahead. -/
  | pageStartStuck
  deriving DecidableEq, Repr

namespace Notice

/-- How urgent the notice is. -/
def level : Notice → Level
  | eventUnsupported | payloadUnreadable => .error
  | eventKeyUnknown | eventKeyMissing | eventReceiverGone | reindexReceiverGone
  | branchKeptUnfiltered | pullRequestsUnavailable | pageRepeated | pageStartStuck => .warn
  | changeSkipped | changeDropped | refLimitExceeded | emptyPushIndexed | emptyPushSkipped
  | reindexRequested | headsDiscovered | repositoriesListed => .info
  | eventEmitted | nativeSenderUnknown | pushSenderUnknown | pingDispatched | pingReceived
  | eventScheduled | headExcluded | pageRequested => .debug

/-- What is told. -/
def text : Notice → String
  | changeSkipped => "Skipping undecodable change"
  | changeDropped => "Unknown change event type received from Bitbucket; ignoring change"
  | refLimitExceeded =>
    "Received mirror synchronized event with refLimitExceeded from Bitbucket; " ++
      "indexing the repository"
  | emptyPushIndexed =>
    "Received push hook with empty changes from Bitbucket; indexing the repository. " ++
      "Set BITBUCKET_SCAN_ON_EMPTY_CHANGES=false to skip this scan"
  | emptyPushSkipped => "Received push hook with empty changes from Bitbucket; skipping"
  | eventUnsupported => "Unsupported hook event"
  | payloadUnreadable => "Can not read hook payload"
  | eventEmitted => "Emitting head event"
  | nativeSenderUnknown => "Ignoring native server hook without a server URL"
  | pushSenderUnknown => "Ignoring server push hook without a server URL"
  | pingDispatched => "Received Bitbucket Server webhook ping"
  | pingReceived => "Webhook ping"
  | eventKeyUnknown => "Unsupported hook event; ignoring webhook delivery"
  | eventKeyMissing => "Ignoring webhook delivery"
  | eventScheduled => "Scheduling head event"
  | eventReceiverGone => "Head event receiver is gone; dropping event"
  | reindexRequested => "Re-index requested"
  | reindexReceiverGone => "Re-index receiver is gone; dropping request"
  | branchKeptUnfiltered =>
    "Pull request data unavailable while filtering branches; keeping the branch"
  | pullRequestsUnavailable => "Could not fetch pull requests"
  | headExcluded => "Head excluded by filter"
  | headsDiscovered => "Discovered heads"
  | repositoriesListed => "Listed repositories"
  | pageRequested => "GET"
  | pageRepeated => "Bitbucket repeated a page link; stopping pagination"
  | pageStartStuck => "Bitbucket page start did not advance; stopping pagination"

/-- Level and text. -/
def line (n : Notice) : String := n.level.name ++ " " ++ n.text

end Notice

end HeadScout
