import HeadScout.Client
import HeadScout.Command.Invocation
import HeadScout.Discovery.Scan
import HeadScout.Discovery.TraitSpec
import HeadScout.Json.Printer
import HeadScout.Navigator
import HeadScout.Text.Line
import HeadScout.Webhook.Delivery
import HeadScout.Webhook.Outbox

/-!
# Running a command

A command reads from the world around it and prints lines, each of them a document of its own that
says what it is. A command that fails reports why; what it printed before stays printed.

## Main definitions

* `World` — environment, files, network and clock
* `OutputLine`, `OutputLine.render` — what is printed
* `Outcome` — the lines that are printed, the report of a failure, and what happened on the way
* `Invocation.run`, `runArguments` — what comes of an invocation and of a command line
-/

namespace HeadScout

/-- The world around a command. -/
structure World where
  environment : String → Option String
  file : String → Option String
  network : Network
  /-- The name that a delivery is given, and the times of its events. -/
  stamp : Stamp

/-- What is printed on a line. -/
inductive OutputLine where
  | event (event : HeadEvent)
  /-- A repository to index anew. -/
  | reindex (request : ReindexRequest)
  | repository (repository : Repository)
  | head (head : DiscoveredHead)
  | checkout (checkout : CheckoutSpec)
  deriving DecidableEq, Repr

namespace OutputLine

/-- The word that says what a line is. -/
def kind : OutputLine → String
  | .event _ => "event"
  | .reindex _ => "reindex"
  | .repository _ => "repository"
  | .head _ => "head"
  | .checkout _ => "checkout"

/-- What a line is about. -/
def value : OutputLine → Json
  | .event e => e.toJson
  | .reindex r => r.toJson
  | .repository r => r.toJson
  | .head h => h.toJson
  | .checkout c => c.toJson

def toJson (l : OutputLine) : Json := .record [("kind", .text l.kind), ("value", l.value)]

/-- The text of a line. -/
def render (l : OutputLine) : String := l.toJson.render

end OutputLine

/-- A line, and how many milliseconds after the start it is printed at the earliest. -/
structure TimedLine where
  /-- When the line is printed. -/
  due : Nat
  line : OutputLine
  deriving DecidableEq, Repr

/-- What comes of a command. -/
structure Outcome where
  lines : List TimedLine
  failure : Option String
  /-- What happened on the way. -/
  steps : List Step
  deriving DecidableEq, Repr

namespace Outcome

/-- What the program tells its caller. -/
def exitCode (o : Outcome) : UInt32 := if o.failure.isSome then 1 else 0

theorem exitCode_eq_zero_iff (o : Outcome) : o.exitCode = 0 ↔ o.failure = none := by
  rw [exitCode]
  cases o.failure <;> simp

/-- All failures look alike to the caller. -/
theorem exitCode_congr {o o' : Outcome} (h : o.failure = none ↔ o'.failure = none) :
    o.exitCode = o'.exitCode := by
  rw [exitCode, exitCode]
  cases hfailure : o.failure with
  | none => rw [h.mp hfailure]
  | some report =>
    cases hfailure' : o'.failure with
    | none => cases hfailure.symm.trans (h.mpr hfailure')
    | some report' => rfl

/-- The first line of the report of a failure. -/
def headline? (o : Outcome) : Option String := o.failure.map Text.firstLine

end Outcome

/-- Work that may fail with a report, and what happens on the way. -/
abbrev Work := ExceptT String (Traced Step)

/-- Work that fails before anything is printed, or prints some lines and may fail then. -/
def Work.outcome (w : Work (List TimedLine × Option String)) : Outcome :=
  match w.run.value with
  | .ok (lines, failure) => ⟨lines, failure, w.run.steps⟩
  | .error report => ⟨[], some report, w.run.steps⟩

/-- Lines that are printed at once. -/
def atOnce (lines : List OutputLine) : List TimedLine := lines.map fun l => ⟨0, l⟩

namespace Connection

/-- How requests authenticate: a user's name and password come before a token. -/
def credentials (c : Connection) : Option Credentials :=
  match c.username, c.password, c.token with
  | some username, some password, _ => some (.basic username password)
  | _, _, some token => some (.bearer token)
  | _, _, _ => none

/-- The credentials for checkouts, unless they are empty. -/
def checkoutCredentials (c : Connection) : Option CredentialsId :=
  c.credentialsId.bind Identifier.ofText?

/-- The client for the instance. -/
def client (c : Connection) : Client :=
  match c.serverUrl with
  | some url => if isCloudUrl url then .cloud c.credentials else .server url c.credentials
  | none => .cloud c.credentials

end Connection

/-! ### Replay -/

/-- The delivery that is replayed. -/
def Delivery.replayed (eventKey body origin : String) (declaredType serverUrl : Option String) :
    Delivery :=
  let named := (Delivery.ofOrigin origin).withHeader Delivery.eventKeyHeader eventKey
  let typed := declaredType.elim named (named.withHeader Delivery.productHeader)
  { typed with body := some body, serverUrl := serverUrl }

/-- The lines for what an outbox sends until it is finished: requests first, then each event when
its delay has passed. -/
def Outbox.lines (o : Outbox) : List TimedLine :=
  (o.requests.items.map fun r => ⟨0, .reindex r⟩) ++
    ((o.waiting.map (Waiting.start o.now)).map fun w =>
      ⟨w.due.getD o.now - o.now, .event w.event⟩).mergeSort fun a b => a.due ≤ b.due

/-- The lines for a delivery at the dispatcher, unless it is ignored. -/
def Delivery.replay? (d : Delivery) (config : WebhookConfig) (stamp : Stamp) :
    Option (List TimedLine) :=
  match d.receive (Processor.dispatcher.process config stamp) with
  | (.ignored, _) => none
  | (_, effects) => some ((Outbox.empty 0).dispatch effects).value.lines

/-- The lines for the delivery whose body is in a file. -/
def replayFile (world : World) (connection : Connection) (eventKey path origin : String)
    (declaredType : Option String) (scan : Option Bool) (delay : Option UInt64) :
    Work (List TimedLine × Option String) := do
  -- The file is read before the settings, and the settings before the delivery.
  let some body := world.file path | throw ("reading payload " ++ path)
  let .ok config := WebhookConfig.resolve world.environment scan delay
    | throw "reading hook configuration"
  let delivery := Delivery.replayed eventKey body origin declaredType connection.serverUrl
  match delivery.replay? config world.stamp with
  | some lines => pure (lines, none)
  | none => throw ("event key " ++ Text.quote eventKey ++ " was not processed")

/-! ### Listings -/

/-- The owner of a listing. -/
def ownerOf (owner : String) : Except String OwnerName :=
  match Identifier.ofText? owner with
  | some o => .ok o
  | none => .error "owner must not be empty"

/-- The navigator that has listed the repositories of the owner. -/
def listOwner (navigator : Navigator) (api : Api) (owner : OwnerName) : Work Navigator := do
  match ← (navigator.visit api owner : Traced Step _) with
  | (.ok _, visited) => pure visited
  | (.error _, _) => throw ("listing repositories of " ++ owner.text)

/-- The lines for the repositories of an owner. -/
def listRepositories (api : Api) (owner : String) (registered : List String) :
    Work (List TimedLine × Option String) := do
  let owner ← ownerOf owner
  let navigator := Navigator.ofRegistered (registered.filterMap Identifier.ofText?)
  let visited ← listOwner navigator api owner
  pure (atOnce (visited.repositories.map .repository), none)

/-! ### Heads -/

/-- The traits that a file lists. -/
def traitsOfFile (file : String → Option String) (path : String) :
    Except String (List TraitSpec) :=
  match file path with
  | none => .error ("reading trait file " ++ path)
  | some text =>
    match (Json.parse? text).bind TraitSpec.listOfJson? with
    | none => .error ("parsing trait file " ++ path)
    | some [] => .error ("trait file " ++ path ++ " lists no traits")
    | some specs => .ok specs

/-- The traits that are chosen. -/
def TraitChoice.specs (file : String → Option String) :
    TraitChoice → Except String (List TraitSpec)
  | .file path => traitsOfFile file path
  | .inline strategyId ssh =>
    .ok (.branchDiscovery strategyId :: ssh.elim [] fun id => [.sshCheckout (some id)])

/-- The traits that are chosen, put together. -/
def TraitChoice.traits (file : String → Option String) (choice : TraitChoice) :
    Except String (List Trait) := do
  let specs ← choice.specs file
  (TraitSpec.toTraits specs).mapError DiscoveryError.message

/-- The repository of this name in the listing of its owner. -/
def findRepository (api : Api) (owner : OwnerName) (name : String) : Work Repository := do
  let visited ← listOwner (.ofRegistered []) api owner
  match visited.repository? name with
  | some r => pure r
  | none => throw ("repository " ++ owner.text ++ "/" ++ name ++ " not found")

/-- The lines for the heads of a repository, and for its checkout if this is asked for. -/
def listHeads (world : World) (connection : Connection) (owner name : String) (checkout : Bool)
    (choice : TraitChoice) : Work (List TimedLine × Option String) := do
  let api := connection.client.api world.network
  -- Everything that can be wrong with the arguments is found before the first request.
  let owner ← ownerOf owner
  let traits ← choice.traits world.file
  let repository ← findRepository api owner name
  let heads ← (Scan.heads api traits repository).adapt ApiError.message
  let lines := heads.map OutputLine.head
  if checkout then
    match Trait.resolveCheckout traits repository connection.checkoutCredentials with
    | .ok spec => pure (atOnce (lines ++ [.checkout spec]), none)
    | .error e => pure (atOnce lines, some e.message)
  else pure (atOnce lines, none)

/-! ### Commands -/

/-- What comes of an invocation. -/
def Invocation.run (world : World) (i : Invocation) : Outcome :=
  Work.outcome <|
    match i.command with
    | .replay eventKey path origin declaredType scan delay =>
      replayFile world i.connection eventKey path origin declaredType scan delay
    | .repositories owner registered =>
      listRepositories (i.connection.client.api world.network) owner registered
    | .heads owner name checkout traits => listHeads world i.connection owner name checkout traits

/-- The file that an invocation reads, if it reads one. -/
def Invocation.file? (i : Invocation) : Option String :=
  match i.command with
  | .replay _ path _ _ _ _ => some path
  | .repositories _ _ => none
  | .heads _ _ _ (.file path) => some path
  | .heads _ _ _ (.inline _ _) => none

/-! ### Command lines -/

/-- The name of the program. -/
def programName : String := "bitbucket-source"

/-- What the program says of itself. -/
def versionText : String := programName ++ " 0.1.0"

/-- How the program is used. -/
def usageText : String :=
  "usage: " ++ programName ++ " [OPTIONS] " ++ "|".intercalate Invocation.commandNames

namespace CommandStop

/-- What is printed in the place of a command's lines. -/
def text? : CommandStop → Option String
  | .version => some versionText
  | .misuse => none

/-- What is reported to whoever wrote the command line. -/
def report? : CommandStop → Option String
  | .version => none
  | .misuse => some usageText

/-- What the program tells its caller. -/
def exitCode : CommandStop → UInt32
  | .version => 0
  | .misuse => 2

end CommandStop

/-- What comes of a command line. -/
def runArguments (world : World) (arguments : List String) : Except CommandStop Outcome :=
  (Invocation.ofArguments world.environment arguments).map (·.run world)

end HeadScout
