import HeadScout.Command.Level
import HeadScout.Text.Decimal

/-!
# Invocations

The program has three commands: one replays a delivery, one lists the repositories of an owner, and
one looks for the heads of a repository. How to connect can be said before or behind the command.

## Main definitions

* `Connection` — the instance and how to authenticate
* `Command`, `Invocation` — what is to be done
* `Invocation.ofArguments` — the invocation of a command line
-/

namespace HeadScout

/-- The instance and how to authenticate. -/
structure Connection where
  /-- The address of Server, if it is not Cloud. -/
  serverUrl : Option String
  username : Option String
  password : Option String
  token : Option String
  credentialsId : Option String
  deriving DecidableEq, Repr

/-- Where traits come from. -/
inductive TraitChoice where
  /-- A file that lists them. -/
  | file (path : String)
  /-- A strategy for branches, and credentials for checkouts over SSH if these are wanted. -/
  | inline (strategyId : UInt8) (sshCredentialsId : Option String)
  deriving DecidableEq, Repr

/-- What is to be done. -/
inductive Command where
  | replay (eventKey payload origin : String) (declaredType : Option String)
      (scanOnEmptyChanges : Option Bool) (eventDelay : Option UInt64)
  /-- The repositories of an owner are listed. -/
  | repositories (owner : String) (registered : List String)
  /-- The heads of a repository are looked for. -/
  | heads (owner repository : String) (checkout : Bool) (traits : TraitChoice)
  deriving DecidableEq, Repr

/-- What is to be done, on which instance. -/
structure Invocation where
  connection : Connection
  command : Command
  deriving DecidableEq, Repr

namespace Invocation

/-! ### Options -/

/-- The options of every level. The first two say how notices are told; they change nothing that is
printed. -/
def sharedOptions : List CommandOption :=
  [⟨"json", none, .flag, none⟩, ⟨"verbose", some 'v', .flag, none⟩,
    ⟨"server-url", none, .single, some "BITBUCKET_SERVER_URL"⟩,
    ⟨"username", none, .single, some "BITBUCKET_USERNAME"⟩,
    ⟨"password", none, .single, some "BITBUCKET_PASSWORD"⟩,
    ⟨"token", none, .single, some "BITBUCKET_TOKEN"⟩,
    ⟨"credentials-id", none, .single, some "BITBUCKET_CREDENTIALS_ID"⟩]

/-- The options of the program itself. -/
def programOptions : List CommandOption :=
  ⟨"version", some 'V', .version, none⟩ :: sharedOptions

/-- The options of a replay. -/
def replayOptions : List CommandOption :=
  sharedOptions ++
    [⟨"event-key", none, .single, none⟩, ⟨"payload", none, .single, none⟩,
      ⟨"origin", none, .single, none⟩, ⟨"bitbucket-type", none, .single, none⟩,
      ⟨"scan-on-empty-changes", none, .single, none⟩, ⟨"event-delay", none, .single, none⟩]

/-- The options of a listing of repositories. -/
def repositoriesOptions : List CommandOption :=
  sharedOptions ++ [⟨"owner", none, .single, none⟩, ⟨"registered", none, .collected, none⟩]

/-- The options of a search for heads. -/
def headsOptions : List CommandOption :=
  sharedOptions ++
    [⟨"owner", none, .single, none⟩, ⟨"repository", none, .single, none⟩,
      ⟨"checkout", none, .flag, none⟩, ⟨"traits", none, .single, none⟩,
      ⟨"branch-strategy", none, .single, some "BITBUCKET_BRANCH_STRATEGY"⟩,
      ⟨"ssh-credentials-id", none, .single, some "BITBUCKET_SSH_CREDENTIALS_ID"⟩]

/-- The names of the commands. -/
def commandNames : List String := ["replay", "repositories", "heads"]

/-- The variables of the environment that set options. -/
def variableNames : List String :=
  (replayOptions ++ repositoriesOptions ++ headsOptions).filterMap (·.variableName)

/-! ### Values -/

/-- A value that must be given. -/
def required (l : Level.Values) (name : String) : Except CommandStop String :=
  match l.value? name with
  | some v => .ok v
  | none => .error .misuse

/-- A value that may be given, in the form that `read` accepts. -/
def optional {α : Type} (l : Level.Values) (name : String) (read : String → Option α) :
    Except CommandStop (Option α) :=
  match l.value? name with
  | none => .ok none
  | some v =>
    match read v with
    | some a => .ok (some a)
    | none => .error .misuse

/-- A path; no path is empty. -/
def path? (s : String) : Option String := if s = "" then none else some s

/-- A truth value. -/
def bool? : String → Option Bool
  | "true" => some true
  | "false" => some false
  | _ => none

/-- A number of seconds. -/
def seconds? (s : String) : Option UInt64 :=
  (Decimal.readUnsigned? UInt64.size s).map UInt64.ofNat

/-- The number of a strategy; a sign may be written. -/
def strategyId? (s : String) : Option UInt8 :=
  (Decimal.readSigned? 0 255 s).map fun n => UInt8.ofNat n.toNat

/-- The parts of a text between commas. -/
def commaParts (s : String) : List String := s.splitOn ","

/-! ### Levels -/

/-- The rules on how to authenticate: a user's name comes with a password and without a token. -/
def checkConnection (l : Level.Values) : Except CommandStop Unit :=
  if l.has "username" && (!l.has "password" || l.has "token") then .error .misuse else .ok ()

/-- How to connect, from both levels. -/
def connect (outer inner : Level.Values) : Connection where
  serverUrl := Level.inherited? outer inner "server-url"
  username := Level.inherited? outer inner "username"
  password := Level.inherited? outer inner "password"
  token := Level.inherited? outer inner "token"
  credentialsId := Level.inherited? outer inner "credentials-id"

/-- The replay that is asked for. -/
def replay (l : Level.Values) : Except CommandStop Command := do
  let eventKey ← required l "event-key"
  let payload ← optional l "payload" path?
  let origin := (l.value? "origin").getD "replay"
  let scan ← optional l "scan-on-empty-changes" bool?
  let delay ← optional l "event-delay" seconds?
  match payload with
  | some path => .ok (.replay eventKey path origin (l.value? "bitbucket-type") scan delay)
  | none => .error .misuse

/-- The listing of repositories that is asked for. -/
def repositories (l : Level.Values) : Except CommandStop Command := do
  let owner ← required l "owner"
  return .repositories owner ((l.all "registered").flatMap commaParts)

/-- The search for heads that is asked for; a file of traits stands alone. -/
def heads (l : Level.Values) : Except CommandStop Command := do
  let owner ← required l "owner"
  let repository ← required l "repository"
  let file ← optional l "traits" path?
  let strategy ← optional l "branch-strategy" strategyId?
  let ssh := l.value? "ssh-credentials-id"
  match file, strategy, ssh with
  | none, _, _ =>
    return .heads owner repository (l.has "checkout") (.inline (strategy.getD 1) ssh)
  | some path, none, none => return .heads owner repository (l.has "checkout") (.file path)
  | some _, _, _ => throw .misuse

/-- The options of a command, and how it is read from them. -/
def commandLevel : String → List CommandOption × (Level.Values → Except CommandStop Command)
  | "replay" => (replayOptions, replay)
  | "repositories" => (repositoriesOptions, repositories)
  | _ => (headsOptions, heads)

/-- The invocation of a command line. -/
def ofArguments (environment : String → Option String) (arguments : List String) :
    Except CommandStop Invocation := do
  let (given, command) ← Level.read programOptions commandNames [] arguments
  match command with
  | none => throw .misuse
  | some (name, rest) =>
    let (options, read) := commandLevel name
    let (givenInside, _) ← Level.read options [] [] rest
    let outer : Level.Values := ⟨programOptions, given, environment⟩
    let inner : Level.Values := ⟨options, givenInside, environment⟩
    -- The rules hold at each level by itself: what one level is given does not help the other.
    let command ← read inner
    checkConnection inner
    checkConnection outer
    return ⟨connect outer inner, command⟩

end Invocation

end HeadScout
