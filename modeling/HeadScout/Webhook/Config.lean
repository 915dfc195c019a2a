import HeadScout.Text.Ascii
import HeadScout.Text.Blank
import HeadScout.Text.Decimal
import HeadScout.Text.Quoted

/-!
# Webhook configuration

Two settings steer what a push leads to. Both have a default and can be set by variables of the
environment; a variable that is set to something else than a setting is an error, and the one for
empty pushes is looked at first.

## Main definitions

* `WebhookConfig` — the settings
* `WebhookConfig.ofEnvironment` — the settings of an environment
* `WebhookConfig.resolve` — the same, overridden by settings that are given
* `ConfigError` — a variable that cannot be used
-/

namespace HeadScout

/-- The settings of webhook processing. -/
structure WebhookConfig where
  /-- Whether a push without changes leads to a re-index of the repository. -/
  scanOnEmptyChanges : Bool
  /-- How many seconds an event waits before it fires. -/
  eventDelay : UInt64
  deriving DecidableEq, Repr

/-- A variable of the environment that cannot be used. -/
structure ConfigError where
  variableName : String
  value : String
  deriving DecidableEq, Repr

def ConfigError.message (e : ConfigError) : String :=
  "Invalid value for environment variable " ++ e.variableName ++ ": " ++ Text.quote e.value

namespace WebhookConfig

/-- The settings when nothing is set. -/
def standard : WebhookConfig := ⟨true, 5⟩

/-- The variable for pushes without changes. -/
def scanVariable : String := "BITBUCKET_SCAN_ON_EMPTY_CHANGES"

/-- The variable for the delay of events. -/
def delayVariable : String := "BITBUCKET_EVENT_DELAY_SECONDS"

/-- The words for a setting that is on. -/
def onWords : List String := ["true", "1", "yes", "on"]

/-- The words for a setting that is off. -/
def offWords : List String := ["false", "0", "no", "off"]

/-- The setting that a word stands for; blanks around it and the case of letters do not count. -/
def switch? (raw : String) : Option Bool :=
  let word := Text.lower (Text.trim raw)
  if word ∈ onWords then some true
  else if word ∈ offWords then some false
  else none

/-- The number of seconds that a text names; blanks around it do not count. -/
def delay? (raw : String) : Option UInt64 :=
  (Decimal.readUnsigned? UInt64.size (Text.trim raw)).map UInt64.ofNat

/-- The setting of a variable, or its default if it is not set. -/
def setting {α : Type} (variableName : String) (default : α) (read : String → Option α)
    (value : Option String) : Except ConfigError α :=
  match value with
  | none => .ok default
  | some raw =>
    match read raw with
    | some a => .ok a
    | none => .error ⟨variableName, raw⟩

/-- The settings of an environment. -/
def ofEnvironment (lookup : String → Option String) : Except ConfigError WebhookConfig := do
  let scan ← setting scanVariable standard.scanOnEmptyChanges switch? (lookup scanVariable)
  let delay ← setting delayVariable standard.eventDelay delay? (lookup delayVariable)
  return ⟨scan, delay⟩

/-- The settings of an environment, overridden by those that are given; a variable that cannot be
used is an error all the same. -/
def resolve (lookup : String → Option String) (scan : Option Bool) (delay : Option UInt64) :
    Except ConfigError WebhookConfig := do
  -- The environment is read first, so what is given cannot hide a variable that is wrong.
  let config ← ofEnvironment lookup
  return ⟨scan.getD config.scanOnEmptyChanges, delay.getD config.eventDelay⟩

end WebhookConfig

end HeadScout
