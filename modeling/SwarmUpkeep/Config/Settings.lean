import SwarmUpkeep.Control.Retry
import SwarmUpkeep.Net.Url.Basic
import SwarmUpkeep.Swarm.Role
import SwarmUpkeep.Text.Ascii
import SwarmUpkeep.Text.Blank

/-!
# Settings

All that a run is told when it starts, and the conditions under which it may start: the names of
things in the cloud are not blank, the name of the upgrade queue is one that a table can have, at
least one liveness probe is made, and an add-on has an endpoint.
-/

namespace SwarmUpkeep

/-- A credential. Its text in messages hides it. -/
structure Secret where
  value : String
deriving DecidableEq, Inhabited

/-- What messages show of a credential. -/
def Secret.shown (_ : Secret) : String :=
  "Secret(***)"

/-- Where the swarm lives in the cloud, and as whom to act there. -/
structure CloudSettings where
  subscriptionId : String
  resourceGroup : String
  tenantId : String
  appId : String
  appSecret : Secret
  storageAccount : String
deriving DecidableEq, Inhabited

/-- The parts of the swarm and what may be done to it. -/
structure SwarmSettings where
  managerSet : String
  workerSet : String
  deploymentName : String
  leaderTable : String
  replicaTable : String
  upgradeQueue : String
  dockerHost : Url
  swarmPort : Nat
  diagnosticPort : Nat
  secretParameter : String
  resetSingleManager : Bool
  allowInsecureTemplate : Bool
deriving DecidableEq, Inhabited

/-- How the add-on's management container is run. Without an image there is no add-on. -/
structure AddonSettings where
  image : Option String
  endpoint : Option String
  username : Option String
  password : Option Secret
  dockerBin : String
deriving DecidableEq, Inhabited

def AddonSettings.enabled (settings : AddonSettings) : Bool :=
  settings.image.isSome

/-- Pauses in seconds and numbers of attempts of every bounded wait. -/
structure Timings where
  gracePeriod : Nat
  probeInterval : Nat
  probeAttempts : Nat
  probeTimeout : Nat
  providerPoll : Nat
  providerPollAttempts : Nat
  rejoinPoll : Nat
  rejoinPollAttempts : Nat
  addonRetry : Nat
  addonRetryAttempts : Nat
  leaderPoll : Nat
  leaderPollAttempts : Nat
  apiRetry : Nat
  apiRetryAttempts : Nat
deriving DecidableEq, Inhabited

namespace Timings

def standard : Timings :=
  { gracePeriod := 600
    probeInterval := 30
    probeAttempts := 4
    probeTimeout := 10
    providerPoll := 10
    providerPollAttempts := 360
    rejoinPoll := 10
    rejoinPollAttempts := 180
    addonRetry := 30
    addonRetryAttempts := 5
    leaderPoll := 5
    leaderPollAttempts := 24
    apiRetry := 5
    apiRetryAttempts := 5 }

/-- No pauses and few attempts, for dry runs. -/
def immediate : Timings :=
  { gracePeriod := 600
    probeInterval := 0
    probeAttempts := 3
    probeTimeout := 1
    providerPoll := 0
    providerPollAttempts := 10
    rejoinPoll := 0
    rejoinPollAttempts := 10
    addonRetry := 0
    addonRetryAttempts := 3
    leaderPoll := 0
    leaderPollAttempts := 5
    apiRetry := 0
    apiRetryAttempts := 3 }

def probePolicy (t : Timings) : RetryPolicy :=
  .ofSeconds t.probeInterval t.probeAttempts

def providerPolicy (t : Timings) : RetryPolicy :=
  .ofSeconds t.providerPoll t.providerPollAttempts

def rejoinPolicy (t : Timings) : RetryPolicy :=
  .ofSeconds t.rejoinPoll t.rejoinPollAttempts

def addonPolicy (t : Timings) : RetryPolicy :=
  .ofSeconds t.addonRetry t.addonRetryAttempts

def leaderPolicy (t : Timings) : RetryPolicy :=
  .ofSeconds t.leaderPoll t.leaderPollAttempts

def apiPolicy (t : Timings) : RetryPolicy :=
  .ofSeconds t.apiRetry t.apiRetryAttempts

end Timings

/-- All settings of a run. -/
structure Config where
  cloud : CloudSettings
  swarm : SwarmSettings
  addon : AddonSettings
  timings : Timings
deriving DecidableEq, Inhabited

/-- Why a run may not start. -/
inductive ConfigError where
  | missing (setting : String)
  | invalid (setting reason : String)
deriving DecidableEq, Inhabited

def ConfigError.message : ConfigError → String
  | missing setting => "Missing required setting: " ++ setting
  | invalid setting reason => "Invalid setting " ++ setting ++ ": " ++ reason

/-- The kind of an error in one word. -/
def ConfigError.kind : ConfigError → String
  | missing _ => "Missing"
  | invalid _ _ => "Invalid"

/-- A name that a table can have: ASCII letters and digits, the first of them a letter. -/
def isTableName (s : String) : Bool :=
  s.toList.head?.any Ascii.isAlpha && s.toList.all Ascii.isAlphanum

namespace Config

/-- The settings that may not be blank. -/
def named (config : Config) : List (String × String) :=
  [("subscription-id", config.cloud.subscriptionId),
   ("resource-group", config.cloud.resourceGroup),
   ("tenant-id", config.cloud.tenantId),
   ("app-id", config.cloud.appId),
   ("storage-account", config.cloud.storageAccount),
   ("manager-scale-set", config.swarm.managerSet),
   ("worker-scale-set", config.swarm.workerSet),
   ("deployment-name", config.swarm.deploymentName)]

/-- The first condition that is not met. -/
def validate (config : Config) : Except ConfigError Unit :=
  match config.named.find? fun (_, value) => isBlank value with
  | some (setting, _) => .error (.missing setting)
  | none =>
      if !isTableName config.swarm.upgradeQueue then
        .error (.invalid "upgrade-queue"
          ("'" ++ config.swarm.upgradeQueue ++ "' must be alphanumeric and start with a letter"))
      else if config.timings.probeAttempts = 0 then
        .error (.invalid "probe-attempts" "at least one liveness probe is required")
      else if config.addon.image.isSome && config.addon.endpoint.isNone then
        .error (.missing "addon-endpoint")
      else .ok ()

/-- The scale set that backs a role. -/
def setOf (config : Config) : Role → String
  | .manager => config.swarm.managerSet
  | .worker => config.swarm.workerSet

end Config

/-- The settings of a run and whether an add-on is installed. -/
structure Site where
  config : Config
  hasAddon : Bool
deriving Inhabited

end SwarmUpkeep
