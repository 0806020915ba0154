import SwarmUpkeep.CommandLine.Scan
import SwarmUpkeep.Config.Settings

/-!
# Settings on the command line

The flags of all settings, and the settings that the values of the flags make.
-/

namespace SwarmUpkeep.CommandLine

/-- The greatest numbers of 16, 32 and 64 bits. -/
def greatest16 : Nat := 65535

def greatest32 : Nat := 4294967295

def greatest64 : Nat := 18446744073709551615

/-- A setting without which nothing can be done. -/
def requiredFlag (name envName : String) : Flag :=
  ⟨name, some envName, .text, .required⟩

def optionalFlag (name envName : String) : Flag :=
  ⟨name, some envName, .text, .absent⟩

def textFlag (name envName value : String) : Flag :=
  ⟨name, some envName, .text, .value value⟩

def switchFlag (name envName : String) : Flag :=
  ⟨name, some envName, .switch, .value "false"⟩

def portFlag (name envName : String) (value : Nat) : Flag :=
  ⟨name, some envName, .integer greatest16, .value (toString value)⟩

def secondsFlag (name : String) (envName : Option String) (value : Nat) : Flag :=
  ⟨name, envName, .natural greatest64, .value (toString value)⟩

def attemptsFlag (name : String) (value : Nat) : Flag :=
  ⟨name, none, .integer greatest32, .value (toString value)⟩

def cloudFlags : List Flag :=
  [requiredFlag "subscription-id" "SUB_ID",
   requiredFlag "resource-group" "GROUP_NAME",
   requiredFlag "tenant-id" "TENANT_ID",
   requiredFlag "app-id" "APP_ID",
   requiredFlag "app-secret" "APP_SECRET",
   requiredFlag "storage-account" "SA_NAME"]

def swarmFlags : List Flag :=
  [textFlag "manager-scale-set" "MANAGER_VMSS" "swarm-manager-vmss",
   textFlag "worker-scale-set" "WORKER_VMSS" "swarm-worker-vmss",
   textFlag "deployment-name" "DEPLOYMENT_NAME" "docker.template",
   textFlag "leader-table" "LEADER_TABLE" "swarminfo",
   textFlag "replica-table" "REPLICA_TABLE" "dtrtable",
   textFlag "upgrade-queue" "UPGRADE_QUEUE" "upgradequeue",
   ⟨"docker-host", some "DOCKER_HOST_URL", .url, .value "http://127.0.0.1:2375"⟩,
   portFlag "swarm-port" "SWARM_PORT" 2377,
   portFlag "diagnostic-port" "DIAGNOSTIC_PORT" 44554,
   textFlag "secret-parameter" "SECRET_PARAMETER" "adServicePrincipalAppSecret",
   switchFlag "reset-single-manager" "RESET_SINGLE_MANAGER",
   switchFlag "allow-insecure-template" "ALLOW_INSECURE_TEMPLATE"]

def addonFlags : List Flag :=
  [optionalFlag "addon-image" "DTR_IMAGE",
   optionalFlag "addon-endpoint" "UCP_URL",
   optionalFlag "addon-username" "UCP_USERNAME",
   optionalFlag "addon-password" "UCP_PASSWORD",
   textFlag "docker-bin" "DOCKER_BIN" "docker"]

def timingFlags : List Flag :=
  let t := Timings.standard
  [secondsFlag "grace-period-secs" (some "GRACE_PERIOD_SECS") t.gracePeriod,
   secondsFlag "probe-interval-secs" none t.probeInterval,
   attemptsFlag "probe-attempts" t.probeAttempts,
   secondsFlag "probe-timeout-secs" none t.probeTimeout,
   secondsFlag "provider-poll-secs" none t.providerPoll,
   attemptsFlag "provider-poll-attempts" t.providerPollAttempts,
   secondsFlag "rejoin-poll-secs" none t.rejoinPoll,
   attemptsFlag "rejoin-poll-attempts" t.rejoinPollAttempts,
   secondsFlag "addon-retry-secs" none t.addonRetry,
   attemptsFlag "addon-retry-attempts" t.addonRetryAttempts,
   secondsFlag "leader-poll-secs" none t.leaderPoll,
   attemptsFlag "leader-poll-attempts" t.leaderPollAttempts,
   secondsFlag "api-retry-secs" none t.apiRetry,
   attemptsFlag "api-retry-attempts" t.apiRetryAttempts]

def settingsFlags : List Flag :=
  cloudFlags ++ swarmFlags ++ addonFlags ++ timingFlags

/-! ## Settings from values -/

namespace Scan

def text (s : Scan) (name : String) : String :=
  (s.value? name).getD ""

def number (s : Scan) (name : String) : Nat :=
  (((s.value? name).bind (Ascii.integer? 0 greatest64)).getD 0).toNat

def url (s : Scan) (name : String) : Url :=
  match Url.parse (s.text name) with
  | .ok url => url
  | .error _ => default

def isOn (s : Scan) (name : String) : Bool :=
  s.value? name == some "true"

/-- The settings of a scan that has been finished. -/
def settings (s : Scan) : Config :=
  { cloud :=
      { subscriptionId := s.text "subscription-id"
        resourceGroup := s.text "resource-group"
        tenantId := s.text "tenant-id"
        appId := s.text "app-id"
        appSecret := ⟨s.text "app-secret"⟩
        storageAccount := s.text "storage-account" }
    swarm :=
      { managerSet := s.text "manager-scale-set"
        workerSet := s.text "worker-scale-set"
        deploymentName := s.text "deployment-name"
        leaderTable := s.text "leader-table"
        replicaTable := s.text "replica-table"
        upgradeQueue := s.text "upgrade-queue"
        dockerHost := s.url "docker-host"
        swarmPort := s.number "swarm-port"
        diagnosticPort := s.number "diagnostic-port"
        secretParameter := s.text "secret-parameter"
        resetSingleManager := s.isOn "reset-single-manager"
        allowInsecureTemplate := s.isOn "allow-insecure-template" }
    addon :=
      { image := s.value? "addon-image"
        endpoint := s.value? "addon-endpoint"
        username := s.value? "addon-username"
        password := (s.value? "addon-password").map Secret.mk
        dockerBin := s.text "docker-bin" }
    timings :=
      { gracePeriod := s.number "grace-period-secs"
        probeInterval := s.number "probe-interval-secs"
        probeAttempts := s.number "probe-attempts"
        probeTimeout := s.number "probe-timeout-secs"
        providerPoll := s.number "provider-poll-secs"
        providerPollAttempts := s.number "provider-poll-attempts"
        rejoinPoll := s.number "rejoin-poll-secs"
        rejoinPollAttempts := s.number "rejoin-poll-attempts"
        addonRetry := s.number "addon-retry-secs"
        addonRetryAttempts := s.number "addon-retry-attempts"
        leaderPoll := s.number "leader-poll-secs"
        leaderPollAttempts := s.number "leader-poll-attempts"
        apiRetry := s.number "api-retry-secs"
        apiRetryAttempts := s.number "api-retry-attempts" } }

end Scan

/-- The settings that arguments and the environment give. -/
def settings (arguments : List String) (environment : List (String × String)) :
    Except UsageError Config := do
  let grammar : Grammar := ⟨settingsFlags, [], 0, false⟩
  let (s, _) ← scan grammar arguments .start
  return (← s.finish grammar environment).settings

end SwarmUpkeep.CommandLine
