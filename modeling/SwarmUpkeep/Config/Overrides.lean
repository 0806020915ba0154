import SwarmUpkeep.Config.Settings
import SwarmUpkeep.Json.Fields
import SwarmUpkeep.Net.Url.Reader

/-!
# Overriding settings

Settings can be described by what differs from others: an object with a field for each setting that
is to be another one. The field `timings` stands for all timings at once, and single timings are
counted on top of it.
-/

namespace SwarmUpkeep.Config

open Json.Fields

/-- The place that a text names. -/
def place? (j : Json) : Option Url :=
  j.text?.bind fun s => (Url.parse s).toOption

/-- A text, or `null` where there is none. -/
def textOrNull (name : String) : Json → Reading (Option String)
  | .null => .ok none
  | v => need name (v.text?.map some)

/-- Sets the setting of a name. -/
def override (c : Config) (name : String) (v : Json) : Reading Config :=
  let text : Reading String := need name v.text?
  let number : Reading Nat := need name (nat? v)
  let switch : Reading Bool := need name v.bool?
  match name with
  | "timings" => .ok c
  | "subscription_id" => return { c with cloud.subscriptionId := ← text }
  | "resource_group" => return { c with cloud.resourceGroup := ← text }
  | "tenant_id" => return { c with cloud.tenantId := ← text }
  | "app_id" => return { c with cloud.appId := ← text }
  | "app_secret" => return { c with cloud.appSecret := ⟨← text⟩ }
  | "storage_account" => return { c with cloud.storageAccount := ← text }
  | "manager_scale_set" => return { c with swarm.managerSet := ← text }
  | "worker_scale_set" => return { c with swarm.workerSet := ← text }
  | "deployment_name" => return { c with swarm.deploymentName := ← text }
  | "leader_table" => return { c with swarm.leaderTable := ← text }
  | "replica_table" => return { c with swarm.replicaTable := ← text }
  | "upgrade_queue" => return { c with swarm.upgradeQueue := ← text }
  | "docker_host" => return { c with swarm.dockerHost := ← need name (place? v) }
  | "swarm_port" => return { c with swarm.swarmPort := ← number }
  | "diagnostic_port" => return { c with swarm.diagnosticPort := ← number }
  | "secret_parameter" => return { c with swarm.secretParameter := ← text }
  | "reset_single_manager" => return { c with swarm.resetSingleManager := ← switch }
  | "allow_insecure_template" => return { c with swarm.allowInsecureTemplate := ← switch }
  | "addon_image" => return { c with addon.image := ← textOrNull name v }
  | "addon_endpoint" => return { c with addon.endpoint := ← textOrNull name v }
  | "addon_username" => return { c with addon.username := ← textOrNull name v }
  | "addon_password" => return { c with addon.password := (← textOrNull name v).map Secret.mk }
  | "docker_bin" => return { c with addon.dockerBin := ← text }
  | "grace_period_secs" => return { c with timings.gracePeriod := ← number }
  | "probe_interval_secs" => return { c with timings.probeInterval := ← number }
  | "probe_attempts" => return { c with timings.probeAttempts := ← number }
  | "probe_timeout_secs" => return { c with timings.probeTimeout := ← number }
  | "provider_poll_secs" => return { c with timings.providerPoll := ← number }
  | "provider_poll_attempts" => return { c with timings.providerPollAttempts := ← number }
  | "rejoin_poll_secs" => return { c with timings.rejoinPoll := ← number }
  | "rejoin_poll_attempts" => return { c with timings.rejoinPollAttempts := ← number }
  | "addon_retry_secs" => return { c with timings.addonRetry := ← number }
  | "addon_retry_attempts" => return { c with timings.addonRetryAttempts := ← number }
  | "leader_poll_secs" => return { c with timings.leaderPoll := ← number }
  | "leader_poll_attempts" => return { c with timings.leaderPollAttempts := ← number }
  | "api_retry_secs" => return { c with timings.apiRetry := ← number }
  | "api_retry_attempts" => return { c with timings.apiRetryAttempts := ← number }
  | _ => .error name

/-- The settings that differ from others as described. -/
def overrideAll (base : Config) (overrides : Json.Members) : Reading Config :=
  let standard := (overrides.find? "timings").bind Json.text? = some "default"
  let base := if standard then { base with timings := .standard } else base
  overrides.foldlM (fun c (name, v) => c.override name v) base

end SwarmUpkeep.Config
