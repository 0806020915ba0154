import SwarmUpkeep.Config.Settings
import SwarmUpkeep.Upkeep.Membership
import SwarmUpkeep.Upkeep.Upgrade.Error

/-!
# Demoting managers

A manager is demoted only while every other manager is ready and there is one. If the swarm has
lost its leader by that, the leader that it elects is recorded.
-/

namespace SwarmUpkeep.Succession

open Control

/-- Waits until the swarm reports another leader than the manager that was demoted. -/
def awaitNewLeader (engine : Engine) (demotedId : String) (policy : RetryPolicy) :
    Control UpgradeError Member :=
  (pollUntil policy "new leader election" do
    let leader ← Membership.currentLeader engine
    return leader.filter fun l => l.id != demotedId).mapError (UpgradeError.ofRetry .service)

/-- Whether a manager may be demoted, given the listing of all managers. -/
def guardQuorum (hostname id : String) (managers : List Member) : Except UpgradeError Unit :=
  let others := managers.filter fun m => m.id != id
  let unready := (others.filter fun m => !m.status.isReady).map (·.hostname)
  if others.isEmpty then .error .singleManager
  else if unready.isEmpty then .ok ()
  else .error (.quorumRisk hostname unready)

/-- Demotes a manager and, if it led the swarm, records its successor. -/
def demoteManager (config : Config) (hostname id : String) : Control UpgradeError Unit := do
  let managers ← (members .here (some .manager)).mapError .service
  Attempt.ofExcept (guardQuorum hostname id managers)
  (demote .here id).mapError .service
  if managers.any fun m => m.id == id && m.isLeader then
    let leader ← awaitNewLeader .here id config.timings.leaderPolicy
    discard <| (Records.setLeader config.swarm.recordTables leader.addr).mapError .records

end SwarmUpkeep.Succession
