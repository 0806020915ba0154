import SwarmUpkeep.Config.Settings
import SwarmUpkeep.Upkeep.Upgrade.Error

/-!
# Draining the add-on

Before a node leaves the swarm, the add-on's replica on it is removed. Its record is marked before
that, so that a drain that ends halfway leaves a trace, and deleted only when the node is out of
the swarm.
-/

namespace SwarmUpkeep.Replica

/-- Removes the replica that a node hosts, if there is an add-on and it has one there. -/
def drain (site : Site) (hostname : String) : Control UpgradeError (Option ReplicaRecord) :=
  if !site.hasAddon then pure none
  else do
    let tables := site.config.swarm.recordTables
    match ← (Records.replicaForNode tables hostname).mapError .records with
    | none => return none
    | some replica =>
        let replica ← (Records.markReplica tables replica .upgradeInProgress).mapError .records
        (retryTransient site.config.timings.addonPolicy ("remove replica " ++ replica.replicaId)
          (Control.removeReplica replica)).mapError (UpgradeError.ofRetry .addon)
        return some replica

/-- Deletes the record of a replica that has been drained, if there was one. -/
def forget (site : Site) : Option ReplicaRecord → Control RecordError Unit
  | none => pure ()
  | some replica => Records.deleteReplica site.config.swarm.recordTables replica.replicaId

end SwarmUpkeep.Replica
