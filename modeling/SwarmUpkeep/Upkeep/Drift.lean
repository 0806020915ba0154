import SwarmUpkeep.Config.Settings
import SwarmUpkeep.Upkeep.Lock
import SwarmUpkeep.Upkeep.Membership
import SwarmUpkeep.Upkeep.Resolution

/-!
# Drift

A member whose address belongs to no machine of its scale set has drifted, as a rule because its
machine was deleted. It is evicted unless the swarm still reports it ready. Members that have a
machine are left alone, whatever their status, and so is everything while an upgrade is under way.
-/

namespace SwarmUpkeep

/-- Why drift could not be reconciled. -/
inductive DriftError where
  | service (error : ServiceError)
  | lock (error : LockError)
deriving DecidableEq, Inhabited

def DriftError.message : DriftError → String
  | service e => "API error: " ++ e.message
  | lock e => "Upgrade lock error: " ++ e.message

/-- The kind of an error, with the kinds of its causes behind slashes. -/
def DriftError.kind : DriftError → String
  | service e => "Api/" ++ e.kind
  | lock e => "Mutex/" ++ e.kind

namespace Drift

open Control

/-- The hostnames of the members that were evicted, and of those that have no machine but are
ready. -/
structure Report where
  scaleSet : String
  removed : List String
  orphanedReady : List String
deriving DecidableEq, Inhabited

inductive Outcome where
  | stoodDown
  | reconciled (report : Report)
deriving DecidableEq, Inhabited

/-- The members of which no machine has the address. -/
def drifted (table : List MachineAddress) (members : List Member) : List Member :=
  members.filter fun m => !(table.any fun row => row.privateIp = m.addr)

/-- Brings the members of a role in line with the machines of a scale set. -/
def reconcile (config : Config) (set : String) (role : Role) : Control DriftError Outcome := do
  if ← (Lock.isHeld config.swarm.upgradeQueue).mapError .lock then return .stoodDown
  let table ← (Resolution.machineTable set).mapError .service
  let members ← (members .here (some role)).mapError .service
  let drifted := drifted table members
  let (ready, stale) := drifted.partition (·.status.isReady)
  (Attempt.each (fun m => Membership.evict m.id role) stale).mapError .service
  return .reconciled ⟨set, stale.map (·.hostname), ready.map (·.hostname)⟩

end Drift

end SwarmUpkeep
