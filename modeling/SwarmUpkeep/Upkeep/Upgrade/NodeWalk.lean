import SwarmUpkeep.Upkeep.Upgrade.Replica
import SwarmUpkeep.Upkeep.Upgrade.Succession

/-!
# Walking a node through its upgrade

A node is drained, demoted if it is a manager, removed from the swarm, given the new model and
reimaged, and it is done when a ready member of its name is back. While it is being reimaged,
members that no machine of the scale set stands behind are evicted, since the host comes back under
a new identity and leaves its old one.

What fails is told together with the stage that the node was in.
-/

namespace SwarmUpkeep.NodeWalk

open Control

/-- A part of the walk that fails in a stage. -/
def during {ε α : Type} (stage : Stage) (kind : ε → UpgradeError) (x : Control ε α) :
    Control (Stage × UpgradeError) α :=
  x.mapError fun e => (stage, kind e)

/-- Members of which no machine has the name. -/
def overprovisioned (machines : List Machine) (members : List Member) : List Member :=
  members.filter fun m => !(machines.any fun i => Ascii.sameFold i.computerName m.hostname)

/-- Evicts the members of a role that no machine of the scale set stands behind. -/
def evictOverprovisioned (set : String) (role : Role) : Control ServiceError Unit := do
  let machines ← machines set
  let members ← members .here (some role)
  Attempt.each (fun m => Membership.evict m.id role) (overprovisioned machines members)

/-- Waits until the reimage is final. -/
def awaitReimage (config : Config) (set : String) (node : Node) (operation : Operation) :
    Control UpgradeError Unit := do
  let what := "reimage of " ++ node.hostname
  let status ← (pollUntil config.timings.providerPolicy what do
    evictOverprovisioned set node.role
    let status ← operationStatus operation
    return status.final?).mapError (UpgradeError.ofRetry .service)
  match status with
  | .failed reason => Attempt.fail (.operation (.failed what reason))
  | _ => return ()

/-- The ready member of a name. -/
def returned (hostname : String) (members : List Member) : Option Member :=
  members.find? fun m => Ascii.sameFold m.hostname hostname && m.status.isReady

/-- Waits until the node is back in the swarm. -/
def awaitReturn (config : Config) (node : Node) : Control UpgradeError Member :=
  (pollUntil config.timings.rejoinPolicy (node.hostname ++ " to rejoin") do
    let members ← members .here (some node.role)
    return returned node.hostname members).mapError (UpgradeError.ofRetry .service)

/-- The stage of a node that waits for its demotion or removal. -/
def drained (site : Site) : Stage :=
  if site.hasAddon then .drainingAddon else .active

/-- Takes the node out of the swarm, and with it the record of the replica that it hosted. -/
def detach (site : Site) (node : Node) : Control (Stage × UpgradeError) Unit := do
  let id := node.memberId.getD ""
  let replica ← during (drained site) (fun e => e) (Replica.drain site node.hostname)
  let stage := if node.role = .manager then .demoted else drained site
  if node.role = .manager then
    during (drained site) (fun e => e) (Succession.demoteManager site.config node.hostname id)
  during stage .service (Membership.unlessGone (remove .here id))
  during stage .records (Replica.forget site replica)

/-- Puts the new model on the machine and waits for the node to come back. -/
def rebuild (config : Config) (set : String) (node : Node) :
    Control (Stage × UpgradeError) Unit := do
  let operation ← during .removedFromMembership .service (updateModel set node.instanceId)
  during .removedFromMembership .operation
    (operation.await config.timings.providerPolicy ("update model of " ++ node.hostname))
  let operation ← during .modelUpdated .service (reimage set node.instanceId)
  during .reimaging (fun e => e) (awaitReimage config set node operation)
  discard <| during .booting (fun e => e) (awaitReturn config node)

/-- Upgrades one node and gives the stage that it has reached. -/
def run (site : Site) (set : String) (node : Node) : Control UpgradeError Stage :=
  Attempt.mapError (fun (stage, cause) => .aborted node.hostname stage cause) do
    detach site node
    rebuild site.config set node
    return Stage.rejoined

end SwarmUpkeep.NodeWalk
