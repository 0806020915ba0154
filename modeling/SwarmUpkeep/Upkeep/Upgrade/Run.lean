import SwarmUpkeep.Upkeep.Upgrade.NodeWalk
import SwarmUpkeep.Upkeep.Upgrade.Template

/-!
# An upgrade of the swarm

Under the upgrade lock the deployment is pointed at the new template and then every manager and
after them every worker is upgraded, one at a time. The host on which the upgrade runs is left out;
when all others are done, the lock is handed over to it together with the task to complete its own
upgrade. A run that fails gives the lock up.
-/

namespace SwarmUpkeep.Upgrade

open Control

/-- A node that has been upgraded. -/
structure NodeReport where
  hostname : String
  role : Role
  stage : Stage
deriving DecidableEq, Inhabited

/-- What a run has done. Nodes stand in the order in which they were upgraded; skipped are the
machines on which no member runs. -/
structure Report where
  template : Url
  nodes : List NodeReport
  skipped : List String
  handedOff : Option String
  lockReleased : Bool
deriving DecidableEq, Inhabited

/-- How far a run has come. -/
structure Progress where
  nodes : List NodeReport
  skipped : List String
  own : Option Node
deriving DecidableEq, Inhabited

namespace Progress

def start : Progress :=
  ⟨[], [], none⟩

def upgraded (progress : Progress) (report : NodeReport) : Progress :=
  { progress with nodes := progress.nodes ++ [report] }

def skip (progress : Progress) (hostname : String) : Progress :=
  { progress with skipped := progress.skipped ++ [hostname] }

def withOwn (progress : Progress) (node : Node) : Progress :=
  { progress with own := some node }

end Progress

/-- Whether a node is the host on which the run takes place. -/
def isOwn (selfId : Option String) (node : Node) : Bool :=
  selfId.any node.hasId

/-- Upgrades the nodes of a scale set in turn. -/
def upgradeNodes (site : Site) (selfId : Option String) (set : String) (role : Role) :
    List Node → Progress → Control UpgradeError Progress
  | [], progress => pure progress
  | node :: rest, progress =>
      if isOwn selfId node then
        upgradeNodes site selfId set role rest (progress.withOwn node)
      else if !node.isMember then
        upgradeNodes site selfId set role rest (progress.skip node.hostname)
      else do
        let stage ← NodeWalk.run site set node
        upgradeNodes site selfId set role rest (progress.upgraded ⟨node.hostname, role, stage⟩)

/-- Resolves a scale set and upgrades its nodes. -/
def upgradeSet (site : Site) (selfId : Option String) (role : Role) (progress : Progress) :
    Control UpgradeError Progress := do
  let set := site.config.setOf role
  let resolved ← (Resolution.resolve set role).mapError .resolution
  upgradeNodes site selfId set role resolved.nodes progress

/-- Points the deployment at a template and supplies its parameters again. -/
def updateDeployment (config : Config) (template : Url) : Control UpgradeError Unit := do
  let name := config.swarm.deploymentName
  let deployment ← (deployment name).mapError .service
  let parameters ← Attempt.ofExcept (Template.carriedForward config deployment.parameters)
  let operation ← (Control.updateDeployment name template parameters).mapError .service
  (operation.await config.timings.providerPolicy ("update deployment " ++ name)).mapError .operation

/-- Whether the swarm may be upgraded, given the listing of its managers. A single manager may be
only if it is the host of the run and may be reset. -/
def guardManagers (config : Config) (selfId : Option String) : List Member →
    Except UpgradeError Unit
  | [only] =>
      if selfId = some only.id ∧ config.swarm.resetSingleManager then .ok ()
      else .error .singleManager
  | _ => .ok ()

/-- Drains the host of the run and names it in a signal; the lock stays held. -/
def handOff (site : Site) (node : Node) (id : String) : Control UpgradeError Unit := do
  let replica ← Replica.drain site node.hostname
  (Replica.forget site replica).mapError .records
  discard <| (Lock.enqueue site.config.swarm.upgradeQueue id).mapError .lock

/-- Hands the lock over to the host of the run, or gives it up where the host is no node. -/
def conclude (site : Site) (selfId : Option String) (template : Url) (progress : Progress) :
    Control UpgradeError Report := do
  let report : Report := ⟨template, progress.nodes, progress.skipped, none, false⟩
  match progress.own, selfId with
  | some node, some id =>
      handOff site node id
      return { report with handedOff := some id }
  | _, _ =>
      (Lock.release site.config.swarm.upgradeQueue).mapError .lock
      return { report with lockReleased := true }

/-- All that is done under the lock. -/
def runLocked (site : Site) (template : Url) : Control UpgradeError Report := do
  let selfId ← localId.mapError .service
  let managers ← (members .here (some .manager)).mapError .service
  Attempt.ofExcept (guardManagers site.config selfId managers)
  updateDeployment site.config template
  let progress ← upgradeSet site selfId .manager .start
  let progress ← upgradeSet site selfId .worker progress
  conclude site selfId template progress

/-- Gives the lock up after a failure. That this fails too is not told. -/
def abandon (site : Site) (error : UpgradeError) : Control UpgradeError Report := do
  discard <| (Lock.release site.config.swarm.upgradeQueue).outcome
  Attempt.fail error

/-- Upgrades the swarm to the template that a text names. -/
def run (site : Site) (templateUrl : String) : Control UpgradeError Report := do
  let template ← Template.validate templateUrl site.config.swarm.allowInsecureTemplate
  match ← (Lock.acquire site.config.swarm.upgradeQueue).mapError .lock with
  | .alreadyLocked => Attempt.fail .alreadyInProgress
  | .acquired =>
      match ← (runLocked site template).outcome with
      | .ok report => return report
      | .error e => abandon site e

end SwarmUpkeep.Upgrade
