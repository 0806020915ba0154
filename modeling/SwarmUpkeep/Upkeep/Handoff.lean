import SwarmUpkeep.Upkeep.Upgrade.Replica
import SwarmUpkeep.Upkeep.Upgrade.Succession

/-!
# Completing an upgrade on its own host

The host that ran an upgrade is upgraded last, by itself: a signal in the queue of the lock names
it. It drains its replica, steps down if it is a manager, leaves the swarm, gives the lock up and
has its own machine reimaged. After the upgrade it joins the swarm through the recorded leader.
-/

namespace SwarmUpkeep

/-- Why a host could not complete its upgrade or join the swarm. -/
inductive RejoinError where
  | noLeader
  | notInScaleSet (nodeId : String) (addr : Address) (set : String)
  | joinNotVisible
  | upgrade (error : UpgradeError)
  | service (error : ServiceError)
  | records (error : RecordError)
  | lock (error : LockError)
  | operation (error : OperationError)
deriving DecidableEq, Inhabited

def RejoinError.message : RejoinError → String
  | noLeader => "No leader record to join through"
  | notInScaleSet nodeId addr set =>
      "Node " ++ nodeId ++ " (" ++ addr.text ++ ") has no instance in scale set " ++ set
  | joinNotVisible => "Local node is still not a swarm member after joining"
  | upgrade e => "Upgrade step failed: " ++ e.message
  | service e => "API error: " ++ e.message
  | records e => "State store error: " ++ e.message
  | lock e => "Upgrade lock error: " ++ e.message
  | operation e => "Provider operation error: " ++ e.message

/-- The kind of an error, with the kinds of its causes behind slashes. -/
def RejoinError.kind : RejoinError → String
  | noLeader => "NoLeader"
  | notInScaleSet _ _ _ => "NotInScaleSet"
  | joinNotVisible => "JoinNotVisible"
  | upgrade e => "Upgrade/" ++ e.kind
  | service e => "Api/" ++ e.kind
  | records e => "State/" ++ e.kind
  | lock e => "Mutex/" ++ e.kind
  | operation e => "Operation/" ++ e.kind

/-- How the handoff ended: there was nothing to do, the next signal names another node, or the
host has left the swarm and is being reimaged. -/
inductive HandoffOutcome where
  | idle
  | notForUs (target : String) (pending : Nat)
  | completed (nodeId : String)
deriving DecidableEq, Inhabited

inductive JoinOutcome where
  | alreadyMember (nodeId : String)
  | joined (nodeId : String) (leaderIp : Address) (replicaId : Option String)
deriving DecidableEq, Inhabited

namespace Handoff

open Control

/-- A manager, other than the one that steps down, that can take over. -/
def readyPeer (id : String) (managers : List Member) : Option Member :=
  managers.find? fun m => m.id != id && m.status.isReady

/-- The recorded leader. -/
def requireLeader (config : Config) : Control RejoinError LeaderRecord := do
  match ← (Records.getLeader config.swarm.recordTables).mapError .records with
  | some leader => return leader
  | none => Attempt.fail .noLeader

/-- Demotes this host in favour of a ready peer and gives the control plane of the new leader. The
last manager may only leave where the swarm may be reset: then the leader record is deleted and no
control plane remains. Once demoted, the host itself cannot tell who leads. -/
def stepDown (config : Config) (id : String) (wasLeader : Bool) :
    Control RejoinError (Option Engine) := do
  let managers ← (members .here (some .manager)).mapError .service
  match readyPeer id managers with
  | none =>
      if config.swarm.resetSingleManager then
        (Records.clearLeader config.swarm.recordTables).mapError .records
        return none
      else Attempt.fail (.upgrade .singleManager)
  | some peer =>
      (demote .here id).mapError .service
      let engine ← reach peer.addr
      let leader ← (Succession.awaitNewLeader engine id config.timings.leaderPolicy).mapError
        .upgrade
      if wasLeader then
        discard <| (Records.setLeader config.swarm.recordTables leader.addr).mapError .records
      return some (← reach leader.addr)

/-- The control plane through which this host is removed from the swarm. -/
def successor (config : Config) (me : Member) (id : String) :
    Control RejoinError (Option Engine) :=
  match me.role with
  | .manager => stepDown config id me.isLeader
  | .worker => do
      let leader ← requireLeader config
      return some (← reach leader.leaderIp)

/-- Removes this host from the swarm through another control plane. -/
def removeThrough (id : String) : Option Engine → Control RejoinError Unit
  | none => pure ()
  | some engine => (Membership.unlessGone (remove engine id)).mapError .service

/-- The machine of this host. -/
def ownMachine (set id : String) (me : Member) : Control RejoinError MachineAddress := do
  let table ← (Resolution.machineTable set).mapError .service
  match table.find? fun row => row.privateIp = me.addr with
  | some row => return row
  | none => Attempt.fail (.notInScaleSet id me.addr set)

/-- All that the named host does once it has taken the signal. The host goes down with the reimage,
so that nothing is waited for in the end. -/
def depart (site : Site) (id : String) : Control RejoinError Unit := do
  let config := site.config
  let me ← (inspect .here id).mapError .service
  let set := config.setOf me.role
  let machine ← ownMachine set id me
  let replica ← (Replica.drain site me.hostname).mapError .upgrade
  (Replica.forget site replica).mapError .records
  let engine ← successor config me id
  leave.mapError .service
  removeThrough id engine
  (Lock.release config.swarm.upgradeQueue).mapError .lock
  let operation ← (updateModel set machine.machineId).mapError .service
  (operation.await config.timings.providerPolicy ("update model of " ++ me.hostname)).mapError
    .operation
  discard <| (reimage set machine.machineId).mapError .service

/-- Completes the upgrade of this host if the next signal names it. -/
def complete (site : Site) : Control RejoinError HandoffOutcome := do
  let queue := site.config.swarm.upgradeQueue
  match ← localId.mapError .service with
  | none => return .idle
  | some id =>
      match ← (Lock.peek queue).mapError .lock with
      | none => return .idle
      | some signal =>
          if !signal.isFor id then
            return .notForUs signal.nodeId (← (Lock.pendingSignals queue).mapError .lock)
          match ← (Lock.consumeFor queue id).mapError .lock with
          | none => return .idle
          | some _ =>
              depart site id
              return .completed id

/-! ## Joining -/

/-- Registers a replica for a host that has joined as a manager. -/
def registerReplica (config : Config) (id : String) : Control RejoinError String := do
  let me ← (inspect .here id).mapError .service
  let replicaId ← (joinReplica me.hostname).mapError fun e => .upgrade (.addon e)
  (Records.putReplica config.swarm.recordTables ⟨replicaId, me.hostname, .stable⟩).mapError .records
  return replicaId

/-- Joins the swarm through the recorded leader. -/
def join (site : Site) (role : Role) : Control RejoinError JoinOutcome := do
  let config := site.config
  match ← localId.mapError .service with
  | some id => return .alreadyMember id
  | none =>
      let leader ← requireLeader config
      let engine ← reach leader.leaderIp
      let tokens ← (retryTransient config.timings.apiPolicy "fetch join tokens"
        (joinTokens engine)).mapError fun e => .upgrade (UpgradeError.ofRetry .service e)
      (joinSwarm leader.leaderIp (tokens.forRole role)).mapError .service
      match ← localId.mapError .service with
      | none => Attempt.fail .joinNotVisible
      | some id =>
          if role = .manager ∧ site.hasAddon then
            return .joined id leader.leaderIp (some (← registerReplica config id))
          else return .joined id leader.leaderIp none

end Handoff

end SwarmUpkeep
