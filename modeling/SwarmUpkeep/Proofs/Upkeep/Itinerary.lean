import SwarmUpkeep.Proofs.Control.Log
import SwarmUpkeep.Proofs.World.Runs
import SwarmUpkeep.Upkeep.Handoff

/-!
# The order of a handoff

A host that completes its own upgrade has done one thing after another, whoever has answered it: it
has taken the signal, drained its replica, stepped down if it is a manager, left the swarm and been
removed, given the lock up and had its machine renewed. What it has asked on the way is known to the
last question, apart from the looks at the queue and the time that it has spent waiting.
-/

namespace SwarmUpkeep

open Attempt Control

namespace Itinerary

abbrev Log :=
  List (Exchange Surroundings)

/-! ## Steps -/

/-- The leader of a listing, if that is another manager than the one that was demoted. -/
def newLeader (id : String) (managers : List Member) : Option Member :=
  (managers.find? (·.isLeader)).filter fun l => l.id != id

/-- Something has been deleted, or was gone already. -/
inductive IsGone : Except ServiceError Unit → Prop
  | deleted : IsGone (.ok ())
  | missing (what : String) : IsGone (.error (.notFound what))

/-- The message that is taken from the queue is a signal that names this host. -/
inductive Taking (queue id : String) : Log → Prop
  | taken {message : Message} {signal : RejoinSignal}
      (hparse : RejoinSignal.parse? message.text = some signal) (hnamed : signal.nodeId = id) :
      Taking queue id [⟨.queue (.deleteMessage queue message), .ok ()⟩]

/-- The machine of this host is looked up in the listings of its scale set. -/
inductive Lookup (set : String) (me : Member) : MachineAddress → Log → Prop
  | found {machines : List Machine} {interfaces : List NetworkInterface} {machine : MachineAddress}
      (hfind : (Resolution.addressed machines interfaces).find?
        (fun row => row.privateIp = me.addr) = some machine) :
      Lookup set me machine
        [⟨.provider (.machines set), .ok machines⟩, ⟨.provider (.interfaces set), .ok interfaces⟩]

/-- The replica on this host, if the add-on has one here, is marked and then removed. -/
inductive Drainage (site : Site) (hostname : String) : Option ReplicaRecord → Log → Prop
  | uninstalled (haddon : site.hasAddon = false) : Drainage site hostname none []
  | vacant {rows : List Row} {replicas : List ReplicaRecord} (haddon : site.hasAddon = true)
      (hrows : rows.mapM Records.replicaOfRow = .ok replicas)
      (hfind : replicas.find? (fun r => Ascii.sameFold r.nodeName hostname) = none) :
      Drainage site hostname none
        [⟨.table (.query site.config.swarm.replicaTable Records.replicaPartition), .ok rows⟩]
  | drained {rows : List Row} {replicas : List ReplicaRecord} {replica marked : ReplicaRecord}
      (haddon : site.hasAddon = true) (hrows : rows.mapM Records.replicaOfRow = .ok replicas)
      (hfind : replicas.find? (fun r => Ascii.sameFold r.nodeName hostname) = some replica)
      (hmarked : marked = { replica with description := .upgradeInProgress }) :
      Drainage site hostname (some marked)
        [⟨.table (.query site.config.swarm.replicaTable Records.replicaPartition), .ok rows⟩,
          ⟨.table (.upsert site.config.swarm.replicaTable (Records.replicaRow marked)), .ok ()⟩,
          ⟨.addon (.removeReplica marked), .ok ()⟩]

/-- The record of the replica that has been drained is deleted. -/
inductive Forgetting (table : String) : Option ReplicaRecord → Log → Prop
  | unneeded : Forgetting table none []
  | forgotten {replica : ReplicaRecord} {answer : Except ServiceError Unit} (hgone : IsGone answer) :
      Forgetting table (some replica)
        [⟨.table (.delete table Records.replicaPartition replica.replicaId), answer⟩]

/-- The new leader is recorded if this host has led the swarm, and only then. -/
inductive Entry (table : String) (me leader : Member) : Log → Prop
  | unneeded (hled : me.isLeader = false) : Entry table me leader []
  | recorded {time : Instant} (hled : me.isLeader = true) :
      Entry table me leader
        [⟨.table (.upsert table (Records.leaderRow ⟨leader.addr, time⟩)), .ok ()⟩]

/-- The control plane that this host is removed through is found. A manager with a ready peer is
demoted, and the peer tells who leads the swarm then; one without a peer clears the leader record,
and there is none to remove it; a worker reads the leader record. -/
inductive Succession (settings : SwarmSettings) (id : String) (me : Member) :
    Option Engine → Log → Prop
  | deferred {managers elected : List Member} {peer leader : Member} {entry : Log}
      (hrole : me.role = .manager) (hpeer : Handoff.readyPeer id managers = some peer)
      (hleader : newLeader id elected = some leader)
      (hentry : Entry settings.leaderTable me leader entry) :
      Succession settings id me (some (.at leader.addr))
        (⟨.swarm .here (.members (some .manager)), .ok managers⟩ ::
          ⟨.swarm .here (.demote id), .ok ()⟩ ::
          ⟨.swarm (.at peer.addr) (.members (some .manager)), .ok elected⟩ :: entry)
  | reset {managers : List Member} {answer : Except ServiceError Unit}
      (hrole : me.role = .manager) (hpeer : Handoff.readyPeer id managers = none)
      (hreset : settings.resetSingleManager = true) (hgone : IsGone answer) :
      Succession settings id me none
        [⟨.swarm .here (.members (some .manager)), .ok managers⟩,
          ⟨.table (.delete settings.leaderTable Records.leaderPartition Records.leaderKey), answer⟩]
  | recorded {row : Row} {leaderIp : Address} {time : Option Instant} (hrole : me.role = .worker)
      (hread : Records.leaderOfRow row = .ok (leaderIp, time)) :
      Succession settings id me (some (.at leaderIp))
        [⟨.table (.get settings.leaderTable Records.leaderPartition Records.leaderKey),
          .ok (some row)⟩]

/-- The host that has left is removed through another control plane, if one remains. -/
inductive Removal (id : String) : Option Engine → Log → Prop
  | unneeded : Removal id none []
  | removed {engine : Engine} {answer : Except ServiceError Unit} (hgone : IsGone answer) :
      Removal id (some engine) [⟨.swarm engine (.remove id), answer⟩]

/-- An operation that is not finished at once is reported to have succeeded. -/
inductive Completion : Operation → Log → Prop
  | atOnce : Completion .done []
  | awaited {operation : Operation} (hpending : operation ≠ .done) :
      Completion operation [⟨.provider (.status operation), .ok .succeeded⟩]

/-- The model of a machine is updated to the end before the machine is reimaged. -/
inductive Renewal (set machine : String) : Log → Prop
  | renewed {update reimage : Operation} {completion : Log} (hdone : Completion update completion) :
      Renewal set machine (⟨.provider (.updateModel set machine), .ok update⟩ ::
        (completion ++ [⟨.provider (.reimage set machine), .ok reimage⟩]))

/-- What a host does once it has taken the signal, from the look at itself to the reimage. -/
inductive Departing (site : Site) (id : String) : Log → Prop
  | departed {me : Member} {machine : MachineAddress} {replica : Option ReplicaRecord}
      {engine : Option Engine} {lookup drainage forgetting succession removal renewal : Log}
      {release : Except ServiceError Unit}
      (hlookup : Lookup (site.config.setOf me.role) me machine lookup)
      (hdrainage : Drainage site me.hostname replica drainage)
      (hforgetting : Forgetting site.config.swarm.replicaTable replica forgetting)
      (hsuccession : Succession site.config.swarm id me engine succession)
      (hremoval : Removal id engine removal) (hreleased : IsGone release)
      (hrenewal : Renewal (site.config.setOf me.role) machine.machineId renewal) :
      Departing site id
        (⟨.swarm .here (.inspect id), .ok me⟩ :: (lookup ++ (drainage ++ (forgetting ++ (succession ++
          (⟨.swarm .here .leave, .ok ()⟩ :: (removal ++
            (⟨.queue (.delete site.config.swarm.upgradeQueue), release⟩ :: renewal))))))))

/-- All the steps of a handoff that has been completed. -/
inductive Completing (site : Site) (id : String) : Log → Prop
  | completed {taking departing : Log} (htaking : Taking site.config.swarm.upgradeQueue id taking)
      (hdeparting : Departing site id departing) :
      Completing site id (⟨.swarm .here .localId, .ok (some id)⟩ :: (taking ++ departing))

variable {id hostname set machine what : String} {site : Site} {me : Member}
variable {tables : RecordTables}

/-! ## Single questions -/

end Itinerary

namespace World

end World

end SwarmUpkeep
