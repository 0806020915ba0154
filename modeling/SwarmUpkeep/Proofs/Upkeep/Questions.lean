import SwarmUpkeep.Proofs.Control.Retry
import SwarmUpkeep.Upkeep.Handoff
import SwarmUpkeep.Upkeep.Health
import SwarmUpkeep.Upkeep.Upgrade.Run

/-!
# What the parts of the control loops ask

Between taking the lock and giving it up, an upgrade works on nodes: it asks nothing of the queue,
neither leaves nor joins the swarm and takes no machine away. Most of its parts do not even touch
a node, and many do not ask the swarm at all. A heal pass asks the queue only whether it exists.
-/

namespace SwarmUpkeep

open Attempt Control

/-- The partition that a question to the tables is about. -/
def TableCall.partition : TableCall → String
  | .get _ partition _ => partition
  | .upsert _ row => row.partition
  | .delete _ partition _ => partition
  | .query _ partition => partition

namespace Call

/-- A question that changes neither the queue, nor which machines there are, nor whether this host
is a member. -/
def IsWork : Call → Prop
  | .queue _ => False
  | .swarm _ .leave => False
  | .swarm _ (.join _ _) => False
  | .provider (.delete _ _) => False
  | _ => True

/-- A question of the work on nodes that leaves members and machines as they are. -/
def IsQuiet : Call → Prop
  | .queue _ => False
  | .swarm _ .leave => False
  | .swarm _ (.join _ _) => False
  | .swarm _ (.demote _) => False
  | .swarm _ (.remove _) => False
  | .provider (.delete _ _) => False
  | .provider (.updateModel _ _) => False
  | .provider (.reimage _ _) => False
  | _ => True

/-- A question that is put neither to the swarm nor to the queue and leaves machines as they are. -/
def IsAside : Call → Prop
  | .queue _ => False
  | .swarm _ _ => False
  | .provider (.delete _ _) => False
  | .provider (.updateModel _ _) => False
  | .provider (.reimage _ _) => False
  | .provider (.setCapacity _ _) => False
  | _ => True

/-- A question to the provider that leaves machines as they are, or letting time pass. -/
def IsSurvey : Call → Prop
  | .provider (.delete _ _) => False
  | .provider (.updateModel _ _) => False
  | .provider (.reimage _ _) => False
  | .provider (.setCapacity _ _) => False
  | .provider _ => True
  | .pause _ => True
  | _ => False

/-- A question by which a machine is looked at, or letting time pass. -/
def IsGlance : Call → Prop
  | .provider (.view _ _) => True
  | .probe _ => True
  | .pause _ => True
  | .now => True
  | _ => False

/-- A question that is put neither to the swarm nor to the queue and leaves machines as they are,
or one for the members of a role. -/
def ListsOnly (role : Role) : Call → Prop
  | .swarm _ (.members listed) => listed = some role
  | .swarm _ _ => False
  | c => c.IsAside

/-- A question by which a machine is renewed and members are looked after, or letting time pass. -/
def IsRenewal : Call → Prop
  | .swarm _ (.members _) => True
  | .swarm _ (.demote _) => True
  | .swarm _ (.remove _) => True
  | .provider (.machines _) => True
  | .provider (.updateModel _ _) => True
  | .provider (.reimage _ _) => True
  | .provider (.status _) => True
  | .pause _ => True
  | _ => False

/-- A question by which the nodes of a scale set are found and upgraded. -/
def IsNodeWork : Call → Prop
  | .table _ => True
  | .addon _ => True
  | .now => True
  | .provider (.interfaces _) => True
  | .provider (.view _ _) => True
  | c => c.IsRenewal

/-- A question about the records of replicas. -/
def IsFiling : Call → Prop
  | .table call => call.partition = Records.replicaPartition
  | _ => False

/-- A question by which a new leader is found and recorded. -/
def Elects (engine : Engine) : Call → Prop
  | .swarm asked (.members listed) => asked = engine ∧ listed = some .manager
  | .table _ => True
  | .now => True
  | .pause _ => True
  | _ => False

/-- A question that removes a replica from the host of a name, or is asked on the way to that. -/
def Drains (hostname : String) : Call → Prop
  | .addon (.removeReplica replica) => Ascii.sameFold replica.nodeName hostname = true
  | .table call => call.partition = Records.replicaPartition
  | .pause _ => True
  | _ => False

theorem IsQuiet.isWork {c : Call} (h : c.IsQuiet) : c.IsWork := by
  unfold IsQuiet at h
  unfold IsWork
  split at h <;> simp_all

theorem IsRenewal.isNodeWork {c : Call} (h : c.IsRenewal) : c.IsNodeWork := by
  unfold IsNodeWork
  split
  · trivial
  · trivial
  · trivial
  · trivial
  · trivial
  · exact h

theorem IsRenewal.isWork {c : Call} (h : c.IsRenewal) : c.IsWork := by
  unfold IsRenewal at h
  unfold IsWork
  split at h <;> simp_all

theorem IsNodeWork.isWork {c : Call} (h : c.IsNodeWork) : c.IsWork := by
  unfold IsNodeWork at h
  split at h
  · trivial
  · trivial
  · trivial
  · trivial
  · trivial
  · exact h.isWork

theorem IsAside.isQuiet {c : Call} (h : c.IsAside) : c.IsQuiet := by
  unfold IsAside at h
  unfold IsQuiet
  split at h <;> simp_all

theorem ListsOnly.isQuiet {role : Role} {c : Call} (h : c.ListsOnly role) : c.IsQuiet := by
  unfold ListsOnly at h
  split at h
  · trivial
  · exact h.elim
  · exact h.isQuiet

theorem IsAside.listsOnly {role : Role} {c : Call} (h : c.IsAside) : c.ListsOnly role := by
  unfold ListsOnly
  split
  · exact h.elim
  · exact h.elim
  · exact h

theorem IsSurvey.isAside {c : Call} (h : c.IsSurvey) : c.IsAside := by
  unfold IsSurvey at h
  unfold IsAside
  split at h <;> simp_all

theorem IsGlance.isAside {c : Call} (h : c.IsGlance) : c.IsAside := by
  unfold IsGlance at h
  unfold IsAside
  split at h <;> simp_all

theorem IsFiling.isAside {c : Call} (h : c.IsFiling) : c.IsAside := by
  unfold IsFiling at h
  unfold IsAside
  split at h <;> simp_all

theorem IsFiling.drains {hostname : String} {c : Call} (h : c.IsFiling) : c.Drains hostname := by
  unfold IsFiling at h
  unfold Drains
  split at h <;> simp_all

theorem Drains.isNodeWork {hostname : String} {c : Call} (h : c.Drains hostname) :
    c.IsNodeWork := by
  unfold Drains at h
  unfold IsNodeWork
  split at h <;> simp_all [IsRenewal]

theorem Elects.listsOnly {engine : Engine} {c : Call} (h : c.Elects engine) :
    c.ListsOnly .manager := by
  unfold Elects at h
  unfold ListsOnly
  split at h <;> simp_all [IsAside]

theorem Drains.isAside {hostname : String} {c : Call} (h : c.Drains hostname) : c.IsAside := by
  unfold Drains at h
  unfold IsAside
  split at h <;> simp_all

theorem IsWork.ne_queue {c : Call} (h : c.IsWork) (call : QueueCall) : c ≠ .queue call := by
  rintro rfl
  exact h

end Call

theorem Attempt.Asks.work {ε α : Type} {x : Control ε α} (h : x.Asks Call.IsQuiet) :
    x.Asks Call.IsWork :=
  h.mono fun _ hc => hc.isWork

theorem Attempt.Asks.quiet {ε α : Type} {x : Control ε α} (h : x.Asks Call.IsAside) :
    x.Asks Call.IsQuiet :=
  h.mono fun _ hc => hc.isQuiet

theorem Attempt.Asks.aside {ε α : Type} {x : Control ε α} (h : x.Asks Call.IsFiling) :
    x.Asks Call.IsAside :=
  h.mono fun _ hc => hc.isAside

theorem pause_asks {allowed : Call → Prop} (h : ∀ ms, allowed (.pause ms)) (ms : Nat) :
    (Pausing.pause ms : Program Surroundings Unit).Asks allowed :=
  Program.asks_perform (h ms)

/-! ## Records and replicas -/

namespace Records

variable (tables : RecordTables)

section Leader

variable {allowed : Call → Prop} {tables}

theorem getLeader_asks
    (hget : allowed (.table (.get tables.leader leaderPartition leaderKey)))
    (hnow : allowed .now) : (getLeader tables).Asks allowed := by
  refine Asks.bind (Asks.mapError (Program.asks_perform hget)) fun row => ?_
  cases row with
  | none => exact asks_pure none
  | some row =>
      refine (asks_ofExcept _).bind fun record => ?_
      split
      · exact asks_pure _
      · exact Asks.bind (Asks.lift (Program.asks_perform hnow)) fun _ => asks_pure _

theorem setLeader_asks
    (hupsert : ∀ record, allowed (.table (.upsert tables.leader (leaderRow record))))
    (hnow : allowed .now) (leaderIp : Address) : (setLeader tables leaderIp).Asks allowed := by
  refine Asks.bind (Asks.lift (Program.asks_perform hnow)) fun time => ?_
  exact Asks.bind (Asks.mapError (Program.asks_perform (hupsert _))) fun _ => asks_pure _

theorem clearLeader_asks
    (hdelete : allowed (.table (.delete tables.leader leaderPartition leaderKey))) :
    (clearLeader tables).Asks allowed :=
  Asks.bind (Asks.outcome (Program.asks_perform hdelete)) fun _ => (asks_ofExcept _).mapError

end Leader

/-- The replica that is found is one of the node. -/
theorem replicaForNode_upholds (nodeName : String) :
    (replicaForNode tables nodeName).Upholds (.only (Call.Drains nodeName))
      (fun found _ => ∀ replica, found = some replica →
        Ascii.sameFold replica.nodeName nodeName = true)
      (fun _ _ => True) () := by
  have hlist : (listReplicas tables).Asks (Call.Drains nodeName) :=
    Asks.bind (Asks.mapError (Program.asks_perform rfl)) fun _ => asks_ofExcept _
  refine Upholds.bind (asks_iff.mp hlist) fun replicas s _ => ?_
  intro replica hreplica
  have hnamed := List.find?_some hreplica
  exact hnamed

theorem deleteReplica_asks (replicaId : String) :
    (deleteReplica tables replicaId).Asks Call.IsFiling :=
  Asks.bind (Asks.outcome (Program.asks_perform rfl)) fun _ => (asks_ofExcept _).mapError

end Records

namespace Replica

variable (site : Site)

/-- Only the replica of a record for this host is removed. -/
theorem drain_drains (hostname : String) : (drain site hostname).Asks (Call.Drains hostname) := by
  unfold drain
  split
  · exact asks_pure none
  · refine asks_iff.mpr ?_
    have hfound := Records.replicaForNode_upholds site.config.swarm.recordTables hostname
    refine Upholds.bind hfound.renamed fun found _ hnamed => ?_
    cases found with
    | none => trivial
    | some replica =>
        have hmark : (Records.markReplica site.config.swarm.recordTables replica
            .upgradeInProgress).Upholds (.only (Call.Drains hostname))
            (fun marked _ => marked.nodeName = replica.nodeName) (fun _ _ => True) () :=
          Upholds.bind (asks_iff.mp (Asks.mapError (Program.asks_perform rfl)))
            fun _ _ _ => rfl
        refine Upholds.bind hmark.renamed fun marked _ hmarked => ?_
        refine asks_iff.mp (Asks.bind (Asks.mapError ?_) fun _ => asks_pure _)
        refine retryTransient_asks (Program.asks_perform ?_) (pause_asks fun _ => trivial)
        simp only [Call.Drains, hmarked]
        exact hnamed replica rfl

theorem drain_asks (hostname : String) : (drain site hostname).Asks Call.IsAside :=
  (drain_drains site hostname).mono fun _ hc => hc.isAside

theorem forget_asks (replica : Option ReplicaRecord) :
    (forget site replica).Asks Call.IsFiling := by
  cases replica with
  | none => exact asks_pure ()
  | some replica => exact Records.deleteReplica_asks _ replica.replicaId

end Replica

/-! ## The provider -/

theorem Operation.await_asks {allowed : Call → Prop} {operation : Operation}
    (hstatus : allowed (.provider (.status operation))) (hpause : ∀ ms, allowed (.pause ms))
    (policy : RetryPolicy) (what : String) : (operation.await policy what).Asks allowed := by
  unfold Operation.await
  split
  · exact asks_pure ()
  · refine Asks.bind (Asks.mapError (pollUntil_asks ?_ (pause_asks hpause))) ?_
    · exact Asks.bind (Program.asks_perform hstatus) fun status => asks_pure status.final?
    · intro status
      split
      · exact asks_fail _
      · exact asks_pure ()

namespace Resolution

theorem machineTable_lists {allowed : Call → Prop} {set : String}
    (hmachines : allowed (.provider (.machines set)))
    (hinterfaces : allowed (.provider (.interfaces set))) : (machineTable set).Asks allowed :=
  Asks.bind (Program.asks_perform hmachines) fun _ =>
    Asks.bind (Program.asks_perform hinterfaces) fun _ => asks_pure _

theorem machineTable_surveys (set : String) : (machineTable set).Asks Call.IsSurvey :=
  machineTable_lists trivial trivial

theorem machineTable_asks (set : String) : (machineTable set).Asks Call.IsAside :=
  (machineTable_surveys set).mono fun _ hc => hc.isAside

theorem provisioning_asks {allowed : Call → Prop} {set : String} {row : MachineAddress}
    (h : allowed (.provider (.view set row.machineId))) : (provisioning set row).Asks allowed := by
  refine Asks.bind (Asks.outcome (Program.asks_perform h)) fun found => ?_
  split
  · exact asks_pure _
  · exact asks_pure none
  · exact asks_fail _

theorem resolve_asks {allowed : Call → Prop} {set : String} {role : Role}
    (hmachines : allowed (.provider (.machines set)))
    (hinterfaces : allowed (.provider (.interfaces set)))
    (hview : ∀ machine, allowed (.provider (.view set machine)))
    (hmembers : allowed (.swarm .here (.members (some role)))) :
    (resolve set role).Asks allowed := by
  refine (machineTable_lists hmachines hinterfaces).mapError.bind fun table => ?_
  refine Asks.bind (Asks.mapError (Program.asks_perform hmembers)) fun members => ?_
  cases stray table members with
  | some m => exact asks_fail _
  | none =>
      refine Asks.bind (Asks.collect fun row _ => ?_) fun nodes => asks_pure _
      exact (provisioning_asks (hview _)).bind fun _ => asks_pure _

end Resolution

/-! ## The swarm -/

namespace Membership

theorem unlessGone_asks {allowed : Call → Prop} {action : Control ServiceError Unit}
    (h : action.Asks allowed) : (unlessGone action).Asks allowed :=
  h.outcome.bind fun _ => asks_ofExcept _

theorem evict_asks {allowed : Call → Prop} {id : String} {role : Role}
    (hdemote : role = .manager → allowed (.swarm .here (.demote id)))
    (hremove : allowed (.swarm .here (.remove id))) : (evict id role).Asks allowed := by
  unfold evict
  split
  next hrole =>
    exact Asks.bind (unlessGone_asks (Program.asks_perform (hdemote hrole))) fun _ =>
      unlessGone_asks (Program.asks_perform hremove)
  next => exact unlessGone_asks (Program.asks_perform hremove)

end Membership

namespace Succession

theorem awaitNewLeader_asks {allowed : Call → Prop} {engine : Engine}
    (hmembers : allowed (.swarm engine (.members (some .manager))))
    (hpause : ∀ ms, allowed (.pause ms)) (id : String) (policy : RetryPolicy) :
    (awaitNewLeader engine id policy).Asks allowed := by
  refine Asks.mapError (pollUntil_asks ?_ (pause_asks hpause))
  refine Asks.bind ?_ fun leader => asks_pure _
  exact Asks.bind (Program.asks_perform hmembers) fun managers => asks_pure _

theorem demoteManager_asks {allowed : Call → Prop} {config : Config} {id : String}
    (hmembers : allowed (.swarm .here (.members (some .manager))))
    (hdemote : allowed (.swarm .here (.demote id)))
    (hupsert : ∀ record, allowed
      (.table (.upsert config.swarm.recordTables.leader (Records.leaderRow record))))
    (hnow : allowed .now) (hpause : ∀ ms, allowed (.pause ms)) (hostname : String) :
    (demoteManager config hostname id).Asks allowed := by
  refine Asks.bind (Asks.mapError (Program.asks_perform hmembers)) fun managers => ?_
  refine (asks_ofExcept _).bind fun _ => ?_
  refine Asks.bind (Asks.mapError (Program.asks_perform hdemote)) fun _ => ?_
  split
  · refine (awaitNewLeader_asks hmembers hpause id _).bind fun leader => ?_
    exact Asks.discard (Asks.mapError (Records.setLeader_asks hupsert hnow leader.addr))
  · exact asks_pure ()

end Succession

/-! ## The walk of a node -/

namespace NodeWalk

theorem evictOverprovisioned_asks {allowed : Call → Prop} {set : String} {role : Role}
    (hmachines : allowed (.provider (.machines set)))
    (hmembers : allowed (.swarm .here (.members (some role))))
    (hdemote : ∀ id, allowed (.swarm .here (.demote id)))
    (hremove : ∀ id, allowed (.swarm .here (.remove id))) :
    (evictOverprovisioned set role).Asks allowed :=
  Asks.bind (Program.asks_perform hmachines) fun _ =>
    Asks.bind (Program.asks_perform hmembers) fun _ =>
      Asks.each fun _ _ => Membership.evict_asks (fun _ => hdemote _) (hremove _)

theorem awaitReimage_asks (config : Config) (set : String) (node : Node) (operation : Operation) :
    (awaitReimage config set node operation).Asks Call.IsRenewal := by
  refine (Asks.mapError (pollUntil_asks ?_ (pause_asks fun _ => trivial))).bind fun status => ?_
  · refine (evictOverprovisioned_asks trivial trivial (fun _ => trivial) fun _ => trivial).bind ?_
    intro _
    exact Asks.bind (Program.asks_perform trivial) fun status => asks_pure status.final?
  · split
    · exact asks_fail _
    · exact asks_pure ()

theorem awaitReturn_asks (config : Config) (node : Node) :
    (awaitReturn config node).Asks Call.IsRenewal := by
  refine Asks.mapError (pollUntil_asks ?_ (pause_asks fun _ => trivial))
  exact Asks.bind (Program.asks_perform trivial) fun members => asks_pure _

theorem detach_asks (site : Site) (node : Node) : (detach site node).Asks Call.IsNodeWork := by
  have hdrain := (Replica.drain_drains site node.hostname).mono fun _ hc => hc.isNodeWork
  refine hdrain.mapError.bind fun replica => ?_
  have hrest : ∀ stage : Stage, (do
      during stage .service (Membership.unlessGone (remove .here (node.memberId.getD "")))
      during stage .records (Replica.forget site replica)).Asks Call.IsNodeWork := by
    intro stage
    refine Asks.bind (Asks.mapError (Membership.unlessGone_asks (Program.asks_perform trivial))) ?_
    intro _
    have hforget : (Replica.forget site replica).Asks (Call.Drains node.hostname) :=
      (Replica.forget_asks site replica).mono fun _ hc => hc.drains
    exact (hforget.mono fun _ hc => hc.isNodeWork).mapError
  dsimp only
  split
  · have hdemoted : (Succession.demoteManager site.config node.hostname
        (node.memberId.getD "")).Asks Call.IsNodeWork :=
      Succession.demoteManager_asks trivial trivial (fun _ => trivial) trivial (fun _ => trivial)
        node.hostname
    exact hdemoted.mapError.bind fun _ => hrest _
  · exact hrest _

theorem rebuild_asks (config : Config) (set : String) (node : Node) :
    (rebuild config set node).Asks Call.IsRenewal := by
  refine Asks.bind (Asks.mapError (Program.asks_perform trivial)) fun operation => ?_
  refine (Operation.await_asks trivial (fun _ => trivial) _ _).mapError.bind fun _ => ?_
  refine Asks.bind (Asks.mapError (Program.asks_perform trivial)) fun operation => ?_
  refine (awaitReimage_asks config set node operation).mapError.bind fun _ => ?_
  exact (awaitReturn_asks config node).mapError.discard

theorem run_asks (site : Site) (set : String) (node : Node) :
    (run site set node).Asks Call.IsNodeWork := by
  refine Asks.mapError ((detach_asks site node).bind fun _ => ?_)
  have hrebuild := (rebuild_asks site.config set node).mono fun _ hc => hc.isNodeWork
  exact hrebuild.bind fun _ => asks_pure _

end NodeWalk

/-! ## The lock -/

namespace Lock

variable {allowed : Call → Prop} {queue : String}

theorem isHeld_asks (h : allowed (.queue (.exists queue))) : (isHeld queue).Asks allowed :=
  Asks.mapError (Program.asks_perform h)

theorem acquire_asks (hexists : allowed (.queue (.exists queue)))
    (hcreate : allowed (.queue (.create queue))) : (acquire queue).Asks allowed := by
  refine (isHeld_asks hexists).bind fun held => ?_
  split
  · exact asks_pure _
  · refine Asks.bind (Asks.outcome (Program.asks_perform hcreate)) fun created => ?_
    split
    · exact asks_pure _
    · exact asks_pure _
    · exact asks_pure _
    · exact asks_fail _

theorem release_asks (hdelete : allowed (.queue (.delete queue))) : (release queue).Asks allowed :=
  Asks.bind (Asks.outcome (Program.asks_perform hdelete)) fun _ => (asks_ofExcept _).mapError

theorem enqueue_asks (hnow : allowed .now) (hput : ∀ text, allowed (.queue (.put queue text)))
    (nodeId : String) : (enqueue queue nodeId).Asks allowed :=
  Asks.bind (Asks.lift (Program.asks_perform hnow)) fun _ =>
    Asks.bind (Asks.mapError (Program.asks_perform (hput _))) fun _ => asks_pure _

theorem peek_asks (hpeek : allowed (.queue (.peek queue))) : (peek queue).Asks allowed := by
  refine Asks.bind (Asks.outcome (Program.asks_perform hpeek)) fun head => ?_
  split
  · exact (asks_ofExcept _).bind fun _ => asks_pure _
  · exact asks_pure _
  · exact asks_pure _
  · exact asks_fail _

theorem pendingSignals_asks (hcount : allowed (.queue (.count queue))) :
    (pendingSignals queue).Asks allowed :=
  Asks.mapError (Program.asks_perform hcount)

theorem consumeFor_asks (hpeek : allowed (.queue (.peek queue)))
    (hget : allowed (.queue (.get queue)))
    (hdelete : ∀ message, allowed (.queue (.deleteMessage queue message))) (nodeId : String) :
    (consumeFor queue nodeId).Asks allowed := by
  refine (peek_asks hpeek).bind fun head => ?_
  cases head with
  | none => exact asks_pure _
  | some head =>
      dsimp only
      split
      · exact asks_pure _
      · refine Asks.bind (Asks.mapError (Program.asks_perform hget)) fun got => ?_
        cases got with
        | none => exact asks_pure _
        | some message =>
            refine (asks_ofExcept _).bind fun signal => ?_
            split
            · exact asks_pure _
            · exact Asks.bind (Asks.mapError (Program.asks_perform (hdelete _))) fun _ =>
                asks_pure _

end Lock

/-! ## The run -/

theorem Template.validate_asks {allowed : Call → Prop} (h : ∀ url, allowed (.template url))
    (raw : String) (allowInsecure : Bool) : (Template.validate raw allowInsecure).Asks allowed := by
  refine (asks_ofExcept _).mapError.bind fun url => ?_
  refine Asks.bind (Asks.mapError (Program.asks_perform (h url))) fun body => ?_
  split
  · exact asks_pure url
  · exact asks_fail _

namespace Upgrade

theorem upgradeNodes_asks (site : Site) (selfId : Option String) (set : String) (role : Role)
    (nodes : List Node) (progress : Progress) :
    (upgradeNodes site selfId set role nodes progress).Asks Call.IsNodeWork := by
  induction nodes generalizing progress with
  | nil => exact asks_pure progress
  | cons node rest ih =>
      unfold upgradeNodes
      split
      · exact ih _
      · split
        · exact ih _
        · exact (NodeWalk.run_asks site set node).bind fun stage => ih _

theorem upgradeSet_asks (site : Site) (selfId : Option String) (role : Role)
    (progress : Progress) : (upgradeSet site selfId role progress).Asks Call.IsNodeWork :=
  have hresolve := Resolution.resolve_asks trivial trivial (fun _ => trivial) trivial
  Asks.bind (Asks.mapError hresolve) fun _ => upgradeNodes_asks ..

theorem updateDeployment_surveys (config : Config) (template : Url) :
    (updateDeployment config template).Asks Call.IsSurvey := by
  refine Asks.bind (Asks.mapError (Program.asks_perform trivial)) fun deployment => ?_
  refine (asks_ofExcept _).bind fun parameters => ?_
  refine Asks.bind (Asks.mapError (Program.asks_perform trivial)) fun operation => ?_
  exact (Operation.await_asks trivial (fun _ => trivial) _ _).mapError

theorem updateDeployment_asks (config : Config) (template : Url) :
    (updateDeployment config template).Asks Call.IsAside :=
  (updateDeployment_surveys config template).mono fun _ hc => hc.isAside

theorem handOff_asks {allowed : Call → Prop} {site : Site} {node : Node}
    (hdrain : ∀ c, c.Drains node.hostname → allowed c) (hnow : allowed .now)
    (hput : ∀ text, allowed (.queue (.put site.config.swarm.upgradeQueue text))) (id : String) :
    (handOff site node id).Asks allowed := by
  refine ((Replica.drain_drains site node.hostname).mono hdrain).bind fun replica => ?_
  have hforget := (Replica.forget_asks site replica).mono fun c hc => hdrain c hc.drains
  refine hforget.mapError.bind fun _ => ?_
  exact (Lock.enqueue_asks hnow hput id).mapError.discard

end Upgrade

/-! ## Healing -/

namespace Health

theorem eligible_glances (config : Config) (set : String) (row : MachineAddress) :
    (eligible config set row).Asks Call.IsGlance := by
  refine Asks.bind (Asks.outcome (Program.asks_perform trivial)) fun found => ?_
  split
  · exact asks_pure _
  · exact asks_fail _
  · split
    · exact Asks.bind (Asks.lift (Program.asks_perform trivial)) fun _ => asks_pure _
    · exact asks_pure _

theorem examine_glances (config : Config) (set : String) (members : List Member)
    (row : MachineAddress) : (examine config set members row).Asks Call.IsGlance := by
  refine (eligible_glances config set row).bind fun eligible => ?_
  split
  · exact asks_pure _
  · split
    · exact asks_pure _
    · refine Asks.bind (Asks.lift (Program.Asks.bind (pollUntil_asks ?_ ?_) ?_)) fun alive => ?_
      · refine Asks.bind (Asks.lift (Program.asks_perform trivial)) fun answer => ?_
        split <;> exact asks_pure _
      · exact pause_asks fun _ => trivial
      · intro answered
        cases answered <;> exact trivial
      · split <;> exact asks_pure _

theorem examine_asks (config : Config) (set : String) (members : List Member)
    (row : MachineAddress) : (examine config set members row).Asks Call.IsAside :=
  (examine_glances config set members row).mono fun _ hc => hc.isAside

section Replacement

variable {allowed : Call → Prop} {set : String} {role : Role} {members : List Member}
variable {row : MachineAddress}

/-- Only the members at the address of a machine are evicted with it. -/
theorem replace_asks
    (hdemote : ∀ m ∈ members, m.addr = row.privateIp → role = .manager →
      allowed (.swarm .here (.demote m.id)))
    (hremove : ∀ m ∈ members, m.addr = row.privateIp → allowed (.swarm .here (.remove m.id)))
    (hdelete : allowed (.provider (.delete set row.machineId)))
    (hstatus : ∀ operation, allowed (.provider (.status operation)))
    (hpause : ∀ ms, allowed (.pause ms)) (config : Config) :
    (replace config set role members row).Asks allowed := by
  refine Asks.bind (Asks.mapError (Asks.each fun m hm => ?_)) fun _ => ?_
  · obtain ⟨hmember, hthere⟩ := List.mem_filter.mp hm
    have haddr : m.addr = row.privateIp := of_decide_eq_true hthere
    exact Membership.evict_asks (hdemote m hmember haddr) (hremove m hmember haddr)
  · refine Asks.bind (Asks.mapError (Program.asks_perform hdelete)) fun operation => ?_
    exact (Operation.await_asks (hstatus operation) hpause _ _).mapError

theorem scaleUp_asks (hcapacity : allowed (.provider (.capacity set)))
    (hset : ∀ target, allowed (.provider (.setCapacity set target)))
    (hstatus : ∀ operation, allowed (.provider (.status operation)))
    (hpause : ∀ ms, allowed (.pause ms)) (config : Config) (deleted : Nat) :
    (scaleUp config set deleted).Asks allowed := by
  refine Asks.bind (Asks.mapError (Program.asks_perform hcapacity)) fun capacity => ?_
  refine Asks.bind (Asks.mapError (Program.asks_perform (hset _))) fun operation => ?_
  exact (Operation.await_asks (hstatus operation) hpause _ _).mapError.bind fun _ => asks_pure _

end Replacement

end Health

theorem Drift.reconcile_asks {allowed : Call → Prop} {config : Config} {set : String} {role : Role}
    (hlock : allowed (.queue (.exists config.swarm.upgradeQueue)))
    (hsurvey : ∀ c, c.IsSurvey → allowed c)
    (hmembers : allowed (.swarm .here (.members (some role))))
    (hdemote : ∀ id, role = .manager → allowed (.swarm .here (.demote id)))
    (hremove : ∀ id, allowed (.swarm .here (.remove id))) :
    (reconcile config set role).Asks allowed := by
  refine (Lock.isHeld_asks hlock).mapError.bind fun held => ?_
  cases held with
  | true => exact asks_pure _
  | false =>
      refine ((Resolution.machineTable_surveys set).mono hsurvey).mapError.bind fun table => ?_
      refine Asks.bind (Asks.mapError (Program.asks_perform hmembers)) fun members => ?_
      refine Asks.bind (Asks.mapError (Asks.each fun m _ => ?_)) fun _ => asks_pure _
      exact Membership.evict_asks (hdemote m.id) (hremove m.id)

/-! ## The handoff -/

namespace Handoff

theorem ownMachine_surveys (set id : String) (me : Member) :
    (ownMachine set id me).Asks Call.IsSurvey := by
  refine (Resolution.machineTable_surveys set).mapError.bind fun table => ?_
  split
  · exact asks_pure _
  · exact asks_fail _

theorem ownMachine_asks (set id : String) (me : Member) :
    (ownMachine set id me).Asks Call.IsAside :=
  (ownMachine_surveys set id me).mono fun _ hc => hc.isAside

theorem requireLeader_asks {allowed : Call → Prop} {config : Config}
    (hget : allowed (.table (.get config.swarm.recordTables.leader Records.leaderPartition
      Records.leaderKey)))
    (hnow : allowed .now) : (requireLeader config).Asks allowed := by
  refine (Records.getLeader_asks hget hnow).mapError.bind fun leader => ?_
  cases leader with
  | some leader => exact asks_pure leader
  | none => exact asks_fail _

theorem reach_asks {ε : Type} (addr : Address) : (reach addr : Control ε Engine).Asks Call.IsWork :=
  ⟨trivial, fun _ _ _ => trivial⟩

theorem stepDown_asks (config : Config) (id : String) (wasLeader : Bool) :
    (stepDown config id wasLeader).Asks Call.IsWork := by
  refine Asks.bind (Asks.mapError (Program.asks_perform trivial)) fun managers => ?_
  split
  · split
    · exact (Records.clearLeader_asks trivial).mapError.bind fun _ => asks_pure none
    · exact asks_fail _
  · refine Asks.bind (Asks.mapError (Program.asks_perform trivial)) fun _ => ?_
    refine (reach_asks _).bind fun engine => ?_
    refine Asks.bind (Asks.mapError (Succession.awaitNewLeader_asks trivial (fun _ => trivial) id
      config.timings.leaderPolicy)) fun leader => ?_
    split
    · refine Asks.bind (Asks.discard (Asks.mapError (Records.setLeader_asks (fun _ => trivial)
        trivial leader.addr))) fun _ => ?_
      exact (reach_asks _).bind fun engine => asks_pure _
    · exact (reach_asks _).bind fun engine => asks_pure _

theorem successor_asks (config : Config) (me : Member) (id : String) :
    (successor config me id).Asks Call.IsWork := by
  unfold successor
  split
  · exact stepDown_asks config id me.isLeader
  · refine (requireLeader_asks trivial trivial).bind fun leader => ?_
    exact (reach_asks _).bind fun engine => asks_pure _

theorem removeThrough_asks (id : String) (engine : Option Engine) :
    (removeThrough id engine).Asks Call.IsWork := by
  cases engine with
  | none => exact asks_pure ()
  | some engine => exact Asks.mapError (Membership.unlessGone_asks (Program.asks_perform trivial))

end Handoff

end SwarmUpkeep
