import SwarmUpkeep.Proofs.Upkeep.Course
import SwarmUpkeep.Proofs.Upkeep.OwnHost
import SwarmUpkeep.Proofs.World.Runs

/-!
# An upgrade and the host on which it runs

An upgrade leaves its own host alone wherever the listings of members let it recognise the host: by
the address that the resolution joins on, and by the hostname by which members without a machine
are evicted. Neither is checked, and either way round an upgrade can come to its own host.
-/

namespace SwarmUpkeep

namespace Call

variable {own : String} {isOwn : String → String → Prop} {c : Call}

theorem IsPrologue.leavesAlone (h : c.IsPrologue) : c.LeavesAlone own isOwn := by
  unfold IsPrologue at h
  unfold LeavesAlone
  split at h <;> simp_all

theorem IsEpilogue.leavesAlone (h : c.IsEpilogue) : c.LeavesAlone own isOwn := by
  unfold IsEpilogue at h
  unfold LeavesAlone
  split at h <;> simp_all

end Call

namespace World

open Attempt Control

/-- The address of a machine, as the provider lists it. -/
def address? (w : World) (set machine : String) : Option Address :=
  (w.layout set).bind fun (_, interfaces) => Resolution.primaryIp interfaces machine

/-- Among the members of a listing, this host has the name of a machine of the scale set, and
nobody else is picked for its address. -/
structure Recognises (listed : Option (List Machine × List NetworkInterface)) (own : String)
    (addr : Address) (members : List Member) : Prop where
  named : ∀ machines interfaces, listed = some (machines, interfaces) → ∀ m ∈ members, m.id = own →
    (machines.any fun i => Ascii.sameFold i.computerName m.hostname) = true
  picked : ∀ m, Resolution.memberAt members addr = some m → m.id = own

instance (listed : Option (List Machine × List NetworkInterface)) (own : String) (addr : Address)
    (members : List Member) : Decidable (Recognises listed own addr members) :=
  decidable_of_iff
    ((∀ entry ∈ listed, ∀ m ∈ members, m.id = own →
        (entry.1.any fun i => Ascii.sameFold i.computerName m.hostname) = true) ∧
      ∀ m ∈ Resolution.memberAt members addr, m.id = own)
    ⟨fun ⟨hnamed, hpicked⟩ =>
        ⟨fun machines interfaces h => hnamed (machines, interfaces) h, hpicked⟩,
      fun h => ⟨fun entry => h.named entry.1 entry.2, h.picked⟩⟩

/-- Where a role is listed, the listing lets this host be recognised. -/
def RecognisedAt (site : Site) (origin : World) (own : String) (addr : Address) (w : World) :
    Call → Prop
  | .swarm .here (.members (some role)) =>
      ∀ members, (w.respond (.swarm .here (.members (some role)))).1 = .ok members →
        Recognises (origin.layout (site.config.setOf role)) own addr members
  | _ => True

instance (site : Site) (origin : World) (own : String) (addr : Address) (w : World) :
    DecidablePred (RecognisedAt site origin own addr w)
  | .swarm .here (.members (some role)) =>
      match h : (w.respond (.swarm .here (.members (some role)))).1 with
      | .ok members =>
          decidable_of_iff (Recognises (origin.layout (site.config.setOf role)) own addr members)
            (by simp [RecognisedAt, h])
      | .error e => isTrue (by simp [RecognisedAt, h])
  | .swarm .here (.members none) | .swarm .here (.inspect _) | .swarm .here .localId
  | .swarm .here (.demote _) | .swarm .here (.remove _) | .swarm .here .joinTokens
  | .swarm .here .leave | .swarm .here (.join _ _) | .swarm (.at _) _ | .reach _ | .provider _
  | .queue _ | .table _ | .addon _ | .probe _ | .template _ | .pause _ | .now => isTrue trivial

variable {site : Site} {origin w w' : World} {own set : String} {addr : Address} {role : Role}

/-- The questions that leave alone the member and the machines at the address of this host. -/
abbrev Leaves (origin : World) (own : String) (addr : Address) : Call → Prop :=
  Call.LeavesAlone own fun set machine => origin.address? set machine = some addr

/-- The rules under which an upgrade leaves its own host alone. -/
abbrev ownRules (site : Site) (origin : World) (own : String) (addr : Address) :
    Rules Surroundings World :=
  rules (RecognisedAt site origin own addr) fun _ => Leaves origin own addr

/-- This host is who it was, and the machines are those that there were. -/
structure Settled (origin : World) (own : String) (w : World) : Prop where
  localId : w.localId = some own
  layout : w.layout = origin.layout

theorem Settled.respond (h : Settled origin own w) {c : Call} {isOwn : String → String → Prop}
    (hc : c.LeavesAlone own isOwn) : Settled origin own (w.respond c).2 := by
  by_cases hqueue : ∃ call, c = .queue call
  · obtain ⟨call, rfl⟩ := hqueue
    obtain ⟨hlocal, hlayout⟩ := respond_queue_own w call
    exact ⟨hlocal.trans h.localId, hlayout.trans h.layout⟩
  · have hstirs := respond_stirs (w := w) (hc.isWork fun call hcall => hqueue ⟨call, hcall⟩)
    exact ⟨hstirs.localId.trans h.localId, hstirs.layout.trans h.layout⟩

/-- What leaves this host alone may be asked, and changes neither the host nor the machines. -/
theorem ownRules_keeps (c : Call) (hc : Leaves origin own addr c) :
    (ownRules site origin own addr).Keeps (Settled origin own) c :=
  keeps_of_respond (fun _ _ => hc) fun _ hw => hw.respond hc

theorem leaves_upholds {ε α : Type} {x : Control ε α} (hx : x.Asks (Leaves origin own addr))
    (hw : Settled origin own w) :
    x.Upholds (ownRules site origin own addr) (fun _ => Settled origin own)
      (fun _ => Settled origin own) w :=
  hx.keeps ownRules_keeps hw

theorem quiet_upholds {ε α : Type} {x : Control ε α} (hx : x.Asks Call.IsQuiet)
    (hw : Settled origin own w) :
    x.Upholds (ownRules site origin own addr) (fun _ => Settled origin own)
      (fun _ => Settled origin own) w :=
  leaves_upholds hx.leavesAlone hw

/-! ## What is listed -/

theorem machines_upholds (hw : Settled origin own w) :
    (machines set).Upholds (ownRules site origin own addr)
      (fun machines w' => (∃ interfaces, origin.layout set = some (machines, interfaces)) ∧
        Settled origin own w')
      (fun _ => Settled origin own) w := by
  refine Program.perform_upholds_of_keeps (ownRules_keeps _ trivial) hw ?_
  rintro answer w' ⟨_, hanswer⟩ hw'
  cases answer with
  | error e => exact hw'
  | ok machines =>
      refine ⟨?_, hw'⟩
      rw [← hw.layout]
      exact machines_answer hanswer

theorem interfaces_upholds (hw : Settled origin own w) :
    (interfaces set).Upholds (ownRules site origin own addr)
      (fun interfaces w' => (∃ machines, origin.layout set = some (machines, interfaces)) ∧
        Settled origin own w')
      (fun _ => Settled origin own) w := by
  refine Program.perform_upholds_of_keeps (ownRules_keeps _ trivial) hw ?_
  rintro answer w' ⟨_, hanswer⟩ hw'
  cases answer with
  | error e => exact hw'
  | ok interfaces =>
      refine ⟨?_, hw'⟩
      rw [← hw.layout]
      exact interfaces_answer hanswer

theorem members_upholds (hw : Settled origin own w) :
    (Control.members .here (some role)).Upholds (ownRules site origin own addr)
      (fun members w' => Recognises (origin.layout (site.config.setOf role)) own addr members ∧
        Settled origin own w')
      (fun _ => Settled origin own) w := by
  refine Program.perform_upholds_of_keeps (ownRules_keeps _ trivial) hw ?_
  rintro answer w' ⟨hrecognised, hanswer⟩ hw'
  cases answer with
  | error e => exact hw'
  | ok members => exact ⟨hrecognised members (congrArg Prod.fst hanswer), hw'⟩

/-! ## Resolution -/

/-- A node as the resolution places it: at the address of its machine, and as this host if it is a
member at the address of this host. -/
structure Placed (origin : World) (own : String) (addr : Address) (set : String) (role : Role)
    (node : Node) : Prop where
  role : node.role = role
  address : origin.address? set node.instanceId = some node.privateIp
  isOwn : node.privateIp = addr → ∀ id, node.memberId = some id → id = own

theorem machineTable_upholds (hw : Settled origin own w) :
    (Resolution.machineTable set).Upholds (ownRules site origin own addr)
      (fun table w' => (∀ row ∈ table, origin.address? set row.machineId = some row.privateIp) ∧
        Settled origin own w')
      (fun _ => Settled origin own) w := by
  refine (machines_upholds hw).bind fun machines w ⟨_, hw⟩ => ?_
  refine (interfaces_upholds hw).bind fun interfaces w ⟨⟨listed, hlayout⟩, hw⟩ => ⟨?_, hw⟩
  intro row hrow
  obtain ⟨machine, _, hmachine⟩ := List.mem_filterMap.mp hrow
  obtain ⟨ip, hip, rfl⟩ := Option.map_eq_some_iff.mp hmachine
  simp only [address?, hlayout, Option.bind_some]
  exact hip

theorem node_placed {members : List Member} {row : MachineAddress}
    {listed : Option (List Machine × List NetworkInterface)}
    (hrecognises : Recognises listed own addr members)
    (hrow : origin.address? set row.machineId = some row.privateIp)
    (provisionedAt : Option Instant) :
    Placed origin own addr set role (Resolution.node role members row provisionedAt) := by
  refine ⟨rfl, hrow, ?_⟩
  rintro rfl id hid
  obtain ⟨m, hm, rfl⟩ := Option.map_eq_some_iff.mp hid
  exact hrecognises.picked m hm

theorem resolve_upholds (hw : Settled origin own w) :
    (Resolution.resolve (site.config.setOf role) role).Upholds (ownRules site origin own addr)
      (fun resolved w' =>
        (∀ node ∈ resolved.nodes, Placed origin own addr (site.config.setOf role) role node) ∧
          Settled origin own w')
      (fun _ => Settled origin own) w := by
  refine (machineTable_upholds hw).renamed.bind fun table w ⟨htable, hw⟩ => ?_
  refine (members_upholds hw).renamed.bind fun members w ⟨hrecognises, hw⟩ => ?_
  cases Resolution.stray table members with
  | some m => exact hw
  | none =>
      refine Upholds.bind (Upholds.collect (fun row hrow w hw => ?_) hw) fun _ _ hnodes => hnodes
      refine (quiet_upholds (Resolution.provisioning_asks trivial) hw).bind ?_
      intro provisionedAt w hw
      exact ⟨node_placed hrecognises (htable row hrow) provisionedAt, hw⟩

/-! ## The walk of a node -/

/-- A member that is evicted has the name of no machine, so that it is not this host. -/
theorem evictOverprovisioned_upholds (hw : Settled origin own w) :
    (NodeWalk.evictOverprovisioned (site.config.setOf role) role).Upholds
      (ownRules site origin own addr) (fun _ => Settled origin own) (fun _ => Settled origin own)
      w := by
  refine (machines_upholds hw).bind fun machines w ⟨⟨interfaces, hlayout⟩, hw⟩ => ?_
  refine (members_upholds hw).bind fun members w ⟨hrecognises, hw⟩ => ?_
  refine Upholds.each (fun m hm w hw => ?_) hw
  obtain ⟨hmem, hunnamed⟩ := List.mem_filter.mp hm
  have hid : m.id ≠ own := by
    intro hid
    rw [hrecognises.named machines interfaces hlayout m hmem hid] at hunnamed
    cases hunnamed
  exact leaves_upholds (Membership.evict_asks (fun _ => hid) hid) hw

variable {node : Node}

/-- The walk of a member that is not this host leaves this host alone all along. -/
theorem walk_course (hnode : Placed origin own addr (site.config.setOf role) role node)
    {id : String} (hmember : node.memberId = some id) (hid : id ≠ own) :
    NodeWalk.Course (ownRules site origin own addr) (site.config.setOf role) node
      (.same (Settled origin own)) := by
  have haddr : node.privateIp ≠ addr := fun h => hid (hnode.isOwn h id hmember)
  have hget : node.memberId.getD "" ≠ own := by
    rw [hmember]
    exact hid
  have halone : ¬origin.address? (site.config.setOf role) node.instanceId = some addr := by
    rw [hnode.address]
    exact fun h => haddr (Option.some.inj h)
  obtain rfl := hnode.role
  exact
    { drain := fun c hc => ownRules_keeps c hc.isAside.isQuiet.leavesAlone
      lists := fun _ => ownRules_keeps _ trivial
      demote := fun _ w hw => leaves_upholds (x := demote .here _) (Program.asks_perform hget) hw
      elects := fun _ c hc => ownRules_keeps c hc.listsOnly.isQuiet.leavesAlone
      spare := fun _ w hw => hw
      remove := fun w hw =>
        leaves_upholds (Membership.unlessGone_asks (Program.asks_perform hget)) hw
      forget := fun c hc => ownRules_keeps c hc.isAside.isQuiet.leavesAlone
      update := fun w hw =>
        leaves_upholds (x := updateModel _ node.instanceId) (Program.asks_perform halone) hw
      updates := fun operation _ => Operation.settles_of_keeps (ownRules_keeps _ trivial)
      updateDone := fun w hw => hw
      updatePauses := fun operation ms => ownRules_keeps _ trivial
      reimage := fun w hw =>
        leaves_upholds (x := reimage _ node.instanceId) (Program.asks_perform halone) hw
      evicts := fun operation w hw => evictOverprovisioned_upholds hw
      reimages := fun operation => Operation.settles_of_keeps (ownRules_keeps _ trivial)
      reimagePauses := fun operation ms => ownRules_keeps _ trivial
      returns := fun w hw => by
        simp only [NodeWalk.Milestones.same, ite_self]
        exact quiet_upholds (x := Control.members .here (some node.role)) (Program.asks_perform trivial) hw
      returnPauses := fun ms => ownRules_keeps _ trivial }

/-! ## The run -/

theorem localId_upholds (hw : Settled origin own w) :
    (Control.localId).Upholds (ownRules site origin own addr)
      (fun selfId w' => selfId = some own ∧ Settled origin own w')
      (fun _ => Settled origin own) w := by
  refine Program.perform_upholds_of_keeps (ownRules_keeps _ trivial) hw ?_
  rintro answer w' ⟨_, hanswer⟩ hw'
  cases answer with
  | error e => exact hw'
  | ok selfId =>
      refine ⟨?_, hw'⟩
      rw [localId_answer hanswer, hw.localId]

/-- What is settled at each milestone of a run: from the second on it knows who this host is, and
the nodes that are still to be upgraded are where the resolution has placed them. -/
def ownMarks (site : Site) (origin : World) (own : String) (addr : Address) :
    Upgrade.Milestones World where
  idle := Settled origin own
  known selfId w := selfId = some own ∧ Settled origin own w
  ready selfId _ _ w := selfId = some own ∧ Settled origin own w
  due selfId role nodes _ w := selfId = some own ∧
    (∀ node ∈ nodes, Placed origin own addr (site.config.setOf role) role node) ∧
      Settled origin own w
  through _ := Settled origin own
  failed := Settled origin own

theorem run_course : Upgrade.Course (ownRules site origin own addr) site
    (ownMarks site origin own addr) where
  idle c hc := ownRules_keeps c hc.leavesAlone
  localId w hw := localId_upholds hw
  managers selfId w hw := by
    obtain ⟨hself, hw⟩ := hw
    have hkeeps : (ownRules site origin own addr).Keeps (Settled origin own)
        (.swarm .here (.members (some .manager))) := ownRules_keeps _ trivial
    obtain ⟨hallows, hmoves⟩ := hkeeps w hw
    exact ⟨hallows, fun answer w' hmove => ⟨hself, hmoves answer w' hmove⟩⟩
  failed_of_known _ _ hw := hw.2
  deploy selfId template w hw :=
    (quiet_upholds (Upgrade.updateDeployment_asks _ template).quiet hw.2).mono
      (fun _ _ hw' => ⟨hw.1, hw'⟩) fun _ _ hw' => hw'
  resolve selfId role progress w hw :=
    (resolve_upholds hw.2).mono (fun _ _ hw' => ⟨hw.1, hw'⟩) fun _ _ hw' => hw'
  own selfId role node rest progress w hw _ :=
    ⟨hw.1, (List.forall_mem_cons.mp hw.2.1).2, hw.2.2⟩
  skip selfId role node rest progress w hw _ :=
    ⟨hw.1, (List.forall_mem_cons.mp hw.2.1).2, hw.2.2⟩
  walk selfId role node rest progress w hw hother hmember := by
    obtain ⟨rfl, hnodes, hw⟩ := hw
    obtain ⟨hnode, hrest⟩ := List.forall_mem_cons.mp hnodes
    obtain ⟨id, hid⟩ := Option.isSome_iff_exists.mp hmember
    have hne : id ≠ own := by
      rintro rfl
      simp [Upgrade.isOwn, Node.hasId, hid] at hother
    refine ((walk_course hnode hid hne).run_upholds hw).mono ?_ fun _ _ hw' => hw'.of_same
    exact fun stage w' hw' => ⟨rfl, hrest, hw'.2⟩
  turn selfId progress w hw := ⟨hw.1, hw.2.2⟩
  last selfId progress w hw := hw.2.2
  through progress c hc := ownRules_keeps c hc.leavesAlone
  failed_of_through _ _ hw := hw
  giveUp := ownRules_keeps _ trivial

/-- An upgrade that recognises its own host in every listing never demotes or removes it, and
gives no machine at its address a new model or a new image. -/
theorem upgrade_leaves_own_host {templateUrl : String} (hlocal : w.localId = some own)
    (hrecognised : ∀ v ∈ (Upgrade.run site templateUrl).visits respond w,
      RecognisedAt site w own addr v.1 v.2) :
    ∀ v ∈ (Upgrade.run site templateUrl).visits respond w, v.2.member? ≠ some own ∧
      ∀ set machine, v.2.machine? = some (set, machine) → w.address? set machine ≠ some addr := by
  have halone := Program.Upholds.allows (run_course.run_upholds templateUrl ⟨hlocal, rfl⟩)
    (obeys_rules hrecognised)
  exact fun v hv => ⟨(halone v hv).member?_ne, fun set machine => (halone v hv).not_isOwn⟩

/-- This host and another manager, which leads the swarm. -/
def pair : World :=
  { trial with
    members :=
      [⟨"m0", "host-0", .v4 10 0 0 4, .manager, .ready, false⟩,
        ⟨"m1", "host-1", .v4 10 0 0 5, .manager, .ready, true⟩]
    sets :=
      [("managers",
          ⟨.manager, 2,
            [⟨"0", "host-0", [⟨.v4 10 0 0 4, true⟩], .running, .succeeded, none⟩,
              ⟨"1", "host-1", [⟨.v4 10 0 0 5, true⟩], .running, .succeeded, none⟩], []⟩),
        ("workers", ⟨.worker, 0, [], []⟩)] }

/-- The other manager is upgraded, and this host is left alone. -/
theorem upgrade_leaves_own_host_pair :
    let visits := (Upgrade.run trialSite "https://host/a.json").visits respond pair
    (∃ v ∈ visits, v.2.member? = some "m1") ∧
      (∃ v ∈ visits, v.2.machine? = some ("managers", "1")) ∧
      ∀ v ∈ visits, v.2.member? ≠ some "m0" ∧
        ∀ set machine, v.2.machine? = some (set, machine) →
          pair.address? set machine ≠ some (.v4 10 0 0 4) := by
  intro visits
  refine ⟨by decide +kernel, by decide +kernel, upgrade_leaves_own_host rfl ?_⟩
  decide +kernel

/-- This host under a hostname that is not the name of its machine. -/
def misnamed : World :=
  { pair with
    members :=
      [⟨"m0", "here", .v4 10 0 0 4, .manager, .ready, false⟩,
        ⟨"m1", "host-1", .v4 10 0 0 5, .manager, .ready, true⟩] }

/-- A host whose machine has another name is evicted by its own upgrade. -/
theorem misnamed_evicted :
    misnamed.localId = some "m0" ∧
      ∃ v ∈ (Upgrade.run trialSite "https://host/a.json").visits respond misnamed,
        v.2.member? = some "m0" :=
  ⟨rfl, by decide +kernel⟩

/-- This host with a second member at its address, listed behind it. -/
def doubled : World :=
  { pair with
    members :=
      [⟨"m0", "host-0", .v4 10 0 0 4, .manager, .ready, false⟩,
        ⟨"m9", "host-0", .v4 10 0 0 4, .manager, .ready, false⟩,
        ⟨"m1", "host-1", .v4 10 0 0 5, .manager, .ready, true⟩] }

-- A host that shares its address is reimaged by its own upgrade, as the other member.
example : doubled.localId = some "m0" ∧ doubled.address? "managers" "0" = some (.v4 10 0 0 4) ∧
    ∃ v ∈ (Upgrade.run trialSite "https://host/a.json").visits respond doubled,
      v.2.machine? = some ("managers", "0") := by
  decide +kernel

end World

end SwarmUpkeep
