import SwarmUpkeep.Proofs.Upkeep.Course
import SwarmUpkeep.Proofs.World.Muster

/-!
# The quorum during an upgrade

In a swarm whose managers are all ready, an upgrade leaves at most one of their hosts without a
ready manager at any time, and none if it succeeds. Nobody else is touched while one is away, the
wait for its return ends only with a ready manager of its name, and the evictions spare every member
that has the name of a machine.

One answer undoes this: a removal that fails as if the member were gone, while it still is a manager
and its demotion is yet to come. The wait for the return then ends with the old member.
-/

namespace SwarmUpkeep

open Attempt Control

namespace World

variable {w w' : World} {site : Site} {hosts : List String} {nodes rest : List Node} {node : Node}
variable {away doomed : Option String} {host id : String}

/-! ## Rules -/

/-- A removal fails as if there were no such member only if nobody of its identifier is a ready
manager on one of the hosts. -/
def ToldTruly (hosts : List String) (w : World) : Call → Prop
  | .swarm engine (.remove id) =>
      ∀ e, (w.respond (.swarm engine (.remove id))).1 = .error e → e.isNotFound = true →
        ∀ m ∈ w.members, m.id = id → m.IsAside hosts
  | _ => True

instance (hosts : List String) (w : World) : DecidablePred (ToldTruly hosts w)
  | .swarm engine (.remove id) =>
      match h : (w.respond (.swarm engine (.remove id))).1 with
      | .ok _ => isTrue (by simp [ToldTruly, h])
      | .error e =>
          decidable_of_iff (e.isNotFound = true → ∀ m ∈ w.members, m.id = id → m.IsAside hosts)
            (by simp [ToldTruly, h])
  | .swarm _ (.members _) | .swarm _ (.inspect _) | .swarm _ .localId | .swarm _ (.demote _)
  | .swarm _ .joinTokens | .swarm _ .leave | .swarm _ (.join _ _) | .reach _ | .provider _
  | .queue _ | .table _ | .addon _ | .probe _ | .template _ | .pause _ | .now => isTrue trivial

/-- The rules of a world in which the hosts have to keep their quorum. -/
abbrev quorumRules (hosts : List String) : Rules Surroundings World :=
  rules (ToldTruly hosts) fun w _ => w.IsQuorate hosts

namespace Quorum

theorem calm_keeps {c : Call} (hc : c.IsCalm) :
    (quorumRules hosts).Keeps (Mustered site hosts nodes away doomed) c :=
  keeps_of_respond (fun _ hw => hw.isQuorate) fun _ hw =>
    hw.drifts (respond_drifts hc) (respond_calm_layout hc)

theorem calm_upholds {ε α : Type} {x : Control ε α} (hx : x.Asks Call.IsCalm)
    (hw : Mustered site hosts nodes away doomed w) :
    x.Upholds (quorumRules hosts) (fun _ => Mustered site hosts nodes away doomed)
      (fun _ => Mustered site hosts nodes away doomed) w :=
  hx.keeps (fun _ => calm_keeps) hw

/-! ## The walk of a node -/

section Walk

theorem demote_upholds (hw : Mustered site hosts nodes none none w) (hnode : node ∈ nodes)
    (hrole : node.role = .manager) (hid : node.memberId = some id) :
    (demote .here id).Upholds (quorumRules hosts)
      (fun _ => Mustered site hosts nodes node.away? node.doomed?)
      (fun _ => Mustered site hosts nodes none none) w := by
  refine ⟨hw.isQuorate, ?_⟩
  rintro answer w' ⟨_, hanswer⟩
  have hlayout := layout_answer hanswer trivial
  rcases demote_answers hanswer with ⟨e, rfl, hdrifts⟩ | ⟨rfl, _, delay, hdrifts⟩
  · exact hw.drifts hdrifts hlayout
  · have haway := hw.weaken node.away? node.doomed?
    have hdoomed : node.doomed? = some id := (if_pos hrole).trans hid
    exact (haway.postpone_demotion (haway.expendable_of_node hnode hid) (.inl hdoomed)
      delay).drifts hdrifts hlayout

theorem remove_upholds (hw : Mustered site hosts nodes node.away? node.doomed? w)
    (hnode : node ∈ nodes) (hid : node.memberId = some id) :
    (Membership.unlessGone (remove .here id)).Upholds (quorumRules hosts)
      (fun _ => Mustered site hosts nodes node.away? none)
      (fun _ => Mustered site hosts nodes node.away? node.doomed?) w := by
  refine Membership.unlessGone_upholds ⟨hw.isQuorate, ?_⟩
  rintro answer w' ⟨htold, hanswer⟩
  have hlayout := layout_answer hanswer trivial
  have hknown := hw.known node hnode id hid
  have hdoomed : ∀ id', node.doomed? = some id' → id' = id := by
    unfold Node.doomed?
    split
    · exact fun id' h => Option.some.inj (h.symm.trans hid)
    · exact fun id' h => by cases h
  rcases remove_answers hanswer with ⟨e, rfl, hdrifts⟩ | ⟨rfl, hdrifts⟩
  · by_cases hgone : e.isNotFound = true
    · -- Nobody of this identifier is a manager, and nobody will be.
      have haside : w.Fixed id (Member.IsAside hosts) :=
        ⟨hknown.known, hknown.unexpected, htold e (congrArg Prod.fst hanswer) hgone⟩
      refine (if_pos hgone).mpr ?_
      exact (hw.settle fun id' h => hdoomed id' h ▸ haside).drifts hdrifts hlayout
    · refine (if_neg hgone).mpr ?_
      exact hw.drifts hdrifts hlayout
  · have hremoved := hw.remove (hw.expendable_of_node hnode hid)
    refine (hremoved.settle fun id' h => ?_).drifts hdrifts hlayout
    rw [hdoomed id' h]
    refine ⟨hknown.known, hknown.unexpected, fun m hm hid => ?_⟩
    exact absurd hid (of_decide_eq_true (List.mem_filter.mp hm).2)

/-- The hosts are mustered, and these members are aside. -/
structure Evicting (site : Site) (hosts : List String) (nodes : List Node) (away : Option String)
    (stale : List String) (w : World) : Prop where
  mustered : Mustered site hosts nodes away none w
  aside : ∀ id ∈ stale, w.Fixed id (Member.IsAside hosts)

variable {stale : List String} {c : Call}

theorem evictions_keep (hid : id ∈ stale)
    (hc : c = .swarm .here (.demote id) ∨ c = .swarm .here (.remove id)) :
    (quorumRules hosts).Keeps (Evicting site hosts nodes away stale) c := by
  intro w ⟨hw, haside⟩
  refine ⟨hw.isQuorate, ?_⟩
  rintro answer w' ⟨_, hanswer⟩
  have hlayout : w'.layout = w.layout := by
    refine layout_answer hanswer ?_
    rcases hc with rfl | rfl <;> trivial
  have hexpendable : Mustered.Expendable hosts away w id :=
    Mustered.expendable_of_fixed (haside id hid)
  rcases hc with rfl | rfl
  · rcases demote_answers hanswer with ⟨e, rfl, hdrifts⟩ | ⟨rfl, _, delay, hdrifts⟩
    · exact ⟨hw.drifts hdrifts hlayout, fun id hid =>
        hdrifts.fixed Member.isAside_lasting (haside id hid)⟩
    · refine ⟨(hw.postpone_demotion hexpendable (.inr (haside id hid)) delay).drifts hdrifts
        hlayout, fun id' hid' => ?_⟩
      exact ((postpone_demotion_follows w delay id).trans hdrifts.toFollows).fixed
        Member.isAside_lasting (haside id' hid')
  · rcases remove_answers hanswer with ⟨e, rfl, hdrifts⟩ | ⟨rfl, hdrifts⟩
    · exact ⟨hw.drifts hdrifts hlayout, fun id hid =>
        hdrifts.fixed Member.isAside_lasting (haside id hid)⟩
    · refine ⟨(hw.remove hexpendable).drifts hdrifts hlayout, fun id' hid' => ?_⟩
      exact ((remove_follows w id).trans hdrifts.toFollows).fixed Member.isAside_lasting
        (haside id' hid')

/-- A member that has the name of no machine is aside: no host has its name. -/
theorem overprovisioned_isAside {role : Role} {machines : List Machine}
    {interfaces : List NetworkInterface} {m : Member}
    (hw : Mustered site hosts nodes away doomed w)
    (hset : w.layout (site.config.setOf role) = some (machines, interfaces)) (hrole : m.role = role)
    (hunnamed : (machines.any fun i => Ascii.sameFold i.computerName m.hostname) = false) :
    m.IsAside hosts := by
  subst hrole
  cases hcase : m.role with
  | worker => exact Member.isAside_of_worker hcase
  | manager =>
      rw [hcase] at hset
      intro host hhost
      rw [Bool.eq_false_iff]
      intro hserves
      obtain ⟨i, hi, hname⟩ := hw.housed machines interfaces hset host hhost
      have hsame := (Member.serves_iff.mp hserves).2.2
      rw [Ascii.sameFold_iff] at hname hsame
      have hnamed := List.any_eq_false.mp hunnamed i hi
      exact hnamed (Ascii.sameFold_iff.mpr (hname.trans hsame.symm))

theorem evictOverprovisioned_upholds {role : Role}
    (hw : Mustered site hosts nodes away none w) :
    (NodeWalk.evictOverprovisioned (site.config.setOf role) role).Upholds (quorumRules hosts)
      (fun _ => Mustered site hosts nodes away none) (fun _ => Mustered site hosts nodes away none)
      w := by
  refine Upholds.bind (m := fun machines w' => Mustered site hosts nodes away none w' ∧
    ∃ interfaces, w'.layout (site.config.setOf role) = some (machines, interfaces)) ?_ ?_
  · refine Program.perform_upholds_of_keeps (calm_keeps trivial) hw ?_
    rintro answer w' ⟨_, hanswer⟩ hw'
    cases answer with
    | error e => exact hw'
    | ok machines =>
        refine ⟨hw', ?_⟩
        rw [layout_answer hanswer trivial]
        exact machines_answer hanswer
  intro machines w ⟨hw, interfaces, hset⟩
  refine Upholds.bind (m := fun members => Evicting site hosts nodes away
    ((NodeWalk.overprovisioned machines members).map (·.id))) ?_ ?_
  · refine Program.perform_upholds_of_keeps (calm_keeps trivial) hw ?_
    rintro answer w' ⟨_, hanswer⟩ hw'
    cases answer with
    | error e => exact hw'
    | ok members =>
        refine ⟨hw', fun id hid => ?_⟩
        obtain ⟨m, hm, rfl⟩ := List.mem_map.mp hid
        obtain ⟨hlisted, hunnamed⟩ := List.mem_filter.mp hm
        rw [members_answer hanswer] at hlisted
        obtain ⟨hmem, hrole⟩ := List.mem_filter.mp hlisted
        have hset' : w'.layout (site.config.setOf role) = some (machines, interfaces) :=
          (congrFun (layout_answer hanswer trivial) _).trans hset
        exact hw'.registered.fixed hmem (overprovisioned_isAside hw' hset'
          (of_decide_eq_true hrole) (Bool.not_eq_true' _ ▸ hunnamed))
  intro members w hw
  -- Whoever is stale by the two listings stays aside while the others are evicted.
  have hevictions : (each (fun m => Membership.evict m.id role)
      (NodeWalk.overprovisioned machines members)).Asks fun c : Call =>
        ∃ id ∈ (NodeWalk.overprovisioned machines members).map (·.id),
          c = .swarm .here (.demote id) ∨ c = .swarm .here (.remove id) :=
    Asks.each fun m hm => Membership.evict_asks
      (fun _ => ⟨m.id, List.mem_map_of_mem hm, .inl rfl⟩)
      ⟨m.id, List.mem_map_of_mem hm, .inr rfl⟩
  refine Upholds.mono (hevictions.keeps (fun c hc => ?_) hw) (fun _ _ hw => hw.mustered)
    fun _ _ hw => hw.mustered
  obtain ⟨id, hid, hc⟩ := hc
  exact evictions_keep hid hc

theorem returns_upholds (hw : Mustered site hosts nodes node.away? none w) :
    (Control.members .here (some node.role)).Upholds (quorumRules hosts)
      (fun members w' =>
        if (NodeWalk.returned node.hostname members).isSome
        then Mustered site hosts nodes none none w'
        else Mustered site hosts nodes node.away? none w')
      (fun _ => Mustered site hosts nodes node.away? none) w := by
  refine Program.perform_upholds_of_keeps (calm_keeps trivial) hw ?_
  rintro answer w' ⟨_, hanswer⟩ hw'
  cases answer with
  | error e => exact hw'
  | ok members =>
      simp only [outcomeIs]
      split
      next hreturned =>
        obtain ⟨m, hm⟩ := Option.isSome_iff_exists.mp hreturned
        have hlisted := List.mem_of_find?_eq_some hm
        rw [members_answer hanswer] at hlisted
        obtain ⟨hmem, hrole⟩ := List.mem_filter.mp hlisted
        have hback := List.find?_some hm
        rw [Bool.and_eq_true] at hback
        refine { hw' with secure := fun host hhost _ => ?_ }
        cases hcase : isAway node.away? host with
        | false => exact hw'.secure host hhost hcase
        | true =>
            unfold Node.away? at hcase
            split at hcase
            next hmanager =>
              -- The host that was away is that of the member that is back.
              have hserves : m.serves host = true := by
                refine Member.serves_iff.mpr ⟨(of_decide_eq_true hrole).trans hmanager,
                  hback.2, ?_⟩
                have hname := Ascii.sameFold_iff.mp hback.1
                exact Ascii.sameFold_iff.mpr (hname.trans (Ascii.sameFold_iff.mp hcase))
              -- The removal has settled the one demotion that could have come upon it.
              refine ⟨m, hmem, hserves, fun hdoomed => ?_⟩
              rcases hw'.spared _ hdoomed with hnone | haside
              · cases hnone
              · rw [haside.holds m hmem rfl host hhost] at hserves
                cases hserves
            next => cases hcase
      next => exact hw'

/-- What is mustered at each milestone of a walk. -/
def marks (site : Site) (hosts : List String) (nodes : List Node) (node : Node) :
    NodeWalk.Milestones World where
  untouched := Mustered site hosts nodes none none
  demoted := Mustered site hosts nodes node.away? node.doomed?
  removed := Mustered site hosts nodes node.away? none
  updating _ := Mustered site hosts nodes node.away? none
  updated := Mustered site hosts nodes node.away? none
  reimaging _ := Mustered site hosts nodes node.away? none
  reimaged := Mustered site hosts nodes node.away? none
  returned := Mustered site hosts nodes none none

theorem walk_course (hnode : node ∈ nodes) (hid : node.memberId = some id) :
    NodeWalk.Course (quorumRules hosts) (site.config.setOf node.role) node
      (marks site hosts nodes node) where
  drain c hc := calm_keeps hc.isAside.isQuiet.isCalm
  lists _ := calm_keeps trivial
  demote hrole w hw := by
    rw [hid]
    exact demote_upholds hw hnode hrole hid
  elects _ c hc := calm_keeps hc.listsOnly.isQuiet.isCalm
  spare hrole w hw := hw.weaken _ _
  remove w hw := by
    rw [hid]
    exact remove_upholds hw hnode hid
  forget c hc := calm_keeps hc.isAside.isQuiet.isCalm
  update w hw := calm_upholds (x := updateModel _ node.instanceId) (Program.asks_perform trivial) hw
  updates operation _ := Operation.settles_of_keeps (calm_keeps trivial)
  updateDone w hw := hw
  updatePauses operation ms := calm_keeps trivial
  reimage w hw := calm_upholds (x := reimage _ node.instanceId) (Program.asks_perform trivial) hw
  evicts operation w hw := evictOverprovisioned_upholds hw
  reimages operation := Operation.settles_of_keeps (calm_keeps trivial)
  reimagePauses operation ms := calm_keeps trivial
  returns w hw := returns_upholds hw
  returnPauses ms := calm_keeps trivial

end Walk

/-! ## The run -/

/-- A member of a listing is, for good, what the resolution finds of its node. -/
theorem listed_known {role : Role} {members : List Member} {row : MachineAddress}
    {provisionedAt : Option Instant} (hw : w.Registered)
    (hmembers : members = w.members.filter fun m => m.role = role)
    (hid : (Resolution.node role members row provisionedAt).memberId = some id) :
    w.Fixed id ((Resolution.node role members row provisionedAt).Describes hosts) := by
  obtain ⟨m, hm, rfl⟩ := Option.map_eq_some_iff.mp hid
  obtain ⟨hlisted, _⟩ := Resolution.mem_of_memberAt hm
  rw [hmembers] at hlisted
  obtain ⟨hmem, hrole⟩ := List.mem_filter.mp hlisted
  refine hw.fixed hmem ?_
  unfold Node.Describes
  cases role with
  | manager => simp [Resolution.node, hm]
  | worker => exact Member.isAside_of_worker (of_decide_eq_true hrole)

theorem resolve_upholds {role : Role} (hw : Mustered site hosts [] none none w) :
    (Resolution.resolve (site.config.setOf role) role).Upholds (quorumRules hosts)
      (fun resolved w' => Mustered site hosts resolved.nodes none none w' ∧
        ∀ node ∈ resolved.nodes, node.role = role)
      (fun _ w' => ∃ away doomed, Mustered site hosts [] away doomed w') w := by
  have hfailed : ∀ {nodes : List Node} (w : World), Mustered site hosts nodes none none w →
      ∃ away doomed, Mustered site hosts [] away doomed w :=
    fun w hw => ⟨none, none, hw.of_subset (List.nil_subset _)⟩
  have htable := calm_upholds ((Resolution.machineTable_asks (site.config.setOf role)).mono
    fun c hc => hc.isQuiet.isCalm) hw
  refine Upholds.bind (htable.monoError fun _ => hfailed).renamed fun table w hw => ?_
  refine Upholds.bind (m := fun members => Mustered site hosts
    (table.map fun row => Resolution.node role members row none) none none) ?_ ?_
  · refine Upholds.renamed (Program.perform_upholds_of_keeps (calm_keeps trivial) hw ?_)
    rintro answer w' ⟨_, hanswer⟩ hw'
    cases answer with
    | error e => exact hfailed w' hw'
    | ok members =>
        refine { hw' with known := fun node hnode id hid => ?_ }
        obtain ⟨row, _, rfl⟩ := List.mem_map.mp hnode
        exact listed_known hw'.registered (members_answer hanswer) hid
  intro members w hw
  cases Resolution.stray table members with
  | some m => exact hfailed w hw
  | none =>
      -- Who the members are does not depend on when the machines were provisioned.
      refine Upholds.bind (m := fun nodes w' =>
        (∀ node ∈ nodes, ∃ row ∈ table, ∃ provisionedAt,
          node = Resolution.node role members row provisionedAt) ∧
        Mustered site hosts (table.map fun row => Resolution.node role members row none) none none
          w') (Upholds.collect (fun row hrow w hw => ?_) hw) fun nodes w ⟨hnodes, hw⟩ => ?_
      · have hasks : (Resolution.provisioning (site.config.setOf role) row).Asks Call.IsCalm :=
          Resolution.provisioning_asks trivial
        refine Upholds.bind ((calm_upholds hasks hw).monoError fun _ => hfailed) ?_
        exact fun provisionedAt w hw => ⟨⟨row, hrow, provisionedAt, rfl⟩, hw⟩
      · refine ⟨{ hw with known := fun node hnode id hid => ?_ }, fun node hnode => ?_⟩
        · obtain ⟨row, hrow, provisionedAt, rfl⟩ := hnodes node hnode
          exact hw.known _ (List.mem_map_of_mem hrow) id hid
        · obtain ⟨row, _, provisionedAt, rfl⟩ := hnodes node hnode
          rfl

/-- What is mustered at each milestone of a run. -/
def runMarks (site : Site) (hosts : List String) : Upgrade.Milestones World where
  idle := Mustered site hosts [] none none
  known _ := Mustered site hosts [] none none
  ready _ _ _ := Mustered site hosts [] none none
  due _ role nodes _ w := Mustered site hosts nodes none none w ∧ ∀ node ∈ nodes, node.role = role
  through _ := Mustered site hosts [] none none
  failed w := ∃ away doomed, Mustered site hosts [] away doomed w

theorem stops_failed (h : (marks site hosts nodes node).Stops w) :
    (runMarks site hosts).failed w := by
  cases h with
  | untouched h => exact ⟨_, _, h.of_subset (List.nil_subset _)⟩
  | demoted h => exact ⟨_, _, h.of_subset (List.nil_subset _)⟩
  | removed h => exact ⟨_, _, h.of_subset (List.nil_subset _)⟩
  | updating operation h => exact ⟨_, _, h.of_subset (List.nil_subset _)⟩
  | updated h => exact ⟨_, _, h.of_subset (List.nil_subset _)⟩
  | reimaging operation h => exact ⟨_, _, h.of_subset (List.nil_subset _)⟩
  | reimaged h => exact ⟨_, _, h.of_subset (List.nil_subset _)⟩

theorem calm_or_failed {ε α : Type} {x : Control ε α} (hx : x.Asks Call.IsCalm)
    (hw : Mustered site hosts [] none none w) :
    x.Upholds (quorumRules hosts) (fun _ => Mustered site hosts [] none none)
      (fun _ => (runMarks site hosts).failed) w :=
  (calm_upholds hx hw).monoError fun _ _ hw => ⟨none, none, hw⟩

theorem run_course (site : Site) (hosts : List String) :
    Upgrade.Course (quorumRules hosts) site (runMarks site hosts) where
  idle c hc := by
    refine calm_keeps ?_
    unfold Call.IsPrologue at hc
    split at hc
    · trivial
    · trivial
    · exact hc.elim
  localId w hw := calm_or_failed (x := Control.localId) (Program.asks_perform trivial) hw
  managers selfId := calm_keeps trivial
  failed_of_known _ _ hw := ⟨none, none, hw⟩
  deploy selfId template w hw :=
    calm_or_failed ((Upgrade.updateDeployment_asks _ _).mono fun _ hc => hc.isQuiet.isCalm) hw
  resolve selfId role progress w hw := resolve_upholds hw
  own selfId role node rest progress w hw _ :=
    ⟨hw.1.of_subset (List.subset_cons_self _ _), (List.forall_mem_cons.mp hw.2).2⟩
  skip selfId role node rest progress w hw _ :=
    ⟨hw.1.of_subset (List.subset_cons_self _ _), (List.forall_mem_cons.mp hw.2).2⟩
  walk selfId role node rest progress w hw _ hmember := by
    obtain ⟨hmustered, hroles⟩ := hw
    obtain ⟨rfl, hrest⟩ := List.forall_mem_cons.mp hroles
    obtain ⟨id, hid⟩ := Option.isSome_iff_exists.mp hmember
    have hcourse : NodeWalk.Course (quorumRules hosts) (site.config.setOf node.role) node
        (marks site hosts (node :: rest) node) := walk_course List.mem_cons_self hid
    refine (hcourse.run_upholds hmustered).mono ?_ fun _ _ => stops_failed
    exact fun stage w' hw' => ⟨hw'.2.of_subset (List.subset_cons_self _ _), hrest⟩
  turn selfId progress w hw := hw.1
  last selfId progress w hw := hw.1
  through progress c hc := by
    refine calm_keeps ?_
    unfold Call.IsEpilogue at hc
    split at hc <;> trivial
  failed_of_through _ _ hw := ⟨none, none, hw⟩
  giveUp := .exists fun away => .exists fun doomed => calm_keeps trivial

end Quorum

/-- The names of the hosts of the managers. -/
def managerHosts (w : World) : List String :=
  (w.members.filter fun m => m.role = .manager).map (·.hostname)

/-- A swarm in which nothing is still to happen and all managers are ready, on hosts of different
names that are machines of the set. -/
structure Manned (set : String) (w : World) : Prop where
  settled : w.pending = []
  nodup : (w.members.map (·.id)).Nodup
  known : ∀ m ∈ w.members, ¬w.IsNew m.id
  ready : ∀ m ∈ w.members, m.role = .manager → m.status.isReady = true
  distinct : w.managerHosts.Pairwise fun host host' => Ascii.sameFold host host' = false
  housed : ∀ machines interfaces, w.layout set = some (machines, interfaces) →
    ∀ host ∈ w.managerHosts, ∃ i ∈ machines, Ascii.sameFold i.computerName host = true

/-- What is told in advance has no part in it. -/
theorem Manned.told {set : String} (h : Manned set w) (knobs : Knobs) (faults : List Fault) :
    Manned set { w with knobs, faults } :=
  ⟨h.settled, h.nodup, h.known, h.ready, h.distinct, h.housed⟩

theorem Manned.mustered (h : Manned (site.config.setOf .manager) w) :
    Mustered site w.managerHosts [] none none w := by
  have hids : w.ids = w.members.map (·.id) := by
    unfold ids expected effects
    rw [h.settled, List.map_nil, List.filterMap_nil, List.append_nil]
  have hspared : ∀ id, ¬w.Dooms id := by
    unfold Dooms effects
    rw [h.settled]
    exact fun _ => List.not_mem_nil
  exact
    { registered := by
        refine ⟨hids ▸ h.nodup, fun id hid => ?_⟩
        rw [hids] at hid
        obtain ⟨m, hm, rfl⟩ := List.mem_map.mp hid
        exact h.known m hm
      distinct := h.distinct
      housed := h.housed
      known := fun node hnode => absurd hnode List.not_mem_nil
      secure := fun host hhost _ => by
        obtain ⟨m, hm, rfl⟩ := List.mem_map.mp hhost
        obtain ⟨hmem, hrole⟩ := List.mem_filter.mp hm
        have hrole : m.role = .manager := of_decide_eq_true hrole
        have hserves := Member.serves_iff.mpr ⟨hrole, h.ready m hmem hrole, Ascii.sameFold_refl _⟩
        exact ⟨m, hmem, hserves, hspared m.id⟩
      spared := fun id hdoomed => absurd hdoomed (hspared id) }

/-- At every question of an upgrade and at its end, at most one of the hosts that had a manager at
its beginning is without a ready one, and none is if the upgrade succeeds. -/
theorem quorum_kept {templateUrl : String} (hmanned : Manned (site.config.setOf .manager) w)
    (htold : ∀ v ∈ (Upgrade.run site templateUrl).visits respond w,
      ToldTruly w.managerHosts v.1 v.2) :
    (∀ v ∈ (Upgrade.run site templateUrl).visits respond w, v.1.IsQuorate w.managerHosts) ∧
      (w.run (Upgrade.run site templateUrl)).2.IsQuorate w.managerHosts ∧
      ∀ report, (w.run (Upgrade.run site templateUrl)).1 = .ok report →
        ∀ host ∈ w.managerHosts,
          (w.run (Upgrade.run site templateUrl)).2.isServed host = true := by
  have hrun := (Quorum.run_course site w.managerHosts).run_upholds templateUrl hmanned.mustered
  have hend := Program.Upholds.run hrun (obeys_rules htold)
  refine ⟨Program.Upholds.allows hrun (obeys_rules htold), ?_⟩
  unfold World.run
  cases hresult : (Program.run respond (Upgrade.run site templateUrl) w).1 with
  | ok report =>
      rw [hresult] at hend
      obtain ⟨_, _, hmustered⟩ := hend
      exact ⟨hmustered.isQuorate, fun _ _ host hhost => (hmustered.secure host hhost rfl).isServed⟩
  | error e =>
      rw [hresult] at hend
      refine ⟨?_, fun report h => by cases h⟩
      rcases hend with hmustered | ⟨_, _, hmustered⟩ <;> exact hmustered.isQuorate

/-- Three managers, of which this host leads the swarm. -/
def trio : World :=
  { trial with
    members :=
      [⟨"m0", "host-0", .v4 10 0 0 4, .manager, .ready, true⟩,
        ⟨"m1", "host-1", .v4 10 0 0 5, .manager, .ready, false⟩,
        ⟨"m2", "HOST-2", .v4 10 0 0 6, .manager, .ready, false⟩]
    sets :=
      [("managers",
          ⟨.manager, 3,
            [⟨"0", "host-0", [⟨.v4 10 0 0 4, true⟩], .running, .succeeded, none⟩,
              ⟨"1", "host-1", [⟨.v4 10 0 0 5, true⟩], .running, .succeeded, none⟩,
              ⟨"2", "host-2", [⟨.v4 10 0 0 6, true⟩], .running, .succeeded, none⟩], []⟩),
        ("workers", ⟨.worker, 0, [], []⟩)] }

theorem trio_manned : Manned "managers" trio where
  settled := rfl
  nodup := by decide
  known m hm := by
    refine not_isNew_of_head ?_
    revert m
    decide
  ready := by decide
  distinct := by decide
  housed machines interfaces hset := by
    cases hset
    decide

/-- The same swarm, in which demotions and returns take their time. -/
def slow : World :=
  { trio with knobs := { demoteDelay := 2, electDelay := 1, rejoinDelay := 4 } }

/-- Two managers are upgraded, each while the other two serve their hosts. -/
theorem quorum_kept_slow :
    let visits := (Upgrade.run trialSite "https://host/a.json").visits respond slow
    ((slow.run (Upgrade.run trialSite "https://host/a.json")).1.isOk = true ∧
        ∃ v ∈ visits, v.1.isServed "host-1" = false) ∧
      (∀ v ∈ visits, v.1.IsQuorate slow.managerHosts) ∧
        (slow.run (Upgrade.run trialSite "https://host/a.json")).2.IsQuorate slow.managerHosts ∧
        ∀ report, (slow.run (Upgrade.run trialSite "https://host/a.json")).1 = .ok report →
          ∀ host ∈ slow.managerHosts,
            (slow.run (Upgrade.run trialSite "https://host/a.json")).2.isServed host = true :=
  ⟨⟨by decide +kernel, by decide +kernel⟩,
    quorum_kept (trio_manned.told _ _) (by decide +kernel)⟩

/-- The same swarm, in which the first removal fails as if the member were gone. -/
def misled : World :=
  { trio with
    knobs := { demoteDelay := 4, rejoinDelay := 100 }
    faults := [⟨"remove(m1)", 0, none, .service (.notFound "node m1")⟩] }

/-- An upgrade that is told that a manager is gone, while its demotion is yet to come, takes the old
member for one that is back, and goes on to the next host: two of three are without a manager. -/
theorem quorum_lost :
    Manned (trialSite.config.setOf .manager) misled ∧ (misled.members.map (·.addr)).Nodup ∧
      (∀ m ∈ misled.members, ∃ h ∈ ((Keyed.find? misled.sets "managers").map (·.hosts)).getD [],
        h.nics = [⟨m.addr, true⟩] ∧ Ascii.sameFold h.name m.hostname = true) ∧
      ¬(misled.run (Upgrade.run trialSite "https://host/a.json")).2.IsQuorate
        misled.managerHosts :=
  ⟨trio_manned.told _ _, by decide, by decide, by decide +kernel⟩

end World

end SwarmUpkeep
