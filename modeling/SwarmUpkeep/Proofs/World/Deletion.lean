import SwarmUpkeep.Proofs.Upkeep.Diagnosis
import SwarmUpkeep.Proofs.World.Waning

/-!
# Deletions and ready members

A check lists the members of one role and the machines of one scale set, and brings them together by
address. From the listing on nobody becomes ready in that role, so that wherever a machine is
deleted, nobody is ready in the role at its address. Of the other role a check knows nothing: a
member that has changed its role is no reason to spare a machine.
-/

namespace SwarmUpkeep

namespace Call

/-- The machine that a question takes away, with its scale set. -/
def deletes? : Call → Option (String × String)
  | .provider (.delete set machine) => some (set, machine)
  | _ => none

/-- A question that takes no machine away. -/
def KeepsMachines (c : Call) : Prop :=
  c.deletes? = none

theorem IsGlance.keepsMachines {c : Call} (h : c.IsGlance) : c.KeepsMachines := by
  unfold IsGlance at h
  unfold KeepsMachines deletes?
  split <;> simp_all

theorem IsSurvey.keepsMachines {c : Call} (h : c.IsSurvey) : c.KeepsMachines := by
  unfold IsSurvey at h
  unfold KeepsMachines deletes?
  split <;> simp_all

end Call

namespace World

open Attempt Control

variable {w w' : World} {role : Role} {set machine : String} {addr : Address}

/-! ## A check -/

/-- Nobody is ready in the role at the address of the machine. -/
def Unvouched (w : World) (role : Role) (set machine : String) : Prop :=
  ∀ addr, w.address? set machine = some addr → ¬w.Vouched role addr

/-- Everything is allowed but deletions, and of these the ones of machines of the scale set at whose
address nobody is ready in the role. -/
structure Admits (allowed : World → Call → Prop) (set : String) (role : Role) : Prop where
  other : ∀ w c, c.KeepsMachines → allowed w c
  delete : ∀ w machine, w.Unvouched role set machine → allowed w (.provider (.delete set machine))

/-- The machines of the table have no other addresses than those in it. -/
def Tabled (set : String) (table : List MachineAddress) (w : World) : Prop :=
  ∀ row ∈ table, ∀ addr, w.address? set row.machineId = some addr → addr = row.privateIp

/-- The machines are those of the table, and whoever is ready in the role has been listed so. -/
structure Surveyed (set : String) (role : Role) (table : List MachineAddress)
    (members : List Member) (w : World) : Prop where
  tabled : Tabled set table w
  listed : ∀ addr, w.Vouched role addr →
    (members.any fun m => m.addr = addr && m.status.isReady) = true

variable {allowed : World → Call → Prop} {table : List MachineAddress} {members : List Member}
variable {row : MachineAddress} {config : Config}

theorem Surveyed.wanes (h : Surveyed set role table members w) (hwanes : Wanes role w w') :
    Surveyed set role table members w' :=
  ⟨fun row hrow addr haddr => h.tabled row hrow addr (hwanes.address _ _ _ haddr),
    fun addr hvouched => h.listed addr (hwanes.vouched addr hvouched)⟩

/-- The machine of the table may be deleted if no member is listed as ready at its address. -/
def Condemned (table : List MachineAddress) (members : List Member) (row : MachineAddress) : Prop :=
  row ∈ table ∧ (members.any fun m => m.addr = row.privateIp && m.status.isReady) = false

theorem Surveyed.unvouched (h : Surveyed set role table members w)
    (hrow : Condemned table members row) : w.Unvouched role set row.machineId := by
  obtain ⟨hmem, hnobody⟩ := hrow
  intro addr haddr hvouched
  have hready := h.listed addr hvouched
  rw [h.tabled row hmem addr haddr, hnobody] at hready
  cases hready

/-- The rules of a world that answers every question and allows some of them. -/
abbrev deletionRules (allowed : World → Call → Prop) : Rules Surroundings World :=
  rules (fun _ _ => True) allowed

/-- Everything else may be asked anywhere. -/
theorem other_keeps (hadmits : Admits allowed set role) (c : Call) (hc : c.KeepsMachines) :
    (deletionRules allowed).Keeps (fun _ => True) c :=
  fun w _ => ⟨hadmits.other w c hc, fun _ _ _ => trivial⟩

/-- What only wanes may be asked where the survey still holds, and leaves it true. -/
theorem survey_keeps (hadmits : Admits allowed set role) {c : Call} (hc : c.KeepsMachines)
    (hwanes : ∀ w, Wanes role w (w.respond c).2) :
    (deletionRules allowed).Keeps (Surveyed set role table members) c :=
  keeps_of_respond (fun w _ => hadmits.other w c hc) fun w hw => hw.wanes (hwanes w)

theorem glance_keeps (hadmits : Admits allowed set role) (c : Call) (hc : c.IsGlance) :
    (deletionRules allowed).Keeps (Surveyed set role table members) c :=
  survey_keeps hadmits hc.keepsMachines fun _ => glance_wanes hc

theorem machineTable_tabled (hadmits : Admits allowed set role) :
    (Resolution.machineTable set).Upholds (deletionRules allowed) (Tabled set) (fun _ _ => True)
      w := by
  refine Upholds.bind (m := fun _ _ => True) ?_ fun machines w _ => ?_
  · refine ⟨hadmits.other w _ rfl, ?_⟩
    rintro answer w' _
    cases answer <;> trivial
  have hinterfaces : (interfaces set).Upholds (deletionRules allowed)
      (fun interfaces w' => ∃ machines, w'.layout set = some (machines, interfaces))
      (fun _ _ => True) w := by
    refine ⟨hadmits.other w _ rfl, ?_⟩
    rintro answer w' ⟨_, hanswer⟩
    cases answer with
    | error e => trivial
    | ok interfaces =>
        have hlisted := interfaces_answer hanswer
        rw [← layout_answer hanswer trivial] at hlisted
        exact hlisted
  refine hinterfaces.bind ?_
  rintro interfaces w' ⟨listed, hlayout⟩ row hrow addr haddr
  obtain ⟨machine, _, hmachine⟩ := List.mem_filterMap.mp hrow
  obtain ⟨ip, hip, rfl⟩ := Option.map_eq_some_iff.mp hmachine
  rw [address?, hlayout] at haddr
  exact Option.some.inj (haddr.symm.trans hip)

theorem members_surveyed (hadmits : Admits allowed set role) (hw : Tabled set table w) :
    (Control.members .here (some role)).Upholds (deletionRules allowed)
      (Surveyed set role table) (fun _ _ => True) w := by
  refine ⟨hadmits.other w _ rfl, ?_⟩
  rintro answer w' ⟨_, hanswer⟩
  cases answer with
  | error e => trivial
  | ok members =>
      refine ⟨fun row hrow addr haddr => hw row hrow addr ?_, ?_⟩
      · rw [address?, layout_answer hanswer trivial] at haddr
        exact haddr
      · rintro addr ⟨m, hm, hrole, rfl, hready⟩
        rw [members_answer hanswer, List.any_eq_true]
        exact ⟨m, List.mem_filter.mpr ⟨hm, decide_eq_true hrole⟩, by simp [hready]⟩

/-- Managers are demoted only by a check of the managers. -/
theorem evict_surveyed (hadmits : Admits allowed set role) (id : String)
    (hw : Surveyed set role table members w) :
    (Membership.evict id role).Upholds (deletionRules allowed)
      (fun _ => Surveyed set role table members) (fun _ _ => True) w := by
  have hasks : (Membership.evict id role).Asks fun c =>
      (c = Call.swarm .here (.demote id) ∧ role = .manager) ∨
        c = Call.swarm .here (.remove id) :=
    Membership.evict_asks (fun hrole => .inl ⟨rfl, hrole⟩) (.inr rfl)
  refine Upholds.monoError (hasks.keeps ?_ hw) fun _ _ _ => trivial
  rintro c (⟨rfl, rfl⟩ | rfl)
  · exact survey_keeps hadmits rfl fun w => demote_wanes w id
  · exact survey_keeps hadmits rfl fun w => remove_wanes w id

/-- The operation builds nothing, so that the survey still holds when it is done. -/
theorem await_surveyed (hadmits : Admits allowed set role) (operation : Operation)
    (policy : RetryPolicy) (what : String) (hw : Surveyed set role table members w)
    (hplain : w.Plain operation) :
    (operation.await policy what).Upholds (deletionRules allowed)
      (fun _ => Surveyed set role table members) (fun _ _ => True) w := by
  let waiting (w : World) : Prop := Surveyed set role table members w ∧ w.Plain operation
  have hstatus : (deletionRules allowed).Keeps waiting (.provider (.status operation)) := by
    refine keeps_of_respond (fun w _ => hadmits.other w _ rfl) ?_
    rintro w ⟨hw, hplain⟩
    obtain ⟨hwanes, hstill⟩ := status_wanes hplain
    exact ⟨hw.wanes hwanes, hstill⟩
  have hpause : KeptByPauses (deletionRules allowed) waiting := by
    rintro ms w hw
    refine ⟨hadmits.other w _ rfl, ?_⟩
    rintro answer w' ⟨_, hanswer⟩
    cases hanswer
    exact ⟨hw.1.wanes (.of_eq rfl rfl), hw.2⟩
  have hawait : (operation.await policy what).Upholds (deletionRules allowed) (fun _ => waiting)
      (fun _ => waiting) w :=
    Operation.await_upholds (fun _ => Operation.settles_of_keeps hstatus) hpause
      (fun _ _ hw => hw) ⟨hw, hplain⟩
  exact hawait.mono (fun _ _ hw => hw.1) fun _ _ _ => trivial

/-- A machine is deleted only where nobody is ready in the role. -/
theorem replace_surveyed (hadmits : Admits allowed set role) (hrow : Condemned table members row)
    (hw : Surveyed set role table members w) :
    (Health.replace config set role members row).Upholds (deletionRules allowed)
      (fun _ => Surveyed set role table members) (fun _ _ => True) w := by
  have hevictions : ∀ there : List Member,
      (Attempt.each (fun m => Membership.evict m.id role) there).Upholds (deletionRules allowed)
        (fun _ => Surveyed set role table members) (fun _ _ => True) w :=
    fun there => Upholds.each (fun m _ w hw => evict_surveyed hadmits m.id hw) hw
  refine Upholds.bind (hevictions _).renamed fun _ w hw => ?_
  have hdelete : (deleteMachine set row.machineId).Upholds (deletionRules allowed)
      (fun operation w' => Surveyed set role table members w' ∧ w'.Plain operation)
      (fun _ _ => True) w := by
    refine ⟨hadmits.delete w _ (hw.unvouched hrow), ?_⟩
    rintro answer w' ⟨_, hanswer⟩
    obtain ⟨hwanes, hplain⟩ := delete_answers hanswer
    cases answer with
    | error e => trivial
    | ok operation => exact ⟨hw.wanes hwanes, hplain operation rfl⟩
  refine Upholds.bind hdelete.renamed ?_
  rintro operation w ⟨hw, hplain⟩
  exact (await_surveyed hadmits operation _ _ hw hplain).renamed

theorem mem_deadRows_concat {verdicts : List (MachineAddress × Health.Verdict)}
    {verdict : Health.Verdict} {other : MachineAddress}
    (h : other ∈ Health.deadRows (verdicts ++ [(row, verdict)])) :
    other ∈ Health.deadRows verdicts ∨ other = row ∧ verdict = .dead := by
  unfold Health.deadRows at h ⊢
  rw [List.filter_append, List.map_append, List.mem_append] at h
  refine h.imp_right fun hlast => ?_
  by_cases hdead : verdict = .dead
  · rw [List.filter_cons_of_pos (by simp [hdead])] at hlast
    exact ⟨by simpa using hlast, hdead⟩
  · rw [List.filter_cons_of_neg (by simp [hdead])] at hlast
    simp at hlast

/-- The survey holds, and whoever has been found dead may be deleted. -/
def Judged (set : String) (role : Role) (table : List MachineAddress) (members : List Member)
    (verdicts : List (MachineAddress × Health.Verdict)) (w : World) : Prop :=
  Surveyed set role table members w ∧ ∀ row ∈ Health.deadRows verdicts, Condemned table members row

theorem deletion_course (hadmits : Admits allowed set role) (config : Config) :
    Health.Course (deletionRules allowed) config set role
      { free := fun _ => True
        tabled := Tabled set
        examined := fun table members _ => Judged set role table members }
      (fun _ _ => True) (fun _ => True) where
  table _ _ := machineTable_tabled hadmits
  members _ _ hw :=
    (members_surveyed hadmits hw).mono (fun _ _ hw => ⟨hw, fun _ h => by cases h⟩) fun _ _ h => h
  examine table members past row rest verdicts w htable hw := by
    obtain ⟨hw, hdead⟩ := hw
    refine (Health.examine_upholds (glance_keeps hadmits) hw).mono ?_ fun _ _ _ => trivial
    rintro verdict w' ⟨hverdict, hw'⟩
    refine ⟨hw', fun other hother => ?_⟩
    rcases mem_deadRows_concat hother with hpast | ⟨rfl, hlast⟩
    · exact hdead other hpast
    · have hnobody := hverdict hlast
      rw [Diagnosis.any_isReady_statusAt] at hnobody
      exact ⟨by simp [htable], hnobody⟩
  replace _ _ _ row _ hrow hw :=
    (replace_surveyed hadmits (hw.2 row hrow) hw.1).mono (fun _ _ hw' => ⟨hw', hw.2⟩) fun _ _ h => h
  scaleUp _ _ verdicts w _ := by
    have hasks : (Health.scaleUp config set (Health.deadRows verdicts).length).Asks
        Call.KeepsMachines :=
      Health.scaleUp_asks (show Call.KeepsMachines (.provider (.capacity set)) from rfl)
        (fun _ => rfl) (fun _ => rfl) (fun _ => rfl) config _
    exact hasks.keeps (other_keeps hadmits) trivial
  noneDead _ _ _ _ _ _ := trivial

theorem check_deletion (hadmits : Admits allowed set role) (config : Config) :
    (Health.check config set role).Upholds (deletionRules allowed) (fun _ _ => True)
      (fun _ _ => True) w := by
  apply (deletion_course hadmits config).check_upholds
  have hasks : (Lock.isHeld config.swarm.upgradeQueue).Asks Call.KeepsMachines :=
    Lock.isHeld_asks rfl
  refine Upholds.mono (hasks.keeps (other_keeps hadmits) trivial) ?_ fun _ _ h => h
  intro held w _
  cases held <;> trivial

/-- A machine that is taken away is one of the scale set, and nobody is ready in the role at its
address. -/
def Shields (set : String) (role : Role) (w : World) (c : Call) : Prop :=
  ∀ asked machine, c.deletes? = some (asked, machine) → asked = set ∧ w.Unvouched role set machine

theorem Shields.of_keepsMachines {c : Call} (hc : c.KeepsMachines) : Shields set role w c := by
  intro asked machine h
  rw [hc] at h
  cases h

theorem Shields.of_unvouched (hw : w.Unvouched role set machine) :
    Shields set role w (.provider (.delete set machine)) := by
  intro asked machine' h
  cases h
  exact ⟨rfl, hw⟩

/-- A heal pass spares what its checks spare; its reconciliations delete nothing. -/
theorem heal_deletion (config : Config) (hadmits : ∀ role, Admits allowed (config.setOf role) role) :
    (Health.heal config).Upholds (deletionRules allowed) (fun _ _ => True) (fun _ _ => True) w := by
  have hlock : (Lock.isHeld config.swarm.upgradeQueue).Asks Call.KeepsMachines :=
    Lock.isHeld_asks rfl
  refine Health.heal_upholds (fun w hw => hlock.keeps (other_keeps (hadmits .manager)) hw)
    (fun role w _ => check_deletion (hadmits role) config) (fun role w hw => ?_) trivial
  have hdrift : (Drift.reconcile config (config.setOf role) role).Asks Call.KeepsMachines :=
    Drift.reconcile_asks rfl (fun _ hc => hc.keepsMachines) rfl (fun _ _ => rfl)
      fun _ => rfl
  exact hdrift.keeps (other_keeps (hadmits role)) hw

/-- Wherever a check deletes a machine, it is one of its scale set, and no member of its role is
ready at the address of the machine; and so it is wherever a heal pass does. -/
theorem deletions_spare_ready (config : Config) (w : World) :
    (∀ set role, ∀ v ∈ (Health.check config set role).visits respond w,
        Shields set role v.1 v.2) ∧
      ∀ v ∈ (Health.heal config).visits respond w,
        ∃ role, Shields (config.setOf role) role v.1 v.2 := by
  constructor
  · intro set role
    have hadmits : Admits (Shields set role) set role :=
      ⟨fun _ _ hc => .of_keepsMachines hc, fun _ _ hw => .of_unvouched hw⟩
    exact Program.Upholds.allows (check_deletion hadmits config) (obeys_rules fun _ _ => trivial)
  · have hadmits : ∀ role, Admits (fun w c => ∃ role, Shields (config.setOf role) role w c)
        (config.setOf role) role := fun role =>
      ⟨fun _ _ hc => ⟨role, .of_keepsMachines hc⟩, fun _ _ hw => ⟨role, .of_unvouched hw⟩⟩
    exact Program.Upholds.allows (heal_deletion config hadmits) (obeys_rules fun _ _ => trivial)

instance (w : World) (role : Role) (addr : Address) : Decidable (w.Vouched role addr) :=
  inferInstanceAs (Decidable (∃ m ∈ w.members,
    m.role = role ∧ m.addr = addr ∧ m.status.isReady = true))

/-- A machine among the workers, silent and long provisioned, whose member has become a manager. -/
def promoted : World :=
  { trial with
    members :=
      [⟨"m0", "host-0", .v4 10 0 0 4, .manager, .ready, true⟩,
        ⟨"m1", "host-1", .v4 10 0 1 4, .manager, .ready, false⟩]
    sets :=
      [("managers",
          ⟨.manager, 1, [⟨"0", "host-0", [⟨.v4 10 0 0 4, true⟩], .running, .succeeded, none⟩], []⟩),
        ("workers",
          ⟨.worker, 1,
            [⟨"1", "host-1", [⟨.v4 10 0 1 4, true⟩], .running, .succeeded, some ⟨0, 0⟩⟩], []⟩)]
    probes := [(.v4 10 0 1 4, [false])]
    clock := ⟨3600, 0⟩ }

/-- A machine is deleted although the member at its address is ready, in the other role. -/
theorem promoted_deleted :
    (∃ v ∈ (Health.check soundConfig "workers" .worker).visits respond promoted,
        v.2.deletes? = some ("workers", "1") ∧
          v.1.address? "workers" "1" = some (.v4 10 0 1 4) ∧ v.1.Vouched .manager (.v4 10 0 1 4)) ∧
      ∃ v ∈ (Health.heal soundConfig).visits respond promoted,
        v.2.deletes? = some ("workers", "1") ∧
          v.1.address? "workers" "1" = some (.v4 10 0 1 4) ∧ v.1.Vouched .manager (.v4 10 0 1 4) := by
  decide +kernel

end World

end SwarmUpkeep
