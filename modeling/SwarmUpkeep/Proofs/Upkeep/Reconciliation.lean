import SwarmUpkeep.Proofs.Program.Transcript
import SwarmUpkeep.Proofs.Upkeep.Course
import SwarmUpkeep.Proofs.World.Runs
import SwarmUpkeep.Upkeep.Drift

/-!
# Whom a reconciliation evicts

A reconciliation lists the machines of a scale set, their interfaces and the members of a role, and
then evicts the members that have drifted and are not ready. The lists decide who has drifted: an
address belongs to a machine only if it is that of its primary interface, and the machine is listed
itself. A further address of a machine, or one of an interface whose machine is not listed, backs
nobody.
-/

namespace SwarmUpkeep

open Attempt Control

/-- What is known from the answers so far: the machines of a scale set, their interfaces and the
members of a role; and the steps by which members have been evicted. -/
structure Inventory where
  machines : List Machine
  interfaces : List NetworkInterface
  members : List Member
  steps : List SwarmCall

namespace Inventory

/-- The account of nothing. -/
def start : Inventory :=
  ⟨[], [], [], []⟩

/-- The account after one more answer. A step counts once it has been asked for, whether or not it
succeeds. -/
def next (v : Inventory) : Exchange Surroundings → Inventory
  | ⟨.provider (.machines _), .ok machines⟩ => { v with machines }
  | ⟨.provider (.interfaces _), .ok interfaces⟩ => { v with interfaces }
  | ⟨.swarm _ (.members _), .ok members⟩ => { v with members }
  | ⟨.swarm _ (.demote id), _⟩ => { v with steps := v.steps ++ [.demote id] }
  | ⟨.swarm _ (.remove id), _⟩ => { v with steps := v.steps ++ [.remove id] }
  | _ => v

/-- A machine is listed whose primary interface has the address. -/
def isBacked (v : Inventory) (addr : Address) : Bool :=
  v.machines.any fun machine => Resolution.primaryIp v.interfaces machine.id == some addr

/-- The members that no machine backs and that are not ready. -/
def stale (v : Inventory) : List Member :=
  v.members.filter fun m => !v.isBacked m.addr && !m.status.isReady

/-- The members that no machine backs and that are ready all the same. -/
def orphaned (v : Inventory) : List Member :=
  v.members.filter fun m => !v.isBacked m.addr && m.status.isReady

/-- The steps by which a member of a role is evicted. -/
def eviction (role : Role) (m : Member) : List SwarmCall :=
  if role = .manager then [.demote m.id, .remove m.id] else [.remove m.id]

/-- The steps that the lists call for. -/
def due (role : Role) (v : Inventory) : List SwarmCall :=
  v.stale.flatMap (eviction role)

/-- What may be asked by the account of what has been answered. A step of an eviction has to be the
next one that is due. -/
def Permits (config : Config) (set : String) (role : Role) (v : Inventory) : Call → Prop
  | .queue call => call = .exists config.swarm.upgradeQueue
  | .provider (.machines asked) => asked = set ∧ v.steps = []
  | .provider (.interfaces asked) => asked = set ∧ v.steps = []
  | .swarm engine (.members asked) => engine = .here ∧ asked = some role ∧ v.steps = []
  | .swarm engine call => engine = .here ∧ v.steps ++ [call] <+: v.due role
  | _ => False

/-- Everyone who is due has been evicted, and the report tells whom that was and who was spared. -/
structure Tells (role : Role) (v : Inventory) (report : Drift.Report) : Prop where
  steps : v.steps = v.due role
  removed : report.removed = v.stale.map (·.hostname)
  orphanedReady : report.orphanedReady = v.orphaned.map (·.hostname)

/-- The rules by which the account decides what may be asked. -/
abbrev rules (config : Config) (set : String) (role : Role) : Rules Surroundings Inventory :=
  .accounted next (Permits config set role)

variable {config : Config} {set : String} {role : Role} {v : Inventory}

/-! ## The lists -/

/-- An address is in the table of the machines if it belongs to one of them. -/
theorem any_addressed (machines : List Machine) (interfaces : List NetworkInterface)
    (addr : Address) :
    ((Resolution.addressed machines interfaces).any fun row => row.privateIp = addr) =
      machines.any fun machine => Resolution.primaryIp interfaces machine.id == some addr := by
  unfold Resolution.addressed
  rw [List.any_filterMap]
  congr 1
  funext machine
  cases Resolution.primaryIp interfaces machine.id with
  | none => rfl
  | some ip => exact Bool.beq_eq_decide_eq _ _ |>.symm

/-- The members without a machine are split into those that are spared and those that go. -/
theorem partition_drifted (v : Inventory) :
    (Drift.drifted (Resolution.addressed v.machines v.interfaces) v.members).partition
      (·.status.isReady) = (v.orphaned, v.stale) := by
  have hdrifted : Drift.drifted (Resolution.addressed v.machines v.interfaces) v.members =
      v.members.filter fun m => !v.isBacked m.addr := by
    simp only [Drift.drifted, any_addressed, isBacked]
  rw [List.partition_eq_filter_filter, hdrifted, List.filter_filter, List.filter_filter]
  simp only [orphaned, stale, Function.comp_apply, Bool.and_comm]

/-! ## One eviction -/

/-- The account once so many members have been evicted. -/
def evicted (role : Role) (v : Inventory) (past : List Member) : Inventory :=
  { v with steps := past.flatMap (eviction role) }

theorem step_upholds {action : Control ServiceError Unit} {v' : Inventory}
    (h : action.Upholds (rules config set role) (fun _ => (· = v')) (fun _ => (· = v')) v) :
    (Membership.unlessGone action).Upholds (rules config set role) (fun _ => (· = v'))
      (fun _ _ => True) v := by
  refine Membership.unlessGone_upholds (h.monoError ?_)
  intro e v'' hv
  split
  next => exact hv
  next => trivial

theorem demote_upholds {id : String} (hdue : v.steps ++ [.demote id] <+: v.due role) :
    (Membership.unlessGone (demote .here id)).Upholds (rules config set role)
      (fun _ => (· = { v with steps := v.steps ++ [.demote id] })) (fun _ _ => True) v := by
  apply step_upholds
  refine ⟨⟨rfl, hdue⟩, ?_⟩
  rintro answer v' rfl
  cases answer <;> rfl

theorem remove_upholds {id : String} (hdue : v.steps ++ [.remove id] <+: v.due role) :
    (Membership.unlessGone (remove .here id)).Upholds (rules config set role)
      (fun _ => (· = { v with steps := v.steps ++ [.remove id] })) (fun _ _ => True) v := by
  apply step_upholds
  refine ⟨⟨rfl, hdue⟩, ?_⟩
  rintro answer v' rfl
  cases answer <;> rfl

/-- Each step of an eviction is the next one that is due. -/
theorem evict_upholds {past rest : List Member} {m : Member}
    (hstale : v.stale = past ++ m :: rest) :
    (Membership.evict m.id role).Upholds (rules config set role)
      (fun _ => (· = v.evicted role (past ++ [m]))) (fun _ _ => True) (v.evicted role past) := by
  have hdue : v.due role =
      past.flatMap (eviction role) ++ eviction role m ++ rest.flatMap (eviction role) := by
    simp [due, hstale]
  unfold Membership.evict
  split
  next hrole =>
    rw [eviction, if_pos hrole] at hdue
    have hdemote : (v.evicted role past).steps ++ [.demote m.id] <+: (v.evicted role past).due role :=
      ⟨.remove m.id :: rest.flatMap (eviction role), by
        simp only [evicted, List.append_assoc, List.cons_append, List.nil_append] at hdue ⊢
        exact hdue.symm⟩
    refine (demote_upholds hdemote).bind ?_
    rintro _ v' rfl
    refine (remove_upholds ?_).mono ?_ fun _ _ h => h
    · exact ⟨rest.flatMap (eviction role), by
        simp only [evicted, List.append_assoc, List.cons_append, List.nil_append] at hdue ⊢
        exact hdue.symm⟩
    · rintro _ v' rfl
      simp [evicted, eviction, hrole]
  next hrole =>
    rw [eviction, if_neg hrole] at hdue
    refine (remove_upholds ?_).mono ?_ fun _ _ h => h
    · exact ⟨rest.flatMap (eviction role), hdue.symm⟩
    · rintro _ v' rfl
      simp [evicted, eviction, hrole]

/-! ## A reconciliation -/

theorem isHeld_upholds :
    (Lock.isHeld config.swarm.upgradeQueue).Upholds (rules config set role)
      (fun _ => (· = start)) (fun _ _ => True) start := by
  have hasks : (Lock.isHeld config.swarm.upgradeQueue).Asks
      (fun c => c = Call.queue (.exists config.swarm.upgradeQueue)) := Lock.isHeld_asks rfl
  refine Upholds.monoError (hasks.keeps ?_ rfl) fun _ _ _ => trivial
  rintro c rfl v rfl
  refine ⟨rfl, ?_⟩
  rintro answer v' rfl
  rfl

theorem machineTable_upholds :
    (Resolution.machineTable set).Upholds (rules config set role)
      (fun table v => table = Resolution.addressed v.machines v.interfaces ∧ v.steps = [])
      (fun _ _ => True) start := by
  have hmachines : (Control.machines set).Upholds (rules config set role)
      (fun machines => (· = { start with machines })) (fun _ _ => True) start := by
    refine ⟨⟨rfl, rfl⟩, ?_⟩
    rintro answer v rfl
    cases answer with
    | error e => trivial
    | ok machines => rfl
  refine hmachines.bind ?_
  rintro machines v rfl
  refine Upholds.bind (m := fun interfaces => (· = ⟨machines, interfaces, [], []⟩)) ?_ ?_
  · refine ⟨⟨rfl, rfl⟩, ?_⟩
    rintro answer v rfl
    cases answer with
    | error e => trivial
    | ok interfaces => rfl
  · rintro interfaces v rfl
    exact ⟨rfl, rfl⟩

theorem members_upholds (hnone : v.steps = []) :
    (Control.members .here (some role)).Upholds (rules config set role)
      (fun members v' => members = v'.members ∧ v'.machines = v.machines ∧
        v'.interfaces = v.interfaces ∧ v'.steps = [])
      (fun _ _ => True) v := by
  refine ⟨⟨rfl, rfl, hnone⟩, ?_⟩
  rintro answer v' rfl
  cases answer with
  | error e => trivial
  | ok members => exact ⟨rfl, rfl, rfl, hnone⟩

theorem reconcile_upholds (config : Config) (set : String) (role : Role) :
    (Drift.reconcile config set role).Upholds (rules config set role)
      (fun outcome v => ∀ report, outcome = .reconciled report → v.Tells role report)
      (fun _ _ => True) start := by
  refine Upholds.bind isHeld_upholds.renamed ?_
  rintro held v rfl
  cases held with
  | true =>
      intro report h
      cases h
  | false =>
      refine Upholds.bind machineTable_upholds.renamed ?_
      rintro table v ⟨rfl, hnone⟩
      refine Upholds.bind (members_upholds hnone).renamed ?_
      rintro members v' ⟨rfl, hmachines, hinterfaces, hnone⟩
      simp only [← hmachines, ← hinterfaces, partition_drifted]
      have hstart : v' = v'.evicted role [] := by simp [evicted, ← hnone]
      have hevictions : (Attempt.each (fun m => Membership.evict m.id role) v'.stale).Upholds
          (rules config set role) (fun _ => (· = v'.evicted role v'.stale)) (fun _ _ => True) v' :=
        Upholds.each_along (fun past w => w = v'.evicted role past)
          (fun past m rest w hsplit hw => hw ▸ evict_upholds hsplit) hstart
      refine Upholds.bind hevictions.renamed ?_
      rintro _ w rfl report ⟨⟩
      exact ⟨rfl, rfl, rfl⟩

end Inventory

/-- Whatever is answered, a reconciliation evicts one after the other the members that are not ready
and whose address is the primary one of no machine listed, and nobody else; and its report names
them, and those that were ready. -/
theorem reconcile_evicts_unbacked {σ : Type} (respond : σ → (c : Call) → c.Answer × σ) (s : σ)
    (config : Config) (set : String) (role : Role) :
    let record := Program.transcript respond (Drift.reconcile config set role) s
    let account := List.foldl Inventory.next Inventory.start
    InOrder (fun past => (account past).Permits config set role) record ∧
      ∀ report, (Program.run respond (Drift.reconcile config set role) s).1 =
          .ok (.reconciled report) → (account record).Tells role report := by
  intro record account
  have hreconcile := Inventory.reconcile_upholds config set role
  refine ⟨Program.Upholds.inOrder_accounted hreconcile respond s, ?_⟩
  intro report hreport
  have hpost := Program.Upholds.transcript hreconcile respond s
  rw [hreport] at hpost
  exact hpost report rfl

namespace World

/-- A worker that is down, at the further address of a machine beside its primary one. -/
def multihomed : World :=
  { trial with
    members := [⟨"w1", "host-1", .v4 10 0 1 5, .worker, .down, false⟩]
    sets :=
      [("workers",
        ⟨.worker, 1,
          [⟨"1", "host-1", [⟨.v4 10 0 1 4, true⟩, ⟨.v4 10 0 1 5, false⟩], .running, .succeeded,
            none⟩], []⟩)] }

/-- A member is removed although an interface with its address was listed. -/
theorem multihomed_removed :
    let reconcile := Drift.reconcile trialSite.config "workers" .worker
    let account := List.foldl Inventory.next .start (reconcile.transcript respond multihomed)
    (∃ m ∈ account.members, ∃ nic ∈ account.interfaces,
      nic.privateIp = m.addr ∧ .remove m.id ∈ account.steps) ∧
    (reconcile.run respond multihomed).1 = .ok (.reconciled ⟨"workers", ["host-1"], []⟩) ∧
    (reconcile.run respond multihomed).2.members = [] := by
  intro reconcile account
  have hmembers : account.members = multihomed.members := by decide +kernel
  have hinterfaces :
      account.interfaces = [⟨"1", .v4 10 0 1 4, true⟩, ⟨"1", .v4 10 0 1 5, false⟩] := by
    decide +kernel
  have hsteps : account.steps = [.remove "w1"] := by decide +kernel
  refine ⟨⟨⟨"w1", "host-1", .v4 10 0 1 5, .worker, .down, false⟩, ?_, ⟨"1", .v4 10 0 1 5, false⟩,
    ?_, rfl, ?_⟩, rfl, rfl⟩
  · rw [hmembers]
    exact List.mem_singleton_self _
  · rw [hinterfaces]
    decide
  · rw [hsteps]
    exact List.mem_singleton_self _

end World

end SwarmUpkeep
