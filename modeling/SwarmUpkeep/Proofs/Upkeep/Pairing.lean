import Mathlib.Data.List.Forall2
import Mathlib.Data.List.Induction
import Mathlib.Logic.Function.Basic
import SwarmUpkeep.Proofs.Upkeep.Diagnosis

/-!
# Machines paired with members

A scale set is resolved from three listings: its machines, their interfaces and the members of a
role. What comes out is told from the listings alone: which machines have a row and with which
address, which member is the first to run on none of them, and who is found at an address at which
several are listed. At each address the nodes and the checks of health agree on who is ready.
-/

namespace SwarmUpkeep

open Attempt Control

theorem Status.isReady_iff {status : Status} : status.isReady = true ↔ status = .ready := by
  cases status <;> decide

/-! ## Statuses by address -/

namespace Health

variable {members : List Member} {m : Member} {addr : Address}

theorem statusAt_concat :
    statusAt (members ++ [m]) addr =
      if addr = m.addr ∧ (statusAt members addr = none ∨ m.status.isReady)
      then some m.status else statusAt members addr := by
  unfold statusAt
  by_cases haddr : addr = m.addr
  · subst haddr
    simp only [List.filter_append, true_and]
    rw [List.filter_cons_of_pos (by simp), List.filter_nil]
    generalize members.filter (fun other => other.addr = m.addr) = there
    rw [List.find?_append, List.head?_append]
    cases hfound : there.find? (·.status.isReady) with
    | some first =>
        have hready : first.status.isReady = true := by simpa using List.find?_some hfound
        have hfirst := Status.isReady_iff.mp hready
        simp +contextual [hfirst, Status.isReady_iff]
    | none =>
        cases hready : m.status.isReady <;> cases hhead : there.head? <;> simp [hready]
  · have hother : m.addr ≠ addr := Ne.symm haddr
    simp [List.filter_append, haddr, hother]

/-- Notes the status of one more member, unless one is known at its address that counts before. -/
def note (known : Address → Option Status) (m : Member) : Address → Option Status :=
  if known m.addr = none ∨ m.status.isReady then Function.update known m.addr (some m.status)
  else known

/-- The statuses by address come about by noting one member after the other. -/
theorem foldl_note (members : List Member) :
    members.foldl note (fun _ => none) = statusAt members := by
  induction members using List.reverseRecOn with
  | nil => rfl
  | append_singleton members m ih =>
      funext addr
      rw [List.foldl_append, List.foldl_cons, List.foldl_nil, ih, statusAt_concat]
      unfold note
      by_cases haddr : addr = m.addr
      · subst haddr
        split <;> simp [*]
      · split <;> simp [haddr]

end Health

namespace Resolution

/-! ## Listings -/

/-- What is listed of a scale set and of a role. -/
structure Listing where
  machines : List Machine
  interfaces : List NetworkInterface
  members : List Member

namespace Listing

variable {σ : Type} {l : Listing} {set : String} {role : Role} {table : List MachineAddress}
variable {row : MachineAddress} {s : σ}

/-- The answer is what is listed. The view of a machine is free, and there may be none. -/
def Tells (l : Listing) (set : String) (role : Role) : (c : Call) → c.Answer → Prop
  | .provider (.machines asked), answer => asked = set → answer = .ok l.machines
  | .provider (.interfaces asked), answer => asked = set → answer = .ok l.interfaces
  | .provider (.view asked _), .error e => asked = set → e.isNotFound = true
  | .swarm .here (.members asked), answer => asked = some role → answer = .ok l.members
  | _, _ => True

instance (l : Listing) (set : String) (role : Role) :
    (c : Call) → (answer : c.Answer) → Decidable (l.Tells set role c answer)
  | .provider (.machines asked), answer =>
      inferInstanceAs (Decidable (asked = set → answer = .ok l.machines))
  | .provider (.interfaces asked), answer =>
      inferInstanceAs (Decidable (asked = set → answer = .ok l.interfaces))
  | .provider (.view asked _), .error e =>
      inferInstanceAs (Decidable (asked = set → e.isNotFound = true))
  | .swarm .here (.members asked), answer =>
      inferInstanceAs (Decidable (asked = some role → answer = .ok l.members))
  | .provider (.view _ _), .ok _ | .provider (.updateModel _ _), _ | .provider (.reimage _ _), _
  | .provider (.delete _ _), _ | .provider (.capacity _), _ | .provider (.setCapacity _ _), _
  | .provider (.deployment _), _ | .provider (.updateDeployment _ _ _), _
  | .provider (.status _), _ | .swarm (.at _) _, _ | .swarm .here (.inspect _), _
  | .swarm .here .localId, _ | .swarm .here (.demote _), _ | .swarm .here (.remove _), _
  | .swarm .here .joinTokens, _ | .swarm .here .leave, _ | .swarm .here (.join _ _), _
  | .reach _, _ | .queue _, _ | .table _, _ | .addon _, _ | .probe _, _ | .template _, _
  | .pause _, _ | .now, _ => isTrue trivial

/-- The rules of surroundings that tell what is listed. -/
def rules (l : Listing) (set : String) (role : Role) : Rules Surroundings σ where
  allows _ _ := True
  moves _ c answer _ := l.Tells set role c answer

/-- A primary interface of a machine has this address. -/
def HasAddress (l : Listing) (machineId : String) (addr : Address) : Prop :=
  ⟨machineId, addr, true⟩ ∈ l.interfaces

/-- The table has a row for each machine with a primary interface and for no other, in the order of
the machines, and each row has an address of its machine. -/
structure IsTable (l : Listing) (table : List MachineAddress) : Prop where
  machines : table.map (fun row => (row.machineId, row.computerName)) =
    (l.machines.filter fun m =>
        l.interfaces.any fun nic => nic.primary && nic.machineId == m.id).map
      fun m => (m.id, m.computerName)
  addresses : ∀ row ∈ table, l.HasAddress row.machineId row.privateIp

/-- The first member whose address is not in the table. -/
def IsFirstStray (l : Listing) (table : List MachineAddress) (m : Member) : Prop :=
  ∃ past rest, l.members = past ++ m :: rest ∧
    (∀ other ∈ past, ∃ row ∈ table, row.privateIp = other.addr) ∧
    ∀ row ∈ table, row.privateIp ≠ m.addr

/-- A member is found at an address. It is ready if any there is. -/
structure IsFound (l : Listing) (addr : Address) (m : Member) : Prop where
  mem : m ∈ l.members
  address : m.addr = addr
  ready : (∃ other ∈ l.members, other.addr = addr ∧ other.status = .ready) → m.status = .ready

/-- The node of a machine, as a member that is found at its address or as none. -/
structure IsNode (l : Listing) (role : Role) (row : MachineAddress) (node : Node) : Prop where
  instanceId : node.instanceId = row.machineId
  privateIp : node.privateIp = row.privateIp
  role : node.role = role
  member : (∃ m, l.IsFound row.privateIp m ∧ node.memberId = some m.id ∧
      node.hostname = m.hostname ∧ node.status = m.status) ∨
    (∀ m ∈ l.members, m.addr ≠ row.privateIp) ∧ node.memberId = none ∧
      node.hostname = row.computerName ∧ node.status = .unknown

/-! ## The table -/

theorem isSome_primaryIp (interfaces : List NetworkInterface) (machineId : String) :
    (primaryIp interfaces machineId).isSome =
      interfaces.any fun nic => nic.primary && nic.machineId == machineId := by
  unfold primaryIp
  rw [Option.isSome_map, Bool.eq_iff_iff, List.getLast?_isSome]
  simp

theorem hasAddress_of_primaryIp {machineId : String} {addr : Address}
    (h : primaryIp l.interfaces machineId = some addr) : l.HasAddress machineId addr := by
  obtain ⟨nic, hlast, rfl⟩ := Option.map_eq_some_iff.mp h
  obtain ⟨hmem, hnic⟩ := List.mem_filter.mp (List.mem_of_getLast? hlast)
  obtain ⟨hprimary, hmachine⟩ := Bool.and_eq_true_iff.mp hnic
  obtain rfl := eq_of_beq hmachine
  rw [HasAddress, ← hprimary]
  exact hmem

theorem map_addressed (machines : List Machine) (interfaces : List NetworkInterface) :
    (addressed machines interfaces).map (fun row => (row.machineId, row.computerName)) =
      (machines.filter fun m => (primaryIp interfaces m.id).isSome).map
        fun m => (m.id, m.computerName) := by
  unfold addressed
  induction machines with
  | nil => rfl
  | cons m rest ih =>
      cases hip : primaryIp interfaces m.id with
      | none => simp [hip, ih]
      | some ip => simp [hip, ih]

theorem isTable_addressed (l : Listing) : l.IsTable (addressed l.machines l.interfaces) where
  machines := by
    rw [map_addressed]
    simp only [isSome_primaryIp]
  addresses := by
    intro row hrow
    obtain ⟨m, _, hm⟩ := List.mem_filterMap.mp hrow
    obtain ⟨ip, hip, rfl⟩ := Option.map_eq_some_iff.mp hm
    exact hasAddress_of_primaryIp hip

/-! ## Members at an address -/

theorem isFirstStray_iff {m : Member} :
    l.IsFirstStray table m ↔ stray table l.members = some m := by
  unfold IsFirstStray stray
  rw [List.find?_eq_some_iff_append]
  constructor
  · rintro ⟨past, rest, hmembers, hpast, hm⟩
    exact ⟨by simpa using hm, past, rest, hmembers, by simpa using hpast⟩
  · rintro ⟨hm, past, rest, hmembers, hpast⟩
    exact ⟨past, rest, hmembers, by simpa using hpast, by simpa using hm⟩

theorem isFound_memberAt {addr : Address} {m : Member} (h : memberAt l.members addr = some m) :
    l.IsFound addr m := by
  obtain ⟨hmem, haddr⟩ := mem_of_memberAt h
  refine ⟨hmem, haddr, ?_⟩
  rintro ⟨other, hother, hthere, hready⟩
  rcases Option.or_eq_some_iff.mp h with hfound | ⟨hnone, _⟩
  · have hm := (List.mem_filter.mp (List.mem_of_getLast? hfound)).2
    exact Status.isReady_iff.mp hm
  · -- Nobody there would be ready, but somebody is.
    rw [List.getLast?_eq_none_iff, List.filter_eq_nil_iff] at hnone
    refine absurd (Status.isReady_iff.mpr hready) (hnone other ?_)
    exact List.mem_filter.mpr ⟨hother, decide_eq_true hthere⟩

theorem memberAt_eq_none_iff {members : List Member} {addr : Address} :
    memberAt members addr = none ↔ ∀ m ∈ members, m.addr ≠ addr := by
  unfold memberAt
  rw [Option.or_eq_none_iff, List.getLast?_eq_none_iff, List.getLast?_eq_none_iff]
  constructor
  · rintro ⟨_, hthere⟩
    simpa [List.filter_eq_nil_iff] using hthere
  · intro hnobody
    have hthere : members.filter (fun m => m.addr = addr) = [] := by
      simpa [List.filter_eq_nil_iff] using hnobody
    rw [hthere]
    exact ⟨rfl, rfl⟩

theorem isNode_node (l : Listing) (role : Role) (row : MachineAddress)
    (provisionedAt : Option Instant) :
    l.IsNode role row (node role l.members row provisionedAt) := by
  refine ⟨rfl, rfl, rfl, ?_⟩
  unfold node
  cases hmember : memberAt l.members row.privateIp with
  | some m => exact .inl ⟨m, isFound_memberAt hmember, rfl, rfl, rfl⟩
  | none => exact .inr ⟨memberAt_eq_none_iff.mp hmember, rfl, rfl, rfl⟩

/-- A check of health takes an address for ready exactly where somebody there is. -/
theorem statusAt_eq_ready_iff {members : List Member} {addr : Address} :
    Health.statusAt members addr = some .ready ↔
      ∃ m ∈ members, m.addr = addr ∧ m.status = .ready := by
  have hany := Diagnosis.any_isReady_statusAt members addr
  have hready : (Health.statusAt members addr).any Status.isReady = true ↔
      Health.statusAt members addr = some .ready := by
    cases Health.statusAt members addr with
    | none => simp
    | some status => simp [Status.isReady_iff]
  rw [← hready, hany]
  simp [Status.isReady_iff]

/-- The node of a machine is ready exactly where a check of health takes its address for ready. -/
theorem IsNode.isReady_iff {node : Node} (h : l.IsNode role row node) :
    node.status = .ready ↔ Health.statusAt l.members row.privateIp = some .ready := by
  rw [statusAt_eq_ready_iff]
  rcases h.member with ⟨m, hm, _, _, hstatus⟩ | ⟨hnobody, _, _, hstatus⟩
  · rw [hstatus]
    exact ⟨fun hready => ⟨m, hm.mem, hm.address, hready⟩, hm.ready⟩
  · rw [hstatus]
    constructor
    · intro h
      cases h
    · rintro ⟨m, hm, haddr, _⟩
      exact absurd haddr (hnobody m hm)

end Listing

/-! ## A resolution -/

variable {σ : Type}

theorem machineTable_upholds {err : ServiceError → σ → Prop} (l : Listing) (set : String)
    (role : Role) (s : σ) :
    (machineTable set).Upholds (l.rules set role)
      (fun table _ => table = addressed l.machines l.interfaces) err s := by
  have hmachines : (machines set).Upholds (l.rules set role)
      (fun machines (_ : σ) => machines = l.machines) err s := by
    refine ⟨trivial, ?_⟩
    rintro answer _ hanswer
    obtain rfl := hanswer rfl
    rfl
  have hinterfaces : ∀ s : σ, (interfaces set).Upholds (l.rules set role)
      (fun interfaces _ => interfaces = l.interfaces) err s := by
    intro s
    refine ⟨trivial, ?_⟩
    rintro answer _ hanswer
    obtain rfl := hanswer rfl
    rfl
  refine hmachines.bind ?_
  rintro _ s rfl
  refine (hinterfaces s).bind ?_
  rintro _ s rfl
  rfl

theorem members_upholds {err : ServiceError → σ → Prop} (l : Listing) (set : String) (role : Role)
    (s : σ) :
    (members .here (some role)).Upholds (l.rules set role)
      (fun members _ => members = l.members) err s := by
  refine ⟨trivial, ?_⟩
  rintro answer _ hanswer
  obtain rfl := hanswer rfl
  rfl

/-- When a machine was provisioned is told or unknown. -/
theorem provisioning_upholds {err : ResolutionError → σ → Prop} (l : Listing) (set : String)
    (role : Role) (row : MachineAddress) (s : σ) :
    (provisioning set row).Upholds (l.rules set role) (fun _ _ => True) err s := by
  refine Upholds.bind (m := fun found _ => ∀ e, found = .error e → e.isNotFound = true) ?_ ?_
  · apply upholds_outcome.mpr
    refine ⟨trivial, ?_⟩
    rintro answer _ hanswer
    cases answer with
    | ok view => exact fun _ h => nomatch h
    | error e =>
        rintro _ ⟨⟩
        exact hanswer rfl
  · intro found s hfound
    split
    next => trivial
    next => trivial
    next e hother =>
      have hgone := hfound e rfl
      cases e with
      | notFound what => exact (hother what rfl).elim
      | _ => simp [ServiceError.isNotFound] at hgone

theorem resolve_upholds (l : Listing) (set : String) (role : Role) (s : σ) :
    (resolve set role).Upholds (l.rules set role)
      (fun resolved _ => stray (addressed l.machines l.interfaces) l.members = none ∧
        resolved.name = set ∧ resolved.role = role ∧
        List.Forall₂ (l.IsNode role) (addressed l.machines l.interfaces) resolved.nodes)
      (fun e _ => ∃ m, stray (addressed l.machines l.interfaces) l.members = some m ∧
        e = .unknownAddress set m.id m.hostname m.addr) s := by
  refine Upholds.bind (Upholds.mapError (machineTable_upholds l set role s)) ?_
  rintro _ s rfl
  refine Upholds.bind (Upholds.mapError (members_upholds l set role s)) ?_
  rintro _ s rfl
  split
  next m hstray => exact ⟨m, hstray, rfl⟩
  next hstray =>
    refine Upholds.bind (m := fun nodes _ => List.Forall₂ (l.IsNode role)
      (addressed l.machines l.interfaces) nodes) ?_ ?_
    · apply Upholds.collect_along fun past nodes _ => List.Forall₂ (l.IsNode role) past nodes
      · intro past row rest nodes s _ hpast
        refine (provisioning_upholds l set role row s).bind ?_
        intro provisionedAt s _
        exact List.rel_append hpast (.cons (l.isNode_node role row provisionedAt) .nil)
      · exact .nil
    · intro nodes s hnodes
      exact ⟨hstray, rfl, rfl, hnodes⟩

variable {respond : σ → (c : Call) → c.Answer × σ} {l : Listing} {set : String} {role : Role}
  {s : σ}

/-- A resolution begins with the table of the machines. -/
theorem visits_machineTable {v : σ × Call} (h : v ∈ (machineTable set).visits respond s) :
    v ∈ (resolve set role).visits respond s := by
  have hmapped : v ∈ ((machineTable set).mapError ResolutionError.service).visits respond s := by
    refine (congrArg (v ∈ ·) (Program.visits_bind _ _ _)).mpr ?_
    exact List.mem_append_left _ h
  refine (congrArg (v ∈ ·) (Program.visits_bind _ _ _)).mpr ?_
  exact List.mem_append_left _ hmapped

/-- Where the surroundings tell what is listed, the table has a row for each machine with a primary
interface; a resolution fails with the first member whose address is not in the table, and if there
is none, it pairs each row with a member at its address that is ready if any there is, and takes the
same addresses for ready as a check of health, which notes the statuses of the members one by one. -/
theorem resolution_pairs
    (h : Program.Obeys (l.rules set role) respond ((resolve set role).visits respond s)) :
    ∃ table, ((machineTable set).run respond s).1 = .ok table ∧ l.IsTable table ∧
      (∀ e, ((resolve set role).run respond s).1 = .error e ↔
        ∃ m, l.IsFirstStray table m ∧ e = .unknownAddress set m.id m.hostname m.addr) ∧
      (∀ resolved, ((resolve set role).run respond s).1 = .ok resolved →
        resolved.name = set ∧ resolved.role = role ∧
        List.Forall₂ (fun row node => l.IsNode role row node ∧
          (node.status = .ready ↔ Health.statusAt l.members row.privateIp = some .ready))
          table resolved.nodes) ∧
      Health.statusAt l.members = l.members.foldl Health.note fun _ => none := by
  have hlisted : Program.Obeys (l.rules set role) respond ((machineTable set).visits respond s) :=
    fun v hv => h v (visits_machineTable hv)
  have htold : (machineTable set).Upholds (l.rules set role)
      (fun table _ => table = addressed l.machines l.interfaces) (fun _ _ => False) s :=
    machineTable_upholds l set role s
  have htable := htold.run hlisted
  have hresolve := (resolve_upholds l set role s).run h
  refine ⟨addressed l.machines l.interfaces, ?_, l.isTable_addressed, ?_, ?_,
    (Health.foldl_note l.members).symm⟩
  · cases hresult : ((machineTable set).run respond s).1 with
    | error e =>
        rw [hresult] at htable
        exact htable.elim
    | ok table =>
        rw [hresult] at htable
        exact congrArg Except.ok htable
  · intro e
    simp only [Listing.isFirstStray_iff]
    cases hresult : ((resolve set role).run respond s).1 with
    | error e' =>
        rw [hresult] at hresolve
        obtain ⟨m, hstray, rfl⟩ := hresolve
        simp [hstray, eq_comm]
    | ok resolved =>
        rw [hresult] at hresolve
        simp [hresolve.1]
  · intro resolved hresult
    rw [hresult] at hresolve
    obtain ⟨_, hname, hrole, hnodes⟩ := hresolve
    exact ⟨hname, hrole, hnodes.imp fun _ _ hnode => ⟨hnode, hnode.isReady_iff⟩⟩

end Resolution

namespace World

/-- A manager that has come back at the address of its predecessor, whose entry is still there. The
first machine has a second address, and the third has no interface yet. -/
def shadowed : World :=
  { trial with
    members :=
      [⟨"m0", "host-0", .v4 10 0 0 4, .manager, .ready, true⟩,
        ⟨"m1", "host-1", .v4 10 0 0 5, .manager, .ready, false⟩,
        ⟨"x1", "host-1", .v4 10 0 0 5, .manager, .down, false⟩]
    sets :=
      [("managers",
          ⟨.manager, 3,
            [⟨"0", "host-0", [⟨.v4 10 0 0 4, true⟩, ⟨.v4 10 0 1 4, false⟩], .running, .succeeded,
                none⟩,
              ⟨"1", "host-1", [⟨.v4 10 0 0 5, true⟩], .running, .succeeded, none⟩,
              ⟨"2", "host-2", [], .starting, .creating, none⟩],
            []⟩)]
    faults := [⟨"view(managers,1)", 0, none, .service (.notFound "instance managers/1")⟩] }

theorem resolution_pairs_shadowed :
    let l : Resolution.Listing :=
      { machines := [⟨"0", "host-0", false⟩, ⟨"1", "host-1", false⟩, ⟨"2", "host-2", false⟩]
        interfaces := [⟨"0", .v4 10 0 0 4, true⟩, ⟨"0", .v4 10 0 1 4, false⟩,
          ⟨"1", .v4 10 0 0 5, true⟩]
        members := shadowed.members }
    Program.Obeys (l.rules "managers" .manager) respond
        ((Resolution.resolve "managers" .manager).visits respond shadowed) ∧
      ∃ table, (shadowed.run (Resolution.machineTable "managers")).1 = .ok table ∧ l.IsTable table ∧
        (∀ e, (shadowed.run (Resolution.resolve "managers" .manager)).1 = .error e ↔
          ∃ m, l.IsFirstStray table m ∧
            e = .unknownAddress "managers" m.id m.hostname m.addr) ∧
        (∀ resolved, (shadowed.run (Resolution.resolve "managers" .manager)).1 = .ok resolved →
          resolved.name = "managers" ∧ resolved.role = .manager ∧
          List.Forall₂ (fun row node => l.IsNode .manager row node ∧
            (node.status = .ready ↔ Health.statusAt l.members row.privateIp = some .ready))
            table resolved.nodes) ∧
        Health.statusAt l.members = l.members.foldl Health.note fun _ => none := by
  intro l
  have hobeys : Program.Obeys (l.rules "managers" .manager) respond
      ((Resolution.resolve "managers" .manager).visits respond shadowed) := by
    change ∀ v ∈ (Resolution.resolve "managers" .manager).visits respond shadowed,
      l.Tells "managers" .manager v.2 (respond v.1 v.2).1
    decide +kernel
  exact ⟨hobeys, Resolution.resolution_pairs hobeys⟩

end World

end SwarmUpkeep
