import SwarmUpkeep.Control.Call
import SwarmUpkeep.Swarm.Node

/-!
# Resolution of nodes

Machines of a scale set and members of the swarm are brought together by address: a machine has
the address of its primary network interface, and the member at that address runs on it. A member
whose address belongs to no machine is an error.
-/

namespace SwarmUpkeep

/-- Why a scale set could not be resolved. -/
inductive ResolutionError where
  | unknownAddress (set memberId hostname : String) (addr : Address)
  | service (error : ServiceError)
deriving DecidableEq, Inhabited

def ResolutionError.message : ResolutionError → String
  | unknownAddress set memberId hostname addr =>
      "Cluster node " ++ memberId ++ " (" ++ hostname ++ ", " ++ addr.text ++
        ") has no network interface in scale set " ++ set
  | service e => "API error: " ++ e.message

/-- The kind of an error, with the kind of its cause behind a slash. -/
def ResolutionError.kind : ResolutionError → String
  | unknownAddress _ _ _ _ => "UnknownAddress"
  | service e => "Api/" ++ e.kind

/-- A machine and the address by which it is known. -/
structure MachineAddress where
  machineId : String
  privateIp : Address
  computerName : String
deriving DecidableEq, Inhabited

namespace Resolution

open Control

/-- The address of a machine: that of the last of its primary interfaces. -/
def primaryIp (interfaces : List NetworkInterface) (machineId : String) : Option Address :=
  ((interfaces.filter fun nic => nic.primary && nic.machineId == machineId).getLast?).map
    (·.privateIp)

/-- The machines that have an address, in their order. -/
def addressed (machines : List Machine) (interfaces : List NetworkInterface) :
    List MachineAddress :=
  machines.filterMap fun machine =>
    (primaryIp interfaces machine.id).map fun ip => ⟨machine.id, ip, machine.computerName⟩

/-- The member at an address: the last ready one, or the last one if none is ready. -/
def memberAt (members : List Member) (addr : Address) : Option Member :=
  let there := members.filter fun m => m.addr = addr
  (there.filter (·.status.isReady)).getLast?.or there.getLast?

theorem mem_of_memberAt {members : List Member} {addr : Address} {m : Member}
    (h : memberAt members addr = some m) : m ∈ members ∧ m.addr = addr := by
  have hthere : m ∈ members.filter fun m => m.addr = addr := by
    rcases Option.or_eq_some_iff.mp h with hready | ⟨_, hlast⟩
    · exact (List.mem_filter.mp (List.mem_of_getLast? hready)).1
    · exact List.mem_of_getLast? hlast
  simpa using hthere

/-- The first member whose address belongs to no machine. -/
def stray (table : List MachineAddress) (members : List Member) : Option Member :=
  members.find? fun m => !(table.any fun row => row.privateIp = m.addr)

def node (role : Role) (members : List Member) (row : MachineAddress)
    (provisionedAt : Option Instant) : Node :=
  let member := memberAt members row.privateIp
  { instanceId := row.machineId
    privateIp := row.privateIp
    memberId := member.map (·.id)
    role
    hostname := (member.map (·.hostname)).getD row.computerName
    status := (member.map (·.status)).getD .unknown
    provisionedAt }

/-- The machines of a scale set with their addresses. -/
def machineTable (set : String) : Control ServiceError (List MachineAddress) := do
  let machines ← machines set
  let interfaces ← interfaces set
  return addressed machines interfaces

/-- When a machine was provisioned; unknown for one that is gone. -/
def provisioning (set : String) (row : MachineAddress) :
    Control ResolutionError (Option Instant) := do
  match ← (view set row.machineId).outcome with
  | .ok view => return view.provisionedAt
  | .error (.notFound _) => return none
  | .error e => Attempt.fail (.service e)

/-- The nodes of a scale set with their places in the swarm. -/
def resolve (set : String) (role : Role) : Control ResolutionError ResolvedSet := do
  let table ← (machineTable set).mapError .service
  let members ← (members .here (some role)).mapError .service
  match stray table members with
  | some m => Attempt.fail (.unknownAddress set m.id m.hostname m.addr)
  | none =>
      let nodes ← Attempt.collect
        (fun row => do return node role members row (← provisioning set row)) table
      return ⟨set, role, nodes⟩

end Resolution

end SwarmUpkeep
