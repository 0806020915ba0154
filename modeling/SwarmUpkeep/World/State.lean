import SwarmUpkeep.Config.Settings
import SwarmUpkeep.Control.Call
import SwarmUpkeep.Keyed

/-!
# A world for the control loops

A world holds all that the control loops can see and change: the members of the swarm, the scale
sets, the deployment, the queues and tables, what the services have been told to answer, and what
is still to happen. It starts empty.

Operations of the provider take a number of status calls. A demotion, the election of a leader and
the return of a reimaged host can each be delayed by a number of listings of the members.
-/

namespace SwarmUpkeep.World

/-! ## The cloud -/

/-- One address of a simulated machine. -/
structure Nic where
  ip : Address
  primary : Bool
deriving DecidableEq, Inhabited

/-- A machine with all that the provider tells of it. -/
structure Host where
  id : String
  name : String
  nics : List Nic
  power : PowerState
  provisioning : ProvisioningState
  provisionedAt : Option Instant
deriving DecidableEq, Inhabited

/-- A scale set. Interfaces that are listed beside those of its machines may belong to none. -/
structure ScaleSet where
  role : Role
  capacity : Nat
  hosts : List Host
  extraInterfaces : List NetworkInterface
deriving DecidableEq, Inhabited

/-- How an operation is to go: done at once, or after a number of status calls, maybe with a
failure. -/
structure Plan where
  done : Bool
  polls : Option Nat
  failure : Option String
deriving DecidableEq, Inhabited

/-- An operation that is not done. The status calls after it is final answer the same. -/
structure Work where
  polls : Nat
  failure : Option String
  reimaged : Option (String × String)
deriving DecidableEq, Inhabited

/-! ## What is told in advance -/

/-- A node that appears in the swarm when a machine is reimaged. Its new identifier is put behind
the hostname. -/
structure Ghost where
  hostname : String
  addr : Address
  status : Status
deriving DecidableEq, Inhabited

structure Knobs where
  demoteDelay : Nat := 0
  electDelay : Nat := 0
  rejoinDelay : Nat := 0
  noElection : Bool := false
  noRejoin : Bool := false
  rejoinUpper : Bool := false
  rejoinStatus : Status := .ready
  ghosts : List Ghost := []
  operationPolls : Option Nat := none
  createRace : Bool := false
  stealOnGet : Nat := 0
  joinInvisible : Bool := false
deriving DecidableEq, Inhabited

/-- The error of a service or of the add-on. -/
inductive Failure where
  | service (error : ServiceError)
  | addon (error : AddonError)
deriving DecidableEq, Inhabited

/-- A failure of the calls with a text, or with any text that starts so: the first `skip` of them
are spared, and after `times` of them no more fail. -/
structure Fault where
  call : String
  skip : Nat
  times : Option Nat
  failure : Failure
deriving DecidableEq, Inhabited

/-- Something that is still to happen. -/
inductive Effect where
  | demotion (id : String)
  | election
  | arrival (member : Member)
deriving DecidableEq, Inhabited

end World

open World

/-- All that the control loops can see and change. -/
structure World where
  site : Site
  members : List Member := []
  localId : Option String := none
  localHostname : String := "local-host"
  localIp : Option Address := none
  sets : List (String × ScaleSet) := []
  deployment : Deployment := ⟨"docker.template", none, []⟩
  supplied : Option Json.Members := none
  queues : List (String × List Message) := []
  tables : List (String × List Row) := []
  templates : List (String × Json) := []
  probes : List (Address × List Bool) := []
  plans : List (String × Plan) := []
  knobs : Knobs := {}
  faults : List Fault := []
  pending : List (Nat × Effect) := []
  works : List (String × Work) := []
  nodeCount : Nat := 0
  messageCount : Nat := 0
  operationCount : Nat := 0
  clock : Instant
  slept : Nat := 0
  journal : List String := []
deriving Inhabited

end SwarmUpkeep
